import Coop.Proofs.Scheduler.Outline

/-!
# Links are canonical

The links of control blocks say nothing that the order of the queues does not
say: a slot that stands in a queue is linked to its neighbours there, and the link
of any other slot is blank.  So an outline, which has no links at all, still
determines the scheduler it is the outline of.
-/

namespace Coop

open Thread (Block Family Handle Id Lane Queue Table)

namespace Thread

variable {β : Type} {lane : Lane} {t t' : Table β}

/-!
# Links of members
-/

theorem Chained.link_unique {prev next : Option Nat} {slots : List Nat}
    (h : Chained t lane prev slots next) (h' : Chained t' lane prev slots next) {slot : Nat}
    (hslot : slot ∈ slots) : t'.link lane slot = t.link lane slot := by
  induction slots generalizing prev with
  | nil => cases hslot
  | cons first rest ih =>
      rcases List.mem_cons.mp hslot with rfl | hrest
      · rw [h.1, h'.1]
      · exact ih h.2 h'.2 hrest

theorem Queue.Holds.unique {q q' : Queue lane} {slots : List Nat} (h : q.Holds t slots)
    (h' : q'.Holds t' slots) : q' = q := by
  rcases q with ⟨head, tail, len⟩
  rcases q' with ⟨head', tail', len'⟩
  have hhead : head' = head := h'.head.trans h.head.symm
  have htail : tail' = tail := h'.tail.trans h.tail.symm
  have hlen : len' = len := h'.len.trans h.len.symm
  rw [hhead, htail, hlen]

theorem Family.link_unique {ι : Type} {queues queues' : ι → Queue lane} {members : ι → List Nat}
    (h : Family t queues members) (h' : Family t' queues' members) (ht : t.Tidy lane)
    (ht' : t'.Tidy lane) (slot : Nat) : t'.link lane slot = t.link lane slot := by
  by_cases hmember : ∃ i, slot ∈ members i
  · rcases hmember with ⟨i, hslot⟩
    exact (h.holds i).chained.link_unique (h'.holds i).chained hslot
  · have hnone : ∀ i, slot ∉ members i := fun i hslot => hmember ⟨i, hslot⟩
    rw [ht slot (h.unlinked slot hnone), ht' slot (h'.unlinked slot hnone)]

/-!
# Blocks with their links
-/

theorem Block.eq_of_bare {b b' : Block β} (hbare : b'.bare = b.bare)
    (hlink : ∀ lane, b'.link lane = b.link lane) : b' = b := by
  have hready : b'.readyLink = b.readyLink := hlink .ready
  have hwait : b'.waitLink = b.waitLink := hlink .wait
  cases b
  cases b'
  simp_all [Block.bare]

theorem Table.eq_of_bare (hbare : t'.bare = t.bare)
    (hlink : ∀ lane slot, t'.link lane slot = t.link lane slot) : t' = t := by
  have hget : ∀ slot, t'.get? slot = t.get? slot := by
    intro slot
    have hslot := congrArg (fun t => t.get? slot) hbare
    simp only [Table.get?_bare] at hslot
    cases hb : t.get? slot with
    | none =>
        rw [hb] at hslot
        exact Option.map_eq_none_iff.mp hslot
    | some b =>
        rw [hb] at hslot
        rcases Option.map_eq_some_iff.mp hslot with ⟨b', hb', hbb⟩
        have hlinks : ∀ lane, b'.link lane = b.link lane := by
          intro lane
          have hlane := hlink lane slot
          rwa [Table.link_eq_of_get? hb, Table.link_eq_of_get? hb'] at hlane
        rw [hb', Block.eq_of_bare hbb hlinks]
  have hsize : t'.slots.size = t.slots.size := by
    have hslots := congrArg (fun t => t.slots.size) hbare
    simpa [Table.bare] using hslots
  have hslots : t'.slots = t.slots := Table.slots_ext hsize hget
  cases t
  cases t'
  simp_all [Table.bare]

end Thread

/-!
# From the outline back to the scheduler
-/

theorem Waits.eq_of_bucket {w w' : Waits} (h : ∀ line, w'.bucket line = w.bucket line) :
    w' = w := by
  have hbuckets : w'.buckets = w.buckets := by
    apply Vector.ext
    intro i hi
    exact h ⟨i, hi⟩
  cases w
  cases w'
  exact congrArg Waits.mk hbuckets

namespace Represents

variable {β : Type} {s s' : Scheduler β} {o : Outline β}

/-- There is one scheduler with a given outline. -/
theorem unique (h : Represents s o) (h' : Represents s' o) : s' = s := by
  have hlink : ∀ lane slot, s'.table.link lane slot = s.table.link lane slot := by
    intro lane
    cases lane with
    | ready => exact h.ready.link_unique h'.ready (h.tidy .ready) (h'.tidy .ready)
    | wait => exact h.waiting.link_unique h'.waiting (h.tidy .wait) (h'.tidy .wait)
  have htable : s'.table = s.table := Table.eq_of_bare (h'.table.symm.trans h.table) hlink
  have hready : s'.ready = s.ready := (h.ready.holds ()).unique (h'.ready.holds ())
  have hwaits : s'.waits = s.waits := by
    apply Waits.eq_of_bucket
    intro line
    exact (h.waiting.holds line).unique (h'.waiting.holds line)
  have hconfig : s'.config = s.config := h'.config.symm.trans h.config
  have hpool : s'.pool = s.pool := h'.pool.symm.trans h.pool
  have hcurrent : s'.current = s.current := h'.current.symm.trans h.current
  have hnextId : s'.nextId = s.nextId := h'.nextId.symm.trans h.nextId
  have hgraveyard : s'.graveyard = s.graveyard := h'.graveyard.symm.trans h.graveyard
  have hcounters : s'.counters = s.counters := h'.counters.symm.trans h.counters
  cases s
  cases s'
  simp_all

end Represents

end Coop
