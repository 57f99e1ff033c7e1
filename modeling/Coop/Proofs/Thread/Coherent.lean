import Coop.Proofs.Thread.Slots

/-!
# Coherent blocks, and numbered tables

The state of a thread is told by one field of its block and repeated by others:
by a flag, by the line, and by the exit code.  A block is coherent when they all
tell the same.  A table is numbered when the identifiers in it were all given out,
no two of them alike.
-/

namespace Coop
namespace Thread

namespace Block

variable {β : Type} {b : Block β}

structure Coherent (b : Block β) : Prop where
  waiting : b.isWaiting = true ↔ b.state = .blockedOnInterrupt
  line : b.line.isSome = true ↔ b.state = .blockedOnInterrupt
  exitCode : b.exitCode.isSome = true ↔ b.state = .exited
  attached : b.state = .exited → b.isDetached = false
  unjoined : b.isDetached = true → b.joiner = none

theorem Coherent.main (id : Id) : (Block.main id : Block β).Coherent := by
  constructor <;> simp [Block.main, isWaiting]

theorem Coherent.fresh (id : Id) (stack : Stack) (body : β) (spec : Spec) :
    (Block.fresh id stack body spec).Coherent := by
  constructor <;> simp [Block.fresh, isWaiting]

theorem Coherent.withState (h : b.Coherent) {state : State} (hold : b.state ≠ .exited)
    (holdWaits : b.state ≠ .blockedOnInterrupt) (hnew : state ≠ .exited)
    (hnewWaits : state ≠ .blockedOnInterrupt) : ({ b with state } : Block β).Coherent where
  waiting := iff_of_false (fun hw => holdWaits (h.waiting.mp hw)) hnewWaits
  line := iff_of_false (fun hw => holdWaits (h.line.mp hw)) hnewWaits
  exitCode := iff_of_false (fun hw => hold (h.exitCode.mp hw)) hnew
  attached := fun he => absurd he hnew
  unjoined := h.unjoined

theorem Coherent.park (h : b.Coherent) (hstate : b.state ≠ .exited) (line : Line) :
    (b.park line).Coherent where
  waiting := by simp [Block.park, isWaiting]
  line := by simp [Block.park]
  exitCode := iff_of_false (fun hw => hstate (h.exitCode.mp hw)) (by simp [Block.park])
  attached := by simp [Block.park]
  unjoined := h.unjoined

theorem Coherent.wake (h : b.Coherent) (hstate : b.state ≠ .exited) :
    b.unpark.ready.Coherent where
  waiting := by simp [Block.unpark, Block.ready, isWaiting]
  line := by simp [Block.unpark, Block.ready]
  exitCode := iff_of_false (fun hw => hstate (h.exitCode.mp hw)) (by simp [Block.ready])
  attached := by simp [Block.ready]
  unjoined := h.unjoined

theorem Coherent.exit (h : b.Coherent) (hstate : b.state ≠ .blockedOnInterrupt)
    (hattached : b.isDetached = false) (code : Int32) : (b.exit code).Coherent where
  waiting := iff_of_false (fun hw => hstate (h.waiting.mp hw)) (by simp [Block.exit])
  line := iff_of_false (fun hw => hstate (h.line.mp hw)) (by simp [Block.exit])
  exitCode := by simp [Block.exit]
  attached := fun _ => hattached
  unjoined := h.unjoined

theorem Coherent.detach (h : b.Coherent) (hstate : b.state ≠ .exited) (hjoiner : b.joiner = none) :
    b.detach.Coherent where
  waiting := h.waiting
  line := h.line
  exitCode := h.exitCode
  attached := fun he => absurd he hstate
  unjoined := fun _ => hjoiner

theorem Coherent.join (h : b.Coherent) (hattached : b.isDetached = false) (j : Handle) :
    ({ b with joiner := some j } : Block β).Coherent where
  waiting := h.waiting
  line := h.line
  exitCode := h.exitCode
  attached := h.attached
  unjoined := fun hd => absurd hd (by simp [isDetached] at hattached ⊢; simp [hattached])

theorem Coherent.withoutBody (h : b.Coherent) : ({ b with body := none } : Block β).Coherent :=
  ⟨h.waiting, h.line, h.exitCode, h.attached, h.unjoined⟩

end Block

/-!
# Identifiers
-/

namespace Table

variable {β : Type} {t t' : Table β} {nextId : Id}

/-- The identifiers in a table are distinct, and the next one is above all of them. -/
structure Numbered (t : Table β) (nextId : Id) : Prop where
  lt : ∀ {slot b}, t.get? slot = some b → b.id < nextId
  unique : ∀ {slot slot' b b'}, t.get? slot = some b → t.get? slot' = some b' → b.id = b'.id →
    slot = slot'

theorem Numbered.empty (limit : Nat) : (Table.empty limit : Table β).Numbered nextId where
  lt := by simp
  unique := by simp

theorem Numbered.of_ids (h : t.Numbered nextId)
    (hids : ∀ slot b', t'.get? slot = some b' → ∃ b, t.get? slot = some b ∧ b.id = b'.id) :
    t'.Numbered nextId where
  lt := by
    intro slot b' hb'
    rcases hids slot b' hb' with ⟨b, hb, hid⟩
    rw [← hid]
    exact h.lt hb
  unique := by
    intro slot slot' b' c' hb' hc' heq
    rcases hids slot b' hb' with ⟨b, hb, hid⟩
    rcases hids slot' c' hc' with ⟨c, hc, hid'⟩
    exact h.unique hb hc (by rw [hid, hid', heq])

theorem Numbered.modify (h : t.Numbered nextId) (slot : Nat) {f : Block β → Block β}
    (hf : ∀ b, (f b).id = b.id) : (t.modify slot f).Numbered nextId := by
  apply h.of_ids
  intro other b' hb'
  by_cases hother : other = slot
  · subst hother
    rw [get?_modify_same] at hb'
    rcases Option.map_eq_some_iff.mp hb' with ⟨b, hb, rfl⟩
    exact ⟨b, hb, (hf b).symm⟩
  · rw [get?_modify_of_ne t f hother] at hb'
    exact ⟨b', hb', rfl⟩

theorem Numbered.remove (h : t.Numbered nextId) (slot : Nat) :
    (t.remove slot).2.Numbered nextId := by
  apply h.of_ids
  intro other b' hb'
  rw [get?_remove] at hb'
  by_cases hother : other = slot
  · rw [if_pos hother] at hb'
    cases hb'
  · rw [if_neg hother] at hb'
    exact ⟨b', hb', rfl⟩

theorem Numbered.insert (h : t.Numbered nextId) (ht : t.Packed) {b : Block β}
    (hid : b.id = nextId) : (t.insert b).2.Numbered (nextId + 1) where
  lt := by
    intro slot b' hb'
    rw [ht.get?_insert] at hb'
    by_cases hslot : slot = t.nextSlot
    · rw [if_pos hslot] at hb'
      injection hb' with hb'
      rw [← hb', hid]
      exact Nat.lt_succ_self nextId
    · rw [if_neg hslot] at hb'
      exact Nat.lt_succ_of_lt (h.lt hb')
  unique := by
    intro slot slot' b' c' hb' hc' heq
    rw [ht.get?_insert] at hb' hc'
    by_cases hslot : slot = t.nextSlot
    · by_cases hslot' : slot' = t.nextSlot
      · rw [hslot, hslot']
      · rw [if_pos hslot] at hb'
        rw [if_neg hslot'] at hc'
        injection hb' with hb'
        have hlt := h.lt hc'
        rw [← heq, ← hb', hid] at hlt
        exact absurd hlt (Nat.lt_irrefl nextId)
    · by_cases hslot' : slot' = t.nextSlot
      · rw [if_neg hslot] at hb'
        rw [if_pos hslot'] at hc'
        injection hc' with hc'
        have hlt := h.lt hb'
        rw [heq, ← hc', hid] at hlt
        exact absurd hlt (Nat.lt_irrefl nextId)
      · rw [if_neg hslot] at hb'
        rw [if_neg hslot'] at hc'
        exact h.unique hb' hc' heq

theorem Numbered.eq_of_id_eq (h : t.Numbered nextId) {j k : Handle} {b c : Block β}
    (hj : t.lookup j = some b) (hk : t.lookup k = some c) (hid : j.id = k.id) : j = k := by
  rcases lookup_eq_some_iff.mp hj with ⟨hb, hbid⟩
  rcases lookup_eq_some_iff.mp hk with ⟨hc, hcid⟩
  have hslot : j.slot = k.slot := h.unique hb hc (by rw [hbid, hcid, hid])
  rcases j with ⟨slot, id⟩
  rcases k with ⟨slot', id'⟩
  simp only at hslot hid
  rw [hslot, hid]

end Table
end Thread
end Coop
