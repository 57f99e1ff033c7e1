import Mathlib.Data.List.FinRange
import Coop.Proofs.Scheduler.Canonical
import Coop.Proofs.Scheduler.Waking
import Coop.Proofs.Scheduler.WellFormed
import Coop.Proofs.Thread.Arrangements

/-!
# Masks of lines compose

To report two masks one after the other is to report the lines of both, those of
the first mask before those that only the second one has.  The lines of the union
are the same lines in ascending order, so that the same threads are woken, and
all that can differ is the order in which they join the ready queue.
-/

namespace Coop

open Thread (Block Handle Lane Queue Table)

/-!
# The lines of two masks
-/

namespace Mask

theorem pairwise_lines (mask : Mask) : (lines mask).Pairwise (· < ·) :=
  (List.pairwise_lt_finRange 32).filter _

theorem nodup_lines (mask : Mask) : (lines mask).Nodup :=
  (pairwise_lines mask).imp fun hlt => ne_of_lt hlt

def beyond (first second : Mask) : Mask :=
  second &&& ~~~first

theorem has_beyond (first second : Mask) (line : Line) :
    has (beyond first second) line = (has second line && !has first line) := by
  simp [has, beyond]

theorem lines_beyond (first second : Mask) :
    lines (beyond first second) = (lines second).filter fun line => !has first line := by
  unfold lines
  rw [List.filter_filter]
  congr 1
  funext line
  rw [has_beyond, Bool.and_comm]

theorem mem_lines_append_beyond {first second : Mask} {line : Line} :
    line ∈ lines first ++ lines (beyond first second) ↔ line ∈ lines (first ||| second) := by
  rw [List.mem_append, mem_lines, mem_lines, mem_lines, has_beyond, has_or]
  cases has first line <;> simp

theorem nodup_lines_append_beyond (first second : Mask) :
    (lines first ++ lines (beyond first second)).Nodup := by
  refine List.nodup_append.mpr ⟨nodup_lines first, nodup_lines _, ?_⟩
  rintro line hfirst _ hbeyond rfl
  rw [mem_lines] at hfirst hbeyond
  simp [has_beyond, hfirst] at hbeyond

theorem perm_lines_or (first second : Mask) :
    (lines first ++ lines (beyond first second)).Perm (lines (first ||| second)) :=
  (List.perm_ext_iff_of_nodup (nodup_lines_append_beyond first second) (nodup_lines _)).mpr
    fun _ => mem_lines_append_beyond

/-- Every line that only the second mask has is above every line of the first. -/
def Below (first second : Mask) : Prop :=
  ∀ line other, has first line = true → has second other = true → has first other = false →
    line < other

theorem lines_or_of_below {first second : Mask} (h : Below first second) :
    lines first ++ lines (beyond first second) = lines (first ||| second) := by
  refine (perm_lines_or first second).eq_of_pairwise
    (fun a b _ _ (hab : a < b) (hba : b < a) => absurd hba (lt_asymm hab)) ?_ ?_
  · refine List.pairwise_append.mpr ⟨pairwise_lines first, pairwise_lines _, ?_⟩
    intro line hline other hother
    rw [mem_lines] at hline hother
    rw [has_beyond, Bool.and_eq_true, Bool.not_eq_true'] at hother
    exact h line other hline hother.1 hother.2
  · exact pairwise_lines _

end Mask

/-!
# Waking lines in two ways
-/

namespace Outline

variable {β : Type} (o : Outline β)

theorem wake_of_nil {line : Line} (h : o.waiting line = []) : o.wake line = o := by
  simp [wake, wakeMany, h]

theorem wakeAll_append (lines lines' : List Line) :
    o.wakeAll (lines ++ lines') = (o.wakeAll lines).wakeAll lines' :=
  List.foldl_append

theorem wakeAll_filter (p : Line → Bool) {lines : List Line}
    (h : ∀ line ∈ lines, p line = false → o.waiting line = []) :
    o.wakeAll (lines.filter p) = o.wakeAll lines := by
  induction lines generalizing o with
  | nil => rfl
  | cons line lines ih =>
      have hrest : ∀ other ∈ lines, p other = false → o.waiting other = [] := fun other hother =>
        h other (List.mem_cons_of_mem line hother)
      cases hp : p line with
      | true =>
          rw [List.filter_cons_of_pos hp, wakeAll_cons, wakeAll_cons]
          apply ih
          intro other hother hp'
          rw [wake_waiting, hrest other hother hp', ite_self]
      | false =>
          have hline : o.waiting line = [] := h line List.mem_cons_self hp
          rw [List.filter_cons_of_neg (by simp [hp]), wakeAll_cons, o.wake_of_nil hline]
          exact ih o hrest

theorem wakeAll_eq (lines : List Line) :
    ∃ slots ready waiting counters,
      o.wakeAll lines =
        { o with
          table := { o.table with slots := slots }
          ready := ready
          waiting := waiting
          counters := counters } ∧
      slots.size = o.table.slots.size := by
  have hmany : ∀ (o : Outline β) line count,
      (o.wakeMany line count).table.slots.size = o.table.slots.size := by
    intro o line count
    induction count generalizing o with
    | zero => rfl
    | succ count ih =>
        rw [wakeMany, ih]
        cases hwaiting : o.waiting line with
        | nil => rw [wakeFirst_nil hwaiting]
        | cons slot rest =>
            rw [wakeFirst_cons hwaiting]
            exact Table.size_modify o.table slot _
  induction lines generalizing o with
  | nil => exact ⟨o.table.slots, o.ready, o.waiting, o.counters, rfl, rfl⟩
  | cons line lines ih =>
      rcases ih (o.wake line) with ⟨slots, ready, waiting, counters, hwoken, hsize⟩
      have hline : slots.size = o.table.slots.size := hsize.trans (hmany o line _)
      rcases wakeMany_eq o line (o.waiting line).length with ⟨slots', ready', waiting', hwake⟩
      refine ⟨slots, ready, waiting, counters, ?_, hline⟩
      rw [wakeAll_cons, hwoken]
      simp only [wake, hwake]

theorem waiters_perm {lines lines' : List Line} (h : lines.Perm lines') :
    o.waiters lines = o.waiters lines' :=
  (h.flatMap_right o.waiting).length_eq

/-- The order of the lines matters to the ready queue alone. -/
theorem wakeAll_perm {lines lines' : List Line} (hperm : lines.Perm lines')
    (hlines : lines.Nodup) :
    o.wakeAll lines' = { o.wakeAll lines with ready := o.ready ++ lines'.flatMap o.waiting } := by
  have hlines' : lines'.Nodup := hperm.nodup_iff.mp hlines
  have hready := o.wakeAll_ready hlines'
  have hwaiting : (o.wakeAll lines').waiting = (o.wakeAll lines).waiting := by
    funext line
    simp only [wakeAll_waiting, hperm.mem_iff]
  have hcounters : (o.wakeAll lines').counters = (o.wakeAll lines).counters := by
    rw [o.wakeAll_counters hlines, o.wakeAll_counters hlines', o.waiters_perm hperm]
  have hget : ∀ slot, (o.wakeAll lines').table.get? slot = (o.wakeAll lines).table.get? slot := by
    intro slot
    simp only [wakeAll_get?, hperm.mem_iff]
  rcases o.wakeAll_eq lines with ⟨slots, ready, waiting, counters, h, hsize⟩
  rcases o.wakeAll_eq lines' with ⟨slots', ready', waiting', counters', h', hsize'⟩
  rw [h, h'] at hwaiting hcounters hget
  rw [h'] at hready
  have hslots := Table.slots_ext (hsize'.trans hsize.symm) hget
  rw [h, h']
  simp only at hready hwaiting hcounters hslots ⊢
  rw [hready, hwaiting, hcounters, hslots]

/-!
# Waking two masks of lines
-/

/-- After the first mask, the second one has no line left to wake but those of its own. -/
theorem wakeAll_wakeAll (first second : Mask) :
    (o.wakeAll (Mask.lines first)).wakeAll (Mask.lines second) =
      o.wakeAll (Mask.lines first ++ Mask.lines (Mask.beyond first second)) := by
  rw [wakeAll_append, Mask.lines_beyond, wakeAll_filter]
  intro line _ hline
  rw [wakeAll_waiting, if_pos]
  simpa [Mask.mem_lines] using hline

theorem flatMap_wakeAll (first second : Mask) :
    (Mask.lines second).flatMap (o.wakeAll (Mask.lines first)).waiting =
      (Mask.lines (Mask.beyond first second)).flatMap o.waiting := by
  rw [Mask.lines_beyond]
  induction Mask.lines second with
  | nil => rfl
  | cons line lines ih =>
      rw [List.flatMap_cons, ih, wakeAll_waiting]
      cases hline : Mask.has first line with
      | true => simp [Mask.mem_lines, hline]
      | false => simp [Mask.mem_lines, hline]

end Outline

/-!
# Schedulers without the order of their ready threads
-/

namespace Thread.Table

variable {β : Type} {t : Table β} {lane : Lane}

/-- The table with the links of a lane blank. -/
def unlink (t : Table β) (lane : Lane) : Table β :=
  { t with slots := t.slots.map (Option.map fun b => b.setLink lane {}) }

theorem get?_unlink (t : Table β) (lane : Lane) (slot : Nat) :
    (t.unlink lane).get? slot = (t.get? slot).map fun b => b.setLink lane {} := by
  simp only [get?, unlink, Array.getElem?_map]
  cases t.slots[slot]? <;> rfl

theorem bare_unlink (t : Table β) (lane : Lane) : (t.unlink lane).bare = t.bare := by
  have hslots : (t.unlink lane).bare.slots = t.bare.slots := by
    apply slots_ext
    · simp [bare, unlink]
    · intro slot
      rw [get?_bare, get?_bare, get?_unlink, Option.map_map]
      congr 1
      funext b
      exact b.bare_setLink lane {}
  show ({ t with slots := (t.unlink lane).bare.slots } : Table β) = t.bare
  rw [hslots]
  rfl

theorem link_unlink_same (slot : Nat) : (t.unlink lane).link lane slot = {} := by
  simp only [link, get?_unlink]
  cases t.get? slot <;> simp

theorem link_unlink_of_ne {lane' : Lane} (h : lane' ≠ lane) (slot : Nat) :
    (t.unlink lane).link lane' slot = t.link lane' slot := by
  simp only [link, get?_unlink]
  cases t.get? slot with
  | none => rfl
  | some b => exact Block.link_setLink_of_ne b _ h

end Thread.Table

namespace Scheduler

variable {β : Type}

/-- The scheduler with its ready queue forgotten, and the links that were its order. -/
def unordered (s : Scheduler β) : Scheduler β :=
  { s with ready := {}, table := s.table.unlink .ready }

end Scheduler

namespace Represents

variable {β : Type} {s s' : Scheduler β} {o : Outline β}

theorem unordered (h : Represents s o) : Represents s.unordered { o with ready := [] } where
  config := h.config
  table := h.table.trans (s.table.bare_unlink .ready).symm
  ready := by
    constructor
    · exact fun _ => .nil _
    · exact fun _ _ => rfl
    · intro slot _
      exact congrArg Thread.Link.linked (Table.link_unlink_same slot)
  waiting := h.waiting.congr fun slot => Table.link_unlink_of_ne (by decide) slot
  tidy lane := by
    cases lane with
    | ready => exact fun slot _ => Table.link_unlink_same slot
    | wait => exact (h.tidy .wait).congr fun slot => Table.link_unlink_of_ne (by decide) slot
  pool := h.pool
  current := h.current
  nextId := h.nextId
  graveyard := h.graveyard
  counters := h.counters

theorem unordered_eq {ready : List Nat} (h : Represents s o)
    (h' : Represents s' { o with ready := ready }) : s'.unordered = s.unordered :=
  h.unordered.unique h'.unordered

end Represents

/-!
# Masks compose
-/

namespace Scheduler

variable {β : Type}

def queued (s : Scheduler β) : List Nat :=
  s.ready.toList s.table

def parkedOn (s : Scheduler β) (line : Line) : List Nat :=
  (s.waits.bucket line).toList s.table

def parkedIn (s : Scheduler β) (mask : Mask) : List Nat :=
  (Mask.lines mask).flatMap s.parkedOn

def fired (s : Scheduler β) (mask : Mask) : Scheduler β :=
  (s.interrupts mask).scheduler

/-- How two masks reported one after the other compare with their union. -/
structure Composes (s : Scheduler β) (first second : Mask) : Prop where
  counts : ∃ count more, (s.interrupts first).result = .ok count ∧
    ((s.fired first).interrupts second).result = .ok more ∧
    (s.interrupts (first ||| second)).result = .ok (count + more)
  /-- Buckets, counters and blocks are the same, up to the ready queue and its links. -/
  unordered : ((s.fired first).fired second).unordered = (s.fired (first ||| second)).unordered
  permuted : ∃ tail tail',
    ((s.fired first).fired second).ready.Visits ((s.fired first).fired second).table
      (s.queued ++ tail) ∧
    (s.fired (first ||| second)).ready.Visits (s.fired (first ||| second)).table
      (s.queued ++ tail') ∧
    tail.Perm tail'
  ordered : Mask.Below first second → (s.fired first).fired second = s.fired (first ||| second)

structure ComposesMasks (s : Scheduler β) : Prop where
  queue : s.ready.Visits s.table s.queued
  buckets : ∀ line, (s.waits.bucket line).Visits s.table (s.parkedOn line)
  count : ∀ mask, (s.interrupts mask).result = .ok (s.parkedIn mask).length
  /-- The bucket of each line joins the ready queue as it is, lowest line first. -/
  tail : ∀ mask, (s.fired mask).ready.Visits (s.fired mask).table (s.queued ++ s.parkedIn mask)
  composes : ∀ first second, s.Composes first second
  again : ∀ mask, ((s.fired mask).interrupts mask).result = .ok 0 ∧
    (s.fired mask).fired mask = s.fired mask

namespace Shaped

variable {s : Scheduler β} {o : Outline β}

theorem queued_eq (h : s.Shaped o) : s.queued = o.ready :=
  (h.1.ready.holds ()).toList_eq

theorem parkedOn_eq (h : s.Shaped o) : s.parkedOn = o.waiting := by
  funext line
  exact (h.1.waiting.holds line).toList_eq

theorem parkedIn_eq (h : s.Shaped o) (mask : Mask) :
    s.parkedIn mask = (Mask.lines mask).flatMap o.waiting := by
  rw [parkedIn, h.parkedOn_eq]

theorem visits (h : s.Shaped o) : s.ready.Visits s.table o.ready :=
  (h.1.ready.holds ()).visits

theorem interrupts (h : s.Shaped o) (mask : Mask) :
    (s.interrupts mask).result = .ok (o.waiters (Mask.lines mask)) ∧
      (s.fired mask).Shaped (o.wakeAll (Mask.lines mask)) := by
  rcases Represents.fireAll (w := s.work) h.1 h.2.toOrderly (Mask.lines mask)
    (Mask.nodup_lines mask) with ⟨hcount, hfired⟩
  exact ⟨congrArg Except.ok hcount, hfired, h.2.wakeAll _⟩

theorem fired_fired (h : s.Shaped o) (first second : Mask) :
    ((s.fired first).fired second).Shaped
      (o.wakeAll (Mask.lines first ++ Mask.lines (Mask.beyond first second))) := by
  rw [← o.wakeAll_wakeAll first second]
  exact ((h.interrupts first).2.interrupts second).2

theorem composes (h : s.Shaped o) (first second : Mask) : s.Composes first second := by
  have hboth := h.fired_fired first second
  have hunion := (h.interrupts (first ||| second)).2
  have hperm := Mask.perm_lines_or first second
  constructor
  · refine ⟨_, _, (h.interrupts first).1, ((h.interrupts first).2.interrupts second).1, ?_⟩
    have hsum : o.waiters (Mask.lines (first ||| second)) =
        o.waiters (Mask.lines first) +
          (o.wakeAll (Mask.lines first)).waiters (Mask.lines second) := by
      rw [← o.waiters_perm hperm]
      unfold Outline.waiters
      rw [o.flatMap_wakeAll, List.flatMap_append, List.length_append]
    rw [← hsum]
    exact (h.interrupts (first ||| second)).1
  · have hsame := o.wakeAll_perm hperm.symm (Mask.nodup_lines _)
    rw [hsame] at hboth
    exact hunion.1.unordered_eq hboth.1
  · have hvisits := hboth.visits
    have hvisits' := hunion.visits
    rw [o.wakeAll_ready (Mask.nodup_lines_append_beyond first second), ← h.queued_eq] at hvisits
    rw [o.wakeAll_ready (Mask.nodup_lines _), ← h.queued_eq] at hvisits'
    exact ⟨_, _, hvisits, hvisits', hperm.flatMap_right o.waiting⟩
  · intro hbelow
    rw [Mask.lines_or_of_below hbelow] at hboth
    exact hunion.1.unique hboth.1

theorem composesMasks (h : s.Shaped o) : s.ComposesMasks where
  queue := by
    rw [h.queued_eq]
    exact h.visits
  buckets line := by
    rw [h.parkedOn_eq]
    exact (h.1.waiting.holds line).visits
  count mask := by
    rw [h.parkedIn_eq]
    exact (h.interrupts mask).1
  tail mask := by
    have hvisits := (h.interrupts mask).2.visits
    rwa [o.wakeAll_ready (Mask.nodup_lines mask), ← h.queued_eq, ← h.parkedIn_eq] at hvisits
  composes := h.composes
  again mask := by
    rcases (h.interrupts mask).2.interrupts mask with ⟨hcount, hagain⟩
    have hnone : Mask.lines (Mask.beyond mask mask) = [] := by
      simp [Mask.lines, Mask.has_beyond]
    constructor
    · rw [hcount, Outline.waiters, o.flatMap_wakeAll, hnone]
      rfl
    · rw [o.wakeAll_wakeAll, hnone, List.append_nil] at hagain
      exact (h.interrupts mask).2.1.unique hagain.1

end Shaped

/-- Masks compose in every reachable scheduler. -/
theorem composesMasks_create (config : Config) (requests : List (Request β × Supply)) :
    ((create config : Scheduler β).after requests).ComposesMasks := by
  rcases (shaped_create config).after requests with ⟨o, h⟩
  exact h.composesMasks

/-- One thread waits on line 7 and another one on line 0: the tail is permuted. -/
example :
    let s : Scheduler Unit := (create {}).after
      [(.bootstrap, .ample), (.spawn {} (), .ample), (.spawn {} (), .ample), (.yield, .ample),
        (.wait 7, .ample), (.wait 0, .ample)]
    ((s.fired (Line.mask 7)).fired (Line.mask 0)).queued = [1, 2] ∧
      (s.fired (Line.mask 7 ||| Line.mask 0)).queued = [2, 1] := by
  decide

end Scheduler

end Coop
