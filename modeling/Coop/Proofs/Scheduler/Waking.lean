import Mathlib.Algebra.GroupWithZero.Nat
import Mathlib.Order.Fin.Basic
import Coop.Proofs.Scheduler.Moves

/-!
# Waking the waiters of lines

What waking does to the queues, to the blocks and to the counters of an outline,
said for one waiter, then for those of one line, and then for those of several lines.
-/

namespace Coop

open Thread (Block Table)

namespace Thread.Block

variable {β : Type}

def woken (b : Block β) : Block β :=
  b.unpark.ready

theorem woken_woken (b : Block β) : b.woken.woken = b.woken := rfl

end Thread.Block

theorem Request.eq_of_lines? {β : Type} {request : Request β} {lines : List Line}
    (h : request.lines? = some lines) :
    (∃ line, request = .interrupt line ∧ lines = [line]) ∨
      ∃ mask, request = .interrupts mask ∧ lines = mask.lines := by
  cases request with
  | interrupt line =>
      injection h with h
      exact Or.inl ⟨line, rfl, h.symm⟩
  | interrupts mask =>
      injection h with h
      exact Or.inr ⟨mask, rfl, h.symm⟩
  | _ => cases h

namespace Outline

variable {β : Type} (o : Outline β)

/-!
# One line
-/

theorem wakeMany_ready (line : Line) (count : Nat) :
    (o.wakeMany line count).ready = o.ready ++ (o.waiting line).take count := by
  induction count generalizing o with
  | zero => simp [wakeMany]
  | succ count ih =>
      rw [wakeMany, ih]
      cases hwaiting : o.waiting line with
      | nil => simp [wakeFirst_nil hwaiting, hwaiting]
      | cons slot rest => simp [wakeFirst_cons hwaiting]

theorem wakeMany_waiting (line : Line) (count : Nat) :
    (o.wakeMany line count).waiting line = (o.waiting line).drop count := by
  induction count generalizing o with
  | zero => rfl
  | succ count ih =>
      rw [wakeMany, ih]
      cases hwaiting : o.waiting line with
      | nil => simp [wakeFirst_nil hwaiting, hwaiting]
      | cons slot rest => simp [wakeFirst_cons hwaiting]

theorem wakeMany_get? (line : Line) (count slot : Nat) :
    (o.wakeMany line count).table.get? slot =
      (o.table.get? slot).map fun b =>
        if slot ∈ (o.waiting line).take count then b.woken else b := by
  induction count generalizing o with
  | zero => simp [wakeMany]
  | succ count ih =>
      rw [wakeMany, ih]
      cases hwaiting : o.waiting line with
      | nil => simp [wakeFirst_nil hwaiting, hwaiting]
      | cons first rest =>
          simp only [wakeFirst_cons hwaiting, Function.update_self, List.take_succ_cons,
            List.mem_cons, Table.get?_modify]
          cases hslot : decide (slot = first) with
          | true =>
              have heq := of_decide_eq_true hslot
              subst heq
              -- waking a thread that was woken changes nothing
              cases o.table.get? slot with
              | none => simp
              | some b =>
                  simp only [if_true, Option.map_some, true_or]
                  split <;> rfl
          | false =>
              have hne := of_decide_eq_false hslot
              simp [hne]

theorem wakeMany_counters (line : Line) (count : Nat) :
    (o.wakeMany line count).counters = o.counters := by
  rcases wakeMany_eq o line count with ⟨slots, ready, waiting, hwoken⟩
  rw [hwoken]

theorem wake_ready (line : Line) : (o.wake line).ready = o.ready ++ o.waiting line := by
  show (o.wakeMany line _).ready = _
  rw [wakeMany_ready, List.take_length]

theorem wake_waiting (line other : Line) :
    (o.wake line).waiting other = if other = line then [] else o.waiting other := by
  show (o.wakeMany line _).waiting other = _
  cases hother : decide (other = line) with
  | true =>
      have heq := of_decide_eq_true hother
      rw [heq, wakeMany_waiting, List.drop_length, if_pos rfl]
  | false =>
      have hne := of_decide_eq_false hother
      rw [wakeMany_waiting_of_ne o hne, if_neg hne]

theorem wake_get? (line : Line) (slot : Nat) :
    (o.wake line).table.get? slot =
      (o.table.get? slot).map fun b => if slot ∈ o.waiting line then b.woken else b := by
  show (o.wakeMany line _).table.get? slot = _
  rw [wakeMany_get?, List.take_length]

/-!
# Several lines
-/

theorem waiters_eq_sum (lines : List Line) :
    o.waiters lines = (lines.map fun line => (o.waiting line).length).sum :=
  List.length_flatMap

theorem wakeAll_cons (line : Line) (lines : List Line) :
    o.wakeAll (line :: lines) = (o.wake line).wakeAll lines := rfl

theorem wakeAll_waiting (lines : List Line) (line : Line) :
    (o.wakeAll lines).waiting line = if line ∈ lines then [] else o.waiting line := by
  induction lines generalizing o with
  | nil => simp [wakeAll]
  | cons first lines ih =>
      rw [wakeAll_cons, ih, wake_waiting]
      simp only [List.mem_cons]
      grind

/-- The waiters join the queue line after line, each line in its order. -/
theorem wakeAll_ready {lines : List Line} (hlines : lines.Nodup) :
    (o.wakeAll lines).ready = o.ready ++ lines.flatMap o.waiting := by
  induction lines generalizing o with
  | nil => simp [wakeAll]
  | cons line lines ih =>
      rcases List.nodup_cons.mp hlines with ⟨hline, hrest⟩
      have hsame : lines.flatMap (o.wake line).waiting = lines.flatMap o.waiting := by
        apply List.flatMap_congr
        intro other hother
        rw [wake_waiting, if_neg]
        rintro rfl
        exact hline hother
      rw [wakeAll_cons, ih _ hrest, wake_ready, hsame, List.flatMap_cons, List.append_assoc]

theorem wakeAll_get? (lines : List Line) (slot : Nat) :
    (o.wakeAll lines).table.get? slot =
      (o.table.get? slot).map fun b =>
        if ∃ line ∈ lines, slot ∈ o.waiting line then b.woken else b := by
  induction lines generalizing o with
  | nil => simp [wakeAll]
  | cons line lines ih =>
      have hothers : (∃ other ∈ lines, slot ∈ (o.wake line).waiting other) ∨ slot ∈ o.waiting line ↔
          ∃ other ∈ line :: lines, slot ∈ o.waiting other := by
        simp only [wake_waiting, List.mem_cons]
        grind
      rw [wakeAll_cons, ih, wake_get?, Option.map_map]
      congr 1
      funext b
      simp only [Function.comp_apply, ← hothers]
      rcases Classical.em (slot ∈ o.waiting line) with hfirst | hfirst
      · simp only [hfirst, or_true, if_true, Block.woken_woken, ite_self]
      · simp only [hfirst, or_false, if_false]

theorem wakeAll_counters {lines : List Line} (hlines : lines.Nodup) :
    (o.wakeAll lines).counters =
      { o.counters with interruptWakeups := o.counters.interruptWakeups + o.waiters lines } := by
  induction lines generalizing o with
  | nil => rfl
  | cons line lines ih =>
      rcases List.nodup_cons.mp hlines with ⟨hline, hrest⟩
      have hfirst : (o.wake line).counters = { o.counters with
          interruptWakeups := o.counters.interruptWakeups + (o.waiting line).length } := by
        simp only [wake, wakeMany_counters]
      have hsum : o.waiters (line :: lines) = (o.waiting line).length + o.waiters lines := by
        rw [waiters, List.flatMap_cons, List.length_append]
        rfl
      rw [wakeAll_cons, ih _ hrest, o.waiters_wake hline, hfirst, hsum, Nat.add_assoc]

end Outline

end Coop
