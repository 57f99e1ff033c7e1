import Mathlib.Data.List.ReduceOption
import Coop.Bench.Guards

/-!
# Guards restore the flag

Guards need not be dropped in the reverse order of their creation.  A guard that is
dropped early may turn the flag on while others are held, and one that is dropped late
may do nothing.  Still the flag is never lost: if it was on at the start, then it is on
now, or just one of the guards that are held will turn it on.
-/

namespace Coop
namespace Bench

/-- A guard is created or dropped, and the flag is not changed directly. -/
def GuardsStep.isGuarded : GuardsStep → Bool
  | create | drop _ => true
  | enable | disable => false

namespace Guards

def start (cpu : Cpu) : Guards :=
  { cpu }

def held (s : Guards) : List Guard :=
  s.guards.toList.reduceOption

def after (s : Guards) : List GuardsStep → Guards
  | [] => s
  | step :: rest => (step.perform s).2.after rest

/-- A guard may be dropped when none that was created after it is held. -/
def isInnermost (s : Guards) : GuardsStep → Bool
  | .drop k => (s.guards.toList.drop (k + 1)).all Option.isNone
  | _ => true

def isNested (s : Guards) : List GuardsStep → Bool
  | [] => true
  | step :: rest => s.isInnermost step && (step.perform s).2.isNested rest

/-- What becomes of the flag of a processor when only guards change it. -/
structure Restores (cpu : Cpu) (steps : List GuardsStep) : Prop where
  restored : ((start cpu).after steps).held = [] →
    ((start cpu).after steps).cpu.enabled = cpu.enabled
  off : cpu.enabled = false → ((start cpu).after steps).cpu.enabled = false
  /-- A flag that was on is off while a guard is held that will turn it on again. -/
  off_iff : cpu.enabled = true → (((start cpu).after steps).cpu.enabled = false ↔
    ∃ guard ∈ ((start cpu).after steps).held, guard.wasEnabled = true)
  unique : ((start cpu).after steps).held.countP Guard.wasEnabled ≤ 1
  /-- Guards that are nested mask interrupts as long as one of them is held. -/
  nested : (start cpu).isNested steps = true → ((start cpu).after steps).held ≠ [] →
    ((start cpu).after steps).cpu.enabled = false

/-- What creating or dropping a guard does to the processor and to the guards that are held. -/
inductive Changes (s : Guards) : GuardsStep → Guards → Prop where
  | created {s' : Guards} : s'.held = s.held ++ [⟨s.cpu.enabled⟩] → s'.cpu = s.cpu.disable →
      Changes s .create s'
  | dropped {s' : Guards} {k : Nat} {guard : Guard} {earlier later : List Guard} :
      s.held = earlier ++ guard :: later → s'.held = earlier ++ later →
        s'.cpu = guard.drop s.cpu → (s.isInnermost (.drop k) = true → later = []) →
          Changes s (.drop k) s'
  | missed {k : Nat} : Changes s (.drop k) s

variable {s s' : Guards} {cpu : Cpu} {step : GuardsStep}

theorem changes_drop (s : Guards) (k : Nat) :
    s.Changes (.drop k) ((GuardsStep.drop k).perform s).2 := by
  simp only [GuardsStep.perform]
  cases hguard : s.guards[k]?.join with
  | none => exact .missed
  | some guard =>
      rw [Option.join_eq_some_iff, ← Array.getElem?_toList] at hguard
      rcases List.getElem?_eq_some_iff.mp hguard with ⟨hlt, hget⟩
      have hsplit : s.guards.toList =
          s.guards.toList.take k ++ some guard :: s.guards.toList.drop (k + 1) := by
        rw [← hget, List.getElem_cons_drop, List.take_append_drop]
      have hheld : s.held = (s.guards.toList.take k).reduceOption ++
          guard :: (s.guards.toList.drop (k + 1)).reduceOption := by
        rw [held, ← List.reduceOption_cons_of_some, ← List.reduceOption_append, ← hsplit]
      apply Changes.dropped hheld
      · rw [held, Array.toList_setIfInBounds, List.set_eq_take_append_cons_drop, if_pos hlt,
          List.reduceOption_append, List.reduceOption_cons_of_none]
      · rfl
      · intro hinnermost
        rw [List.reduceOption, List.filterMap_eq_nil_iff]
        intro entry hentry
        exact Option.isNone_iff_eq_none.mp (List.all_eq_true.mp hinnermost entry hentry)

theorem changes_perform (s : Guards) (hguarded : step.isGuarded = true) :
    s.Changes step (step.perform s).2 := by
  cases step with
  | create =>
      refine .created ?_ rfl
      show (s.guards.push (some ⟨s.cpu.enabled⟩)).toList.reduceOption = _
      rw [Array.toList_push, List.reduceOption_append]
      rfl
  | drop k => exact s.changes_drop k
  | enable => cases hguarded
  | disable => cases hguarded

/-!
# The flag is never lost
-/

/-- That the flag is on at the end is owed by the flag itself, or by one guard that is held. -/
structure Conserves (cpu : Cpu) (s : Guards) : Prop where
  maskable : s.cpu.maskable = true
  total : s.held.countP Guard.wasEnabled + s.cpu.enabled.toNat = cpu.enabled.toNat

namespace Conserves

theorem start (hmaskable : cpu.maskable = true) : Conserves cpu (start cpu) where
  maskable := hmaskable
  total := Nat.zero_add _

theorem changes (h : Conserves cpu s) (hchanges : s.Changes step s') : Conserves cpu s' := by
  have htotal := h.total
  cases hchanges with
  | created hheld hcpu =>
      constructor
      · rw [hcpu]
        exact h.maskable
      · -- the flag goes off, and the new guard remembers what it was
        rw [hheld, hcpu, Cpu.enabled_disable h.maskable, List.countP_append]
        cases henabled : s.cpu.enabled <;> simpa [henabled] using htotal
  | @dropped s' k guard earlier later hheld hheld' hcpu _ =>
      constructor
      · rw [hcpu, Guard.maskable_drop]
        exact h.maskable
      · rw [hheld, List.countP_append, List.countP_cons] at htotal
        rw [hheld', hcpu, Guard.enabled_drop, List.countP_append]
        have hle := Bool.toNat_le cpu.enabled
        cases hwas : guard.wasEnabled with
        | false => simpa [hwas] using htotal
        | true =>
            -- the guard was the only one, so the flag was off
            simp only [hwas, if_true] at htotal
            simp only [Bool.true_or, Bool.toNat_true]
            cases henabled : s.cpu.enabled <;> simp [henabled] at htotal <;> omega
  | missed => exact h

theorem after {steps : List GuardsStep} (h : Conserves cpu s)
    (hguarded : ∀ step ∈ steps, step.isGuarded = true) : Conserves cpu (s.after steps) := by
  induction steps generalizing s with
  | nil => exact h
  | cons step rest ih =>
      have hfirst := h.changes (s.changes_perform (hguarded step List.mem_cons_self))
      exact ih hfirst fun later hlater => hguarded later (List.mem_cons_of_mem _ hlater)

end Conserves

/-!
# Guards that are nested
-/

/-- The flag is off while a guard is held, so only the oldest one can have found it on. -/
structure Stacked (s : Guards) : Prop where
  maskable : s.cpu.maskable = true
  off : s.held ≠ [] → s.cpu.enabled = false
  later : ∀ guard ∈ s.held.tail, guard.wasEnabled = false

namespace Stacked

theorem start (hmaskable : cpu.maskable = true) : (start cpu).Stacked where
  maskable := hmaskable
  off := fun hheld => absurd rfl hheld
  later := fun _ hguard => absurd hguard List.not_mem_nil

theorem changes (h : s.Stacked) (hchanges : s.Changes step s')
    (hinnermost : s.isInnermost step = true) : s'.Stacked := by
  cases hchanges with
  | created hheld hcpu =>
      constructor
      · rw [hcpu]
        exact h.maskable
      · intro _
        rw [hcpu, Cpu.enabled_disable h.maskable]
      · rw [hheld]
        intro guard hguard
        cases hs : s.held with
        | nil =>
            rw [hs] at hguard
            cases hguard
        | cons oldest rest =>
            have hoff := h.off (by rw [hs]; exact List.cons_ne_nil _ _)
            rw [hs, List.cons_append, List.tail_cons, List.mem_append, List.mem_singleton] at hguard
            rcases hguard with hrest | rfl
            · exact h.later guard (by rw [hs]; exact hrest)
            · exact hoff
  | @dropped s' k guard earlier later hheld hheld' hcpu hlast =>
      rw [hlast hinnermost] at hheld
      rw [hlast hinnermost, List.append_nil] at hheld'
      have hoff := h.off (by rw [hheld]; simp)
      have hlater := h.later
      rw [hheld] at hlater
      constructor
      · rw [hcpu, Guard.maskable_drop]
        exact h.maskable
      · intro hne
        rw [hheld'] at hne
        -- another guard is older, so this one found the flag off
        have hwas : guard.wasEnabled = false := by
          refine hlater guard ?_
          rw [List.tail_append_of_ne_nil hne]
          exact List.mem_append_right _ List.mem_cons_self
        rw [hcpu, Guard.enabled_drop, hwas, hoff]
        rfl
      · rw [hheld']
        intro other hother
        refine hlater other ?_
        rw [List.tail_append_of_ne_nil (List.ne_nil_of_mem (List.mem_of_mem_tail hother))]
        exact List.mem_append_left _ hother
  | missed => exact h

theorem after {steps : List GuardsStep} (h : s.Stacked)
    (hguarded : ∀ step ∈ steps, step.isGuarded = true) (hnested : s.isNested steps = true) :
    (s.after steps).Stacked := by
  induction steps generalizing s with
  | nil => exact h
  | cons step rest ih =>
      rw [isNested, Bool.and_eq_true] at hnested
      have hfirst := h.changes (s.changes_perform (hguarded step List.mem_cons_self)) hnested.1
      exact ih hfirst (fun later hlater => hguarded later (List.mem_cons_of_mem _ hlater)) hnested.2

end Stacked

/--
However guards are created and dropped, the flag is as it was at the start when none of
them is held, and meanwhile it is off for the sake of just one of them, or not at all.
-/
theorem restores_of_isGuarded (cpu : Cpu) (steps : List GuardsStep)
    (hmaskable : cpu.maskable = true) (hguarded : ∀ step ∈ steps, step.isGuarded = true) :
    Restores cpu steps := by
  have hconserves := (Conserves.start hmaskable).after hguarded
  have htotal := hconserves.total
  have hle := Bool.toNat_le cpu.enabled
  constructor
  case restored =>
    intro hheld
    rw [hheld, List.countP_nil, Nat.zero_add] at htotal
    cases hcpu : cpu.enabled with
    | false => exact Bool.toNat_eq_zero.mp (by rw [htotal, hcpu, Bool.toNat_false])
    | true => exact Bool.toNat_eq_one.mp (by rw [htotal, hcpu, Bool.toNat_true])
  case off =>
    intro hoff
    rw [hoff, Bool.toNat_false, Nat.add_eq_zero_iff] at htotal
    exact Bool.toNat_eq_zero.mp htotal.2
  case off_iff =>
    intro hon
    rw [hon, Bool.toNat_true] at htotal
    rw [← List.countP_pos_iff, ← Bool.toNat_eq_zero]
    omega
  case unique => omega
  case nested =>
    intro hnested
    exact ((Stacked.start hmaskable).after hguarded hnested).off

/-- The first guard is dropped first, and a third one is created while the second is held. -/
def outOfOrder : List GuardsStep :=
  [.create, .create, .drop 0, .create, .drop 1, .drop 2]

theorem restores_outOfOrder :
    (({} : Cpu).maskable = true ∧ ∀ step ∈ outOfOrder, step.isGuarded = true) ∧
      Restores {} outOfOrder :=
  ⟨⟨rfl, by decide⟩, restores_of_isGuarded {} outOfOrder rfl (by decide)⟩

/-- Out of order, a guard may be held while the flag is on. -/
example : ((start {}).after [.create, .create, .drop 0]).held = [⟨false⟩] ∧
    ((start {}).after [.create, .create, .drop 0]).cpu.enabled = true := by
  decide

end Guards
end Bench
end Coop
