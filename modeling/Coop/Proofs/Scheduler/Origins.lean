import Coop.Proofs.Scheduler.Fates
import Coop.Proofs.Thread.Room

/-!
# Where live threads come from

A thread begins with a bootstrap or with a spawn.  Its identifier, its name and its
stack are its estate: they come with its block, and they stay with it until the
block leaves the table.  So every thread that lives after a step lived before it
with the same estate, or it began with the step.
-/

namespace Coop

open Thread (Block Handle Id Spec Table)

namespace Thread

variable {β : Type}

/-- What a thread has from its beginning, and keeps. -/
structure Estate where
  id : Id
  name : Option String
  stack : Option Stack
  deriving DecidableEq, Repr

def Block.estate (b : Block β) : Estate :=
  ⟨b.id, b.name, b.stack⟩

namespace Table

variable {t t' t'' : Table β}

def Keeps (t t' : Table β) : Prop :=
  ∀ slot, (t'.get? slot).map Block.estate = (t.get? slot).map Block.estate

theorem Keeps.of_get? (h : ∀ slot, t'.get? slot = t.get? slot) : t.Keeps t' :=
  fun slot => congrArg _ (h slot)

theorem Keeps.trans (h : t.Keeps t') (h' : t'.Keeps t'') : t.Keeps t'' :=
  fun slot => (h' slot).trans (h slot)

theorem Keeps.exists_of_get? (h : t.Keeps t') {slot : Nat} {b' : Block β}
    (hget : t'.get? slot = some b') : ∃ b, t.get? slot = some b ∧ b'.estate = b.estate := by
  have hslot := h slot
  rw [hget] at hslot
  rcases Option.map_eq_some_iff.mp hslot.symm with ⟨b, hb, heq⟩
  exact ⟨b, hb, heq.symm⟩

theorem keeps_modify (t : Table β) (slot : Nat) {f : Block β → Block β}
    (hf : ∀ b, (f b).estate = b.estate) : t.Keeps (t.modify slot f) := by
  intro other
  rw [get?_modify]
  split
  · rename_i hother
    rw [hother, Option.map_map]
    exact Option.map_congr fun b _ => hf b
  · rfl

end Table
end Thread

namespace Outline

variable {β : Type} {o o' o'' : Outline β} {h : Handle} {supply : Supply}
  {request : Request β} {result : Except Error (Answer β)}

/-!
# Beginnings
-/

inductive Begins (supply : Supply) (o : Outline β) : Request β → Block β → Prop where
  | main : Begins supply o .bootstrap (.main o.nextId)
  | fresh {spec : Spec} {body : β} {stack : Stack} :
      (o.pool.allocateBytes supply.stack (o.config.stackSize spec.stackSize)).1 = .ok stack →
        Begins supply o (.spawn spec body)
          (Block.fresh o.nextId (o.prepare stack) body spec).ready

theorem Begins.id_eq {b : Block β} (hbegins : o.Begins supply request b) : b.id = o.nextId := by
  cases hbegins <;> rfl

theorem get?_enroll (hpacked : o.table.Packed) (b : Block β) (slot : Nat) :
    (o.enroll b).table.get? slot =
      if slot = o.table.nextSlot then some b.ready else o.table.get? slot := by
  show ((o.table.insert b).2.modify o.table.nextSlot Block.ready).get? slot = _
  rw [Table.get?_modify, hpacked.get?_insert, hpacked.get?_insert, if_pos rfl]
  by_cases hslot : slot = o.table.nextSlot
  · rw [if_pos hslot, if_pos hslot]
    rfl
  · rw [if_neg hslot, if_neg hslot, if_neg hslot]

theorem Step.begins (ho : o.Sound) (hstep : o.Step supply request (.ok (.handle h)) o') :
    h = ⟨o.table.nextSlot, o.nextId⟩ ∧ ∃ b, o.Begins supply request b ∧
      ∀ slot, o'.table.get? slot =
        if slot = o.table.nextSlot then some b else o.table.get? slot := by
  cases hstep with
  | idle hidle => cases hidle
  | bootstrapped hcurrent hroom =>
      have halike := Alike.reserve o supply
      refine ⟨rfl, _, .main, ?_⟩
      intro slot
      rw [← halike.nextSlot, ← halike.get? slot]
      exact (halike.sound ho).packed.get?_insert (.main o.nextId) slot
  | @spawned cur spec body stack hcurrent hroom hstack =>
      have halike :=
        (Alike.reserve o supply).allocate supply (o.config.stackSize spec.stackSize)
      refine ⟨rfl, _, .fresh hstack, ?_⟩
      intro slot
      rw [← halike.nextSlot, ← halike.get? slot]
      exact get?_enroll (halike.sound ho).packed _ slot

theorem Step.lookup_of_handle (ho : o.Sound)
    (hstep : o.Step supply request (.ok (.handle h)) o') :
    ∃ b, o.Begins supply request b ∧ o'.table.lookup h = some b := by
  rcases hstep.begins ho with ⟨rfl, b, hbegins, hget⟩
  refine ⟨b, hbegins, Table.lookup_eq_some_iff.mpr ⟨?_, hbegins.id_eq⟩⟩
  rw [hget, if_pos rfl]

/-!
# Estates are kept
-/

/-- The same threads live with the same estates, and the other stacks stay where they are. -/
structure Keeps (o o' : Outline β) : Prop where
  table : o.table.Keeps o'.table
  size : o'.table.slots.size = o.table.slots.size
  room : o.table.vacantRoom ≤ o'.table.vacantRoom
  limit : o'.table.limit = o.table.limit
  config : o'.config = o.config
  pool : o'.pool = o.pool
  graveyard : o'.graveyard = o.graveyard
  spawned : o'.counters.spawned = o.counters.spawned

namespace Keeps

theorem refl (o : Outline β) : o.Keeps o :=
  ⟨.of_get? fun _ => rfl, rfl, Nat.le_refl _, rfl, rfl, rfl, rfl, rfl⟩

theorem trans (h : o.Keeps o') (h' : o'.Keeps o'') : o.Keeps o'' where
  table := h.table.trans h'.table
  size := h'.size.trans h.size
  room := Nat.le_trans h.room h'.room
  limit := h'.limit.trans h.limit
  config := h'.config.trans h.config
  pool := h'.pool.trans h.pool
  graveyard := h'.graveyard.trans h.graveyard
  spawned := h'.spawned.trans h.spawned

theorem reserve (o : Outline β) (supply : Supply) : o.Keeps (o.reserve supply) where
  table := .of_get? (Alike.reserve o supply).get?
  size := by
    rcases Table.snd_reserve o.table supply.slots supply.vacant with ⟨slotRoom, vacantRoom, hroom⟩
    rw [Outline.reserve, hroom]
  room := o.table.vacantRoom_reserve supply.slots supply.vacant
  limit := by
    rcases Table.snd_reserve o.table supply.slots supply.vacant with ⟨slotRoom, vacantRoom, hroom⟩
    rw [Outline.reserve, hroom]
  config := rfl
  pool := rfl
  graveyard := rfl
  spawned := rfl

/-- A change of a block that its estate does not show. -/
theorem of_modify {slot : Nat} {f : Block β → Block β} (htable : o'.table = o.table.modify slot f)
    (hf : ∀ b, (f b).estate = b.estate) (hconfig : o'.config = o.config) (hpool : o'.pool = o.pool)
    (hgraveyard : o'.graveyard = o.graveyard)
    (hspawned : o'.counters.spawned = o.counters.spawned) : o.Keeps o' := by
  refine ⟨?_, ?_, ?_, ?_, hconfig, hpool, hgraveyard, hspawned⟩
  · rw [htable]
    exact o.table.keeps_modify slot hf
  · rw [htable, Table.size_modify]
  · rw [htable]
    exact Nat.le_refl _
  · rw [htable]
    rfl

theorem modify (o : Outline β) (slot : Nat) {f : Block β → Block β}
    (hf : ∀ b, (f b).estate = b.estate) : o.Keeps (o.modify slot f) :=
  .of_modify rfl hf rfl rfl rfl rfl

theorem makeReady (o : Outline β) (slot : Nat) : o.Keeps (o.makeReady slot) :=
  .of_modify rfl (fun _ => rfl) rfl rfl rfl rfl

theorem dispatch (o : Outline β) (slot : Nat) (rest : List Nat) :
    o.Keeps (o.dispatch slot rest) :=
  .of_modify rfl (fun _ => rfl) rfl rfl rfl rfl

theorem finish (o : Outline β) (slot : Nat) (code : Int32) (joiner : Option Handle) :
    o.Keeps (o.finish slot code joiner) := by
  have hexited : o.Keeps (o.modify slot fun b => b.exit code).countExited :=
    .of_modify rfl (fun _ => rfl) rfl rfl rfl rfl
  cases joiner with
  | none => exact hexited
  | some j => exact hexited.trans (makeReady _ j.slot)

theorem wakeFirst (o : Outline β) (line : Line) : o.Keeps (o.wakeFirst line) := by
  cases hwaiting : o.waiting line with
  | nil =>
      rw [wakeFirst_nil hwaiting]
      exact refl o
  | cons slot rest =>
      rw [wakeFirst_cons hwaiting]
      exact .of_modify rfl (fun _ => rfl) rfl rfl rfl rfl

theorem wakeMany (o : Outline β) (line : Line) (count : Nat) :
    o.Keeps (o.wakeMany line count) := by
  induction count generalizing o with
  | zero => exact refl o
  | succ count ih => exact (wakeFirst o line).trans (ih _)

theorem wakeAll (o : Outline β) (lines : List Line) : o.Keeps (o.wakeAll lines) := by
  induction lines generalizing o with
  | nil => exact refl o
  | cons line lines ih =>
      have hwoken := wakeMany o line (o.waiting line).length
      have hwake : o.Keeps (o.wake line) :=
        ⟨hwoken.table, hwoken.size, hwoken.room, hwoken.limit, hwoken.config, hwoken.pool,
          hwoken.graveyard, hwoken.spawned⟩
      exact hwake.trans (ih _)

end Keeps

theorem Leaves.keeps {cur : Nat} {b : Block β} {o₁ : Outline β}
    (hleaves : Leaves supply o cur b request o₁) :
    o.Keeps o₁ ∨ (∃ code, request = .exit code) ∧ b.isDetached = true ∧
      o₁ = o.bury supply cur b := by
  cases hleaves with
  | yields _ => exact Or.inl (.makeReady o cur)
  | parks => exact Or.inl (.of_modify rfl (fun _ => rfl) rfl rfl rfl rfl)
  | @exits code _ => exact Or.inl (.finish o cur code b.joiner)
  | @vanishes code hdetached => exact Or.inr ⟨⟨code, rfl⟩, hdetached, rfl⟩
  | @awaits handle target _ _ _ _ _ =>
      have hjoined :
          o.Keeps (o.modify handle.slot fun c => { c with joiner := some ⟨cur, b.id⟩ }) :=
        .modify o handle.slot fun _ => rfl
      exact Or.inl (hjoined.trans (.modify _ cur fun _ => rfl))

theorem Step.keeps (hstep : o.Step supply request result o')
    (hresult : ∀ h, result ≠ .ok (.handle h)) :
    o.table.Keeps o'.table ∨ ∃ slot, (o.table.remove slot).2.Keeps o'.table := by
  cases hstep with
  | idle hidle => exact Or.inl (.of_get? hidle.alike.get?)
  | bootstrapped _ _ => exact absurd rfl (hresult _)
  | spawned _ _ _ => exact absurd rfl (hresult _)
  | @took cur b _ _ => exact Or.inl (o.table.keeps_modify cur fun _ => rfl)
  | @switched cur slot rest b c _ o₁ _ _ hleaves _ _ =>
      have hrun : o₁.table.Keeps (o₁.dispatch slot rest).table :=
        (Keeps.dispatch o₁ slot rest).table
      rcases hleaves.keeps with hkeeps | ⟨-, -, rfl⟩
      · exact Or.inl (hkeeps.table.trans hrun)
      · refine Or.inr ⟨cur, ?_⟩
        rw [← table_bury o supply cur b]
        exact hrun
  | delivered _ _ _ _ _ _ => exact Or.inr ⟨_, .of_get? fun _ => by rw [table_reclaim]⟩
  | @detached cur target h _ _ _ _ => exact Or.inl (o.table.keeps_modify h.slot fun _ => rfl)
  | dropped _ _ _ _ => exact Or.inr ⟨_, .of_get? fun _ => by rw [table_reclaim]⟩
  | woken _ => exact Or.inl (Keeps.wakeAll o _).table

theorem Step.origin (ho : o.Sound) (hstep : o.Step supply request result o') {slot : Nat}
    {b' : Block β} (hget : o'.table.get? slot = some b') :
    (∃ b, o.table.get? slot = some b ∧ b'.estate = b.estate) ∨
      result = .ok (.handle ⟨slot, b'.id⟩) ∧ o.Begins supply request b' := by
  by_cases hnew : ∃ h, result = .ok (.handle h)
  · rcases hnew with ⟨h, rfl⟩
    rcases hstep.begins ho with ⟨rfl, b, hbegins, hslots⟩
    rw [hslots] at hget
    by_cases hslot : slot = o.table.nextSlot
    · rw [if_pos hslot] at hget
      injection hget with hget
      subst hget
      exact Or.inr ⟨by rw [hslot, hbegins.id_eq], hbegins⟩
    · rw [if_neg hslot] at hget
      exact Or.inl ⟨b', hget, rfl⟩
  · rcases hstep.keeps fun h hresult => hnew ⟨h, hresult⟩ with hkeeps | ⟨gone, hkeeps⟩
    · exact Or.inl (hkeeps.exists_of_get? hget)
    · rcases hkeeps.exists_of_get? hget with ⟨b, hb, hestate⟩
      rw [Table.get?_remove] at hb
      split at hb
      · cases hb
      · exact Or.inl ⟨b, hb, hestate⟩

end Outline

end Coop
