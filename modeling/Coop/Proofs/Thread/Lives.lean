import Coop.Proofs.Thread.Slots

/-!
# Lives of threads

The life of a thread is the part of its block that outlasts its moves: whether it
is detached, who is to be woken when it exits, and the code it exited with.  A
handle has a life while it resolves.  A change of the table changes the life of
one handle at most, and the statements here say which.
-/

namespace Coop
namespace Thread

/-- The part of a block that its moves do not change. -/
structure Life where
  detached : Bool
  joiner : Option Handle := none
  exitCode : Option Int32 := none
  deriving DecidableEq, Repr

def Block.life {β : Type} (b : Block β) : Life :=
  ⟨b.isDetached, b.joiner, b.exitCode⟩

namespace Table

variable {β : Type} {t : Table β} {slot : Nat} {b : Block β} {h other : Handle}

def life? (t : Table β) (h : Handle) : Option Life :=
  (t.lookup h).map Block.life

theorem life?_of_lookup (hlookup : t.lookup h = some b) : t.life? h = some b.life := by
  rw [life?, hlookup]
  rfl

/-!
# Changing a block
-/

section Modify

variable {f : Block β → Block β}

theorem lookup_modify (hf : ∀ b, (f b).id = b.id) (slot : Nat) (h : Handle) :
    (t.modify slot f).lookup h = if h.slot = slot then (t.lookup h).map f else t.lookup h := by
  by_cases hslot : h.slot = slot
  · subst hslot
    rw [if_pos rfl, lookup, lookup, get?_modify_same]
    cases t.get? h.slot with
    | none => rfl
    | some b => by_cases hid : b.id = h.id <;> simp [Option.filter, hf, hid]
  · rw [if_neg hslot, lookup, lookup, get?_modify_of_ne t f hslot]

theorem life?_modify_same (hf : ∀ b, (f b).id = b.id) (hlookup : t.lookup h = some b) :
    (t.modify h.slot f).life? h = some (f b).life := by
  rw [life?, lookup_modify hf, if_pos rfl, hlookup]
  rfl

theorem life?_modify_of_ne (hf : ∀ b, (f b).id = b.id) (hlookup : t.lookup h = some b)
    (hne : other ≠ h) : (t.modify h.slot f).life? other = t.life? other := by
  rw [life?, life?, lookup_modify hf]
  by_cases hslot : other.slot = h.slot
  · rw [if_pos hslot, lookup_eq_none_of_ne hlookup hslot hne]
    rfl
  · rw [if_neg hslot]

theorem life?_modify (hf : ∀ b, (f b).id = b.id) (hlife : ∀ b, (f b).life = b.life) (slot : Nat)
    (h : Handle) : (t.modify slot f).life? h = t.life? h := by
  rw [life?, life?, lookup_modify hf]
  split
  · cases t.lookup h with
    | none => rfl
    | some b => exact congrArg some (hlife b)
  · rfl

end Modify

/-!
# Storing and removing a block
-/

theorem life?_remove_same (t : Table β) (h : Handle) : (t.remove h.slot).2.life? h = none := by
  rw [life?, lookup_eq_none_of_get? (by rw [get?_remove, if_pos rfl])]
  rfl

theorem life?_remove_of_ne (hlookup : t.lookup h = some b) (hne : other ≠ h) :
    (t.remove h.slot).2.life? other = t.life? other := by
  by_cases hslot : other.slot = h.slot
  · rw [life?, life?, lookup_eq_none_of_get? (by rw [get?_remove, if_pos hslot]),
      lookup_eq_none_of_ne hlookup hslot hne]
  · rw [life?, life?, lookup, lookup, get?_remove, if_neg hslot]

theorem Packed.life?_nextSlot (ht : t.Packed) (id : Id) : t.life? ⟨t.nextSlot, id⟩ = none := by
  rw [life?, lookup_eq_none_of_get? ht.get?_nextSlot]
  rfl

theorem Packed.life?_insert_same (ht : t.Packed) (b : Block β) :
    (t.insert b).2.life? ⟨t.nextSlot, b.id⟩ = some b.life := by
  apply life?_of_lookup
  apply lookup_eq_some_iff.mpr
  rw [ht.get?_insert, if_pos rfl]
  exact ⟨rfl, rfl⟩

theorem Packed.life?_insert_of_ne (ht : t.Packed) (b : Block β) (hne : other ≠ ⟨t.nextSlot, b.id⟩) :
    (t.insert b).2.life? other = t.life? other := by
  by_cases hslot : other.slot = t.nextSlot
  · have hlookup : (t.insert b).2.lookup ⟨t.nextSlot, b.id⟩ = some b := by
      apply lookup_eq_some_iff.mpr
      rw [ht.get?_insert, if_pos rfl]
      exact ⟨rfl, rfl⟩
    have hvacant : t.get? other.slot = none := by
      rw [hslot]
      exact ht.get?_nextSlot
    rw [life?, life?, lookup_eq_none_of_ne hlookup hslot hne, lookup_eq_none_of_get? hvacant]
  · rw [life?, life?, lookup, lookup, ht.get?_insert, if_neg hslot]

end Table
end Thread
end Coop
