import Mathlib.Algebra.BigOperators.Group.List.Basic
import Mathlib.Algebra.GroupWithZero.Nat
import Coop.Proofs.Thread.Slots

/-!
# Totals over live blocks

The live blocks of a table are a list without duplicates.  Storing a block adds one
entry to it, and removing a block takes that one away.  A quantity that each block has
is added up over the list.
-/

namespace Coop
namespace Thread
namespace Table

variable {β : Type} {t : Table β}

/-!
# The live blocks as a list
-/

theorem nodup_toList (t : Table β) : t.toList.Nodup :=
  List.Nodup.of_map Prod.fst (nodup_toList_fst t)

theorem toList_perm_cons {t' : Table β} {slot : Nat} {b : Block β} (hvacant : t.get? slot = none)
    (h : ∀ other, t'.get? other = if other = slot then some b else t.get? other) :
    t'.toList.Perm ((slot, b) :: t.toList) := by
  have hnew : (slot, b) ∉ t.toList := by
    simp [mem_toList, hvacant]
  have hnodup : ((slot, b) :: t.toList).Nodup := List.nodup_cons.mpr ⟨hnew, nodup_toList t⟩
  rw [List.perm_ext_iff_of_nodup (nodup_toList t') hnodup]
  rintro ⟨other, c⟩
  rw [mem_toList, h, List.mem_cons, mem_toList, Prod.mk.injEq]
  by_cases hother : other = slot
  · subst hother
    simp [hvacant, eq_comm]
  · simp [hother]

theorem Packed.toList_insert (ht : t.Packed) (b : Block β) :
    (t.insert b).2.toList.Perm ((t.nextSlot, b) :: t.toList) :=
  toList_perm_cons ht.get?_nextSlot (ht.get?_insert b)

theorem toList_remove {slot : Nat} {b : Block β} (hget : t.get? slot = some b) :
    t.toList.Perm ((slot, b) :: (t.remove slot).2.toList) := by
  apply toList_perm_cons
  · rw [get?_remove, if_pos rfl]
  · intro other
    rw [get?_remove]
    by_cases hother : other = slot
    · simp [hother, hget]
    · simp [hother]

/-!
# Totals
-/

/-- A quantity of blocks, added up over the live ones. -/
def total (t : Table β) (quantity : Block β → Nat) : Nat :=
  (t.toList.map fun entry => quantity entry.2).sum

end Table
end Thread
end Coop
