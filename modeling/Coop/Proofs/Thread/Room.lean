import Mathlib.Data.List.Perm.Subperm
import Coop.Proofs.Thread.Slots

/-!
# Room in the table

Room is secured before a block is stored, both for the block and for listing its slot
as vacant later.  So the list of vacant slots has room for every slot there is, and
what the table expects when it stores or removes a block is always true.
-/

namespace Coop
namespace Thread
namespace Table

variable {β : Type} {t : Table β}

def Roomy (t : Table β) : Prop :=
  t.slots.size ≤ t.vacantRoom

/-!
# Securing room
-/

theorem vacantRoom_reserve (t : Table β) (slots vacant : Growth) :
    t.vacantRoom ≤ (t.reserve slots vacant).2.vacantRoom := by
  unfold reserve
  split
  · exact Nat.le_refl _
  · split
    · exact Nat.le_refl _
    · split
      · exact Nat.le_refl _
      · simp only
        split
        · exact Nat.le_refl _
        · exact Growth.room_le_of_reserve ‹_›

theorem fst_reserve_of_granted (t : Table β) {slots vacant : Growth} (hslots : slots ≠ .refused)
    (hvacant : vacant ≠ .refused) :
    (t.reserve slots vacant).1 = if t.limit ≤ t.live then .error .threads else .ok () := by
  unfold reserve
  split
  · rfl
  · split
    · rfl
    · cases hroom : slots.reserve t.slots.size t.slotRoom 1 with
      | none => exact absurd (Growth.reserve_eq_none_iff.mp hroom).2 hslots
      | some slotRoom =>
          simp only
          cases hlisted : vacant.reserve t.vacant.length t.vacantRoom
              (t.slots.size + 1 - t.vacant.length) with
          | none => exact absurd (Growth.reserve_eq_none_iff.mp hlisted).2 hvacant
          | some vacantRoom => rfl

theorem exists_room_of_reserve {slots vacant : Growth} (h : (t.reserve slots vacant).1 = .ok ()) :
    t.vacant ≠ [] ∨ ∃ slotRoom vacantRoom,
      (t.reserve slots vacant).2 = { t with slotRoom := slotRoom, vacantRoom := vacantRoom } ∧
        t.slots.size < slotRoom ∧ t.slots.size < vacantRoom := by
  cases hvacant : t.vacant with
  | cons slot rest => exact Or.inl (List.cons_ne_nil slot rest)
  | nil =>
      refine Or.inr ?_
      unfold reserve at h ⊢
      by_cases hfull : t.limit ≤ t.live
      · rw [if_pos hfull] at h
        cases h
      · simp only [hfull, if_false, hvacant, List.isEmpty_nil, Bool.not_true, Bool.false_eq_true,
          List.length_nil] at h ⊢
        cases hslots : slots.reserve t.slots.size t.slotRoom 1 with
        | none =>
            rw [hslots] at h
            cases h
        | some slotRoom =>
            simp only [hslots] at h ⊢
            cases hlisted : vacant.reserve 0 t.vacantRoom (t.slots.size + 1 - 0) with
            | none =>
                rw [hlisted] at h
                cases h
            | some vacantRoom =>
                have hvacantRoom := Growth.le_of_reserve hlisted
                exact ⟨slotRoom, vacantRoom, rfl, Growth.le_of_reserve hslots, by omega⟩

theorem isReserved_of_reserve {slots vacant : Growth} (h : (t.reserve slots vacant).1 = .ok ()) :
    (t.reserve slots vacant).2.isReserved = true := by
  have hlive := live_lt_of_reserve h
  unfold isReserved
  rw [decide_eq_true hlive, Bool.true_and, Bool.or_eq_true, Bool.and_eq_true]
  rcases exists_room_of_reserve h with hvacant | ⟨slotRoom, vacantRoom, hroom, hslots, hlisted⟩
  · rcases snd_reserve t slots vacant with ⟨slotRoom, vacantRoom, hroom⟩
    rw [hroom]
    exact Or.inl (by simpa using hvacant)
  · rw [hroom]
    exact Or.inr ⟨decide_eq_true hslots, decide_eq_true hlisted⟩

theorem reserveFaults_eq_nil (t : Table β) : t.reserveFaults = [] := by
  unfold reserveFaults
  split
  · rfl
  · rename_i hvacant
    have hnil : t.vacant = [] := by simp at hvacant; exact hvacant.2
    rw [hnil]
    rfl

/-!
# Storing and removing
-/

theorem Roomy.modify (h : t.Roomy) (slot : Nat) (f : Block β → Block β) :
    (t.modify slot f).Roomy := by
  unfold Roomy
  rw [size_modify]
  exact h

theorem Roomy.insert (h : t.Roomy) (hreserved : t.isReserved = true) (b : Block β) :
    (t.insert b).2.Roomy := by
  unfold Roomy at h ⊢
  unfold Table.insert
  cases hvacant : t.vacant with
  | nil =>
      simp only [isReserved, hvacant, List.isEmpty_nil, Bool.not_true, Bool.false_or,
        Bool.and_eq_true, decide_eq_true_eq] at hreserved
      simp only [Array.size_push]
      exact hreserved.2.2
  | cons slot rest =>
      simp only [Array.size_setIfInBounds]
      exact h

theorem Roomy.remove (h : t.Roomy) (slot : Nat) : (t.remove slot).2.Roomy := by
  unfold Roomy at h ⊢
  unfold Table.remove
  cases t.get? slot with
  | none => exact h
  | some b =>
      simp only [Array.size_setIfInBounds]
      exact Nat.le_trans h (Nat.le_max_left _ _)

theorem Packed.insertFaults_eq_nil (ht : t.Packed) (hreserved : t.isReserved = true) :
    t.insertFaults = [] := by
  unfold insertFaults
  rw [hreserved]
  cases hvacant : t.vacant with
  | nil => rfl
  | cons slot rest =>
      have hmem : slot ∈ t.vacant := by
        rw [hvacant]
        exact List.mem_cons_self
      rcases (ht.mem_vacant_iff slot).mp hmem with ⟨hlt, hnone⟩
      simp [Fault.unless, isOccupied, hlt, hnone]

/-- An occupied slot is not listed as vacant, so there are fewer vacant slots than slots. -/
theorem Packed.vacant_length_lt (ht : t.Packed) {slot : Nat} {b : Block β}
    (hget : t.get? slot = some b) : t.vacant.length < t.slots.size := by
  have hslot : slot ∉ t.vacant := by
    intro hmem
    rw [((ht.mem_vacant_iff slot).mp hmem).2] at hget
    cases hget
  have hnodup : (slot :: t.vacant).Nodup := List.nodup_cons.mpr ⟨hslot, ht.vacant_nodup⟩
  have hsub : slot :: t.vacant ⊆ List.range t.slots.size := by
    intro other hother
    rw [List.mem_range]
    rcases List.mem_cons.mp hother with rfl | hvacant
    · exact lt_size_of_get? hget
    · exact ((ht.mem_vacant_iff other).mp hvacant).1
  have hle := (List.Nodup.subperm hnodup hsub).length_le
  rwa [List.length_range] at hle

theorem Packed.live_pos (ht : t.Packed) {slot : Nat} {b : Block β}
    (hget : t.get? slot = some b) : 0 < t.live := by
  rw [ht.live_eq, Array.countP_pos_iff]
  exact ⟨some b, Array.mem_of_getElem? (getElem?_of_get? hget), rfl⟩

theorem Packed.removeFaults_eq_nil (ht : t.Packed) (hroom : t.Roomy) (slot : Nat) :
    t.removeFaults slot = [] := by
  unfold removeFaults
  split
  · rename_i hoccupied
    rcases isOccupied_eq_true_iff.mp hoccupied with ⟨b, hget⟩
    have hlisted := Nat.lt_of_lt_of_le (ht.vacant_length_lt hget) hroom
    simp [Fault.unless, ht.live_pos hget, hlisted]
  · rfl

theorem Packed.live_eq_length (ht : t.Packed) : t.live = t.toList.length := by
  have hlength : ∀ (slots : List (Option (Block β))) (start : Nat),
      ((slots.zipIdx start).filterMap fun entry => entry.1.map fun b => (entry.2, b)).length =
        slots.countP Option.isSome := by
    intro slots
    induction slots with
    | nil => exact fun _ => rfl
    | cons entry rest ih =>
        intro start
        cases entry with
        | none => simp [List.zipIdx_cons, ih]
        | some b => simp [List.zipIdx_cons, ih]
  rw [ht.live_eq, toList, hlength, Array.countP_toList]

end Table
end Thread
end Coop
