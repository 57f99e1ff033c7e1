import Mathlib.Data.List.Nodup
import Coop.Thread.Table

/-!
# Slots of the table

A table keeps three accounts of its slots: the slots themselves, the list of the
vacant ones, and the number of the occupied ones.  A packed table is one in
which they agree.  Storing and removing blocks keeps a table packed, and each
changes what one slot shows and nothing else.
-/

namespace Coop
namespace Thread
namespace Table

variable {β : Type}

/-- The three accounts of the slots of a table agree. -/
structure Packed (t : Table β) : Prop where
  vacant_nodup : t.vacant.Nodup
  mem_vacant_iff : ∀ slot, slot ∈ t.vacant ↔ slot < t.slots.size ∧ t.get? slot = none
  live_eq : t.live = t.slots.countP Option.isSome
  live_le : t.live ≤ t.limit

/-!
# Occupied slots
-/

theorem get?_eq_none_of_size_le {t : Table β} {slot : Nat} (h : t.slots.size ≤ slot) :
    t.get? slot = none := by
  simp [get?, Array.getElem?_eq_none h]

theorem lt_size_of_get? {t : Table β} {slot : Nat} {b : Block β} (h : t.get? slot = some b) :
    slot < t.slots.size := by
  by_contra hle
  rw [get?_eq_none_of_size_le (Nat.le_of_not_lt hle)] at h
  cases h

theorem getElem?_of_get? {t : Table β} {slot : Nat} {b : Block β} (h : t.get? slot = some b) :
    t.slots[slot]? = some (some b) := by
  simpa [get?, Option.join_eq_some_iff] using h

theorem isOccupied_eq_true_iff {t : Table β} {slot : Nat} :
    t.isOccupied slot = true ↔ ∃ b, t.get? slot = some b := by
  simp [isOccupied, Option.isSome_iff_exists]

theorem handle?_of_get? {t : Table β} {slot : Nat} {b : Block β} (h : t.get? slot = some b) :
    t.handle? slot = some ⟨slot, b.id⟩ := by
  simp [handle?, h]

theorem lookup_of_get? {t : Table β} {slot : Nat} {b : Block β} (h : t.get? slot = some b) :
    t.lookup ⟨slot, b.id⟩ = some b :=
  lookup_eq_some_iff.mpr ⟨h, rfl⟩

theorem Packed.empty (limit : Nat) : (Table.empty limit : Table β).Packed where
  vacant_nodup := List.nodup_nil
  mem_vacant_iff := by
    intro slot
    simp [Table.empty]
  live_eq := rfl
  live_le := Nat.zero_le _

/-!
# Storing a block
-/

def nextSlot (t : Table β) : Nat :=
  t.vacant.headD t.slots.size

theorem fst_insert (t : Table β) (b : Block β) : (t.insert b).1 = t.nextSlot := by
  unfold insert nextSlot
  cases t.vacant <;> rfl

theorem Packed.get?_nextSlot {t : Table β} (ht : t.Packed) : t.get? t.nextSlot = none := by
  unfold nextSlot
  cases hvacant : t.vacant with
  | nil => exact get?_eq_none_of_size_le (Nat.le_refl _)
  | cons slot rest =>
      have hmem : slot ∈ t.vacant := by
        rw [hvacant]
        exact List.mem_cons_self
      exact ((ht.mem_vacant_iff slot).mp hmem).2

theorem Packed.get?_insert {t : Table β} (ht : t.Packed) (b : Block β) (other : Nat) :
    (t.insert b).2.get? other = if other = t.nextSlot then some b else t.get? other := by
  unfold insert nextSlot
  cases hvacant : t.vacant with
  | nil =>
      by_cases h : other = t.slots.size
      · simp [get?, h]
      · by_cases hlt : other < t.slots.size
        · simp [get?, Array.getElem?_push, h]
        · simp [get?, Array.getElem?_push, h]
  | cons slot rest =>
      have hmem : slot ∈ t.vacant := by
        rw [hvacant]
        exact List.mem_cons_self
      have hlt : slot < t.slots.size := ((ht.mem_vacant_iff slot).mp hmem).1
      by_cases h : other = slot
      · subst h
        simp [get?, hlt]
      · simp [get?, h, Ne.symm h]

theorem limit_insert (t : Table β) (b : Block β) : (t.insert b).2.limit = t.limit := by
  unfold insert
  cases t.vacant <;> rfl

theorem live_insert (t : Table β) (b : Block β) : (t.insert b).2.live = t.live + 1 := by
  unfold insert
  cases t.vacant <;> rfl

theorem Packed.insert {t : Table β} (ht : t.Packed) (hlive : t.live < t.limit) (b : Block β) :
    (t.insert b).2.Packed where
  vacant_nodup := by
    have hnodup := ht.vacant_nodup
    unfold Table.insert
    cases hvacant : t.vacant with
    | nil => simp
    | cons slot rest =>
        rw [hvacant] at hnodup
        exact (List.nodup_cons.mp hnodup).2
  mem_vacant_iff := by
    intro other
    rw [ht.get?_insert b other]
    have hother := ht.mem_vacant_iff other
    have hnodup := ht.vacant_nodup
    unfold Table.insert nextSlot
    cases hvacant : t.vacant with
    | nil =>
        rw [hvacant] at hother
        simp only [List.not_mem_nil, false_iff, not_and, List.headD_nil, Array.size_push]
          at hother ⊢
        intro hlt
        by_cases h : other = t.slots.size
        · simp [h]
        · simpa [h] using hother (by omega)
    | cons slot rest =>
        rw [hvacant] at hother hnodup
        have hslot : slot ∉ rest := (List.nodup_cons.mp hnodup).1
        simp only [List.headD_cons, Array.size_setIfInBounds]
        by_cases h : other = slot
        · subst h
          simp [hslot]
        · simpa [h] using hother
  live_eq := by
    have hlive := ht.live_eq
    unfold Table.insert
    cases hvacant : t.vacant with
    | nil => simp [hlive]
    | cons slot rest =>
        have hmem : slot ∈ t.vacant := by
          rw [hvacant]
          exact List.mem_cons_self
        rcases (ht.mem_vacant_iff slot).mp hmem with ⟨hlt, hnone⟩
        have hget : t.slots[slot] = none := by
          simpa [get?, Array.getElem?_eq_getElem hlt] using hnone
        simp [Array.setIfInBounds, hlt, Array.countP_set, hget, hlive]
  live_le := by
    rw [live_insert, limit_insert]
    exact hlive

/-!
# Removing a block
-/

theorem fst_remove (t : Table β) (slot : Nat) : (t.remove slot).1 = t.get? slot := by
  unfold remove
  cases t.get? slot <;> rfl

theorem limit_remove (t : Table β) (slot : Nat) : (t.remove slot).2.limit = t.limit := by
  unfold remove
  cases t.get? slot <;> rfl

theorem live_remove {t : Table β} {slot : Nat} {b : Block β} (h : t.get? slot = some b) :
    (t.remove slot).2.live = t.live - 1 := by
  simp only [remove, h]

theorem get?_remove (t : Table β) (slot other : Nat) :
    (t.remove slot).2.get? other = if other = slot then none else t.get? other := by
  unfold remove
  cases hslot : t.get? slot with
  | none =>
      by_cases h : other = slot
      · simp [h, hslot]
      · simp [h]
  | some b =>
      have hlt : slot < t.slots.size := lt_size_of_get? hslot
      by_cases h : other = slot
      · subst h
        simp [get?, hlt]
      · simp [get?, h, Ne.symm h]

theorem Packed.remove {t : Table β} (ht : t.Packed) (slot : Nat) : (t.remove slot).2.Packed := by
  cases hslot : t.get? slot with
  | none => simpa [Table.remove, hslot] using ht
  | some b =>
      have hlt : slot < t.slots.size := lt_size_of_get? hslot
      have hvacant : slot ∉ t.vacant := by
        intro hmem
        rw [((ht.mem_vacant_iff slot).mp hmem).2] at hslot
        cases hslot
      have hget : t.slots[slot] = some b := by
        simpa [Array.getElem?_eq_getElem hlt] using getElem?_of_get? hslot
      have hcount : (t.slots.set slot none).countP Option.isSome =
          t.slots.countP Option.isSome - 1 := by
        simp [Array.countP_set, hget]
      constructor
      · simpa [Table.remove, hslot] using And.intro hvacant ht.vacant_nodup
      · intro other
        rw [get?_remove]
        have hother := ht.mem_vacant_iff other
        by_cases h : other = slot
        · simp [Table.remove, hslot, h, hlt]
        · simpa [Table.remove, hslot, h] using hother
      · simpa [Table.remove, hslot, Array.setIfInBounds, hlt, ht.live_eq] using hcount.symm
      · have hle := ht.live_le
        simp only [Table.remove, hslot]
        omega

/-!
# Changing a block, and securing room
-/

theorem size_modify (t : Table β) (slot : Nat) (f : Block β → Block β) :
    (t.modify slot f).slots.size = t.slots.size := by
  simp [modify]

theorem isOccupied_modify (t : Table β) (slot other : Nat) (f : Block β → Block β) :
    (t.modify slot f).isOccupied other = t.isOccupied other := by
  by_cases h : other = slot
  · simp [isOccupied, h]
  · simp [isOccupied, get?_modify, h]

theorem countP_modify_isSome (slots : Array (Option (Block β))) (slot : Nat)
    (f : Block β → Block β) :
    (slots.modify slot (Option.map f)).countP Option.isSome = slots.countP Option.isSome := by
  by_cases h : slot < slots.size
  · have hset : slots.modify slot (Option.map f) = slots.set slot (slots[slot].map f) := by
      apply Array.ext
      · simp
      · intro i h1 h2
        by_cases hi : i = slot
        · simp [Array.getElem_modify, hi]
        · simp [Array.getElem_modify, Array.getElem_set, Ne.symm hi]
    rw [hset, Array.countP_set]
    have hpos : slots[slot].isSome = true → 0 < slots.countP Option.isSome := by
      intro hsome
      exact Array.countP_pos_iff.mpr ⟨slots[slot], Array.getElem_mem h, hsome⟩
    cases hsome : slots[slot] with
    | none => simp
    | some b =>
        have hcount := hpos (by simp [hsome])
        simp
        omega
  · have hid : slots.modify slot (Option.map f) = slots := by
      apply Array.ext
      · simp
      · intro i h1 h2
        have hi : slot ≠ i := by omega
        simp [Array.getElem_modify, hi]
    rw [hid]

theorem Packed.modify {t : Table β} (ht : t.Packed) (slot : Nat) (f : Block β → Block β) :
    (t.modify slot f).Packed where
  vacant_nodup := ht.vacant_nodup
  mem_vacant_iff := by
    intro other
    show other ∈ t.vacant ↔ _
    rw [size_modify, get?_modify]
    have hother := ht.mem_vacant_iff other
    by_cases h : other = slot
    · subst h
      simpa using hother
    · simpa [h] using hother
  live_eq := by
    simpa [Table.modify, countP_modify_isSome] using ht.live_eq
  live_le := ht.live_le

theorem snd_reserve (t : Table β) (slots vacant : Growth) :
    ∃ slotRoom vacantRoom,
      (t.reserve slots vacant).2 = { t with slotRoom := slotRoom, vacantRoom := vacantRoom } := by
  unfold reserve
  split
  · exact ⟨t.slotRoom, t.vacantRoom, rfl⟩
  · split
    · exact ⟨t.slotRoom, t.vacantRoom, rfl⟩
    · cases slots.reserve t.slots.size t.slotRoom 1 with
      | none => exact ⟨t.slotRoom, t.vacantRoom, rfl⟩
      | some slotRoom =>
          cases hvacant : vacant.reserve t.vacant.length t.vacantRoom
              (t.slots.size + 1 - t.vacant.length) with
          | none => exact ⟨slotRoom, t.vacantRoom, by simp [hvacant]⟩
          | some vacantRoom => exact ⟨slotRoom, vacantRoom, by simp [hvacant]⟩

@[simp] theorem get?_reserve (t : Table β) (slots vacant : Growth) (slot : Nat) :
    (t.reserve slots vacant).2.get? slot = t.get? slot := by
  rcases snd_reserve t slots vacant with ⟨slotRoom, vacantRoom, h⟩
  rw [h]
  rfl

theorem live_lt_of_reserve {t : Table β} {slots vacant : Growth}
    (h : (t.reserve slots vacant).1 = .ok ()) :
    (t.reserve slots vacant).2.live < (t.reserve slots vacant).2.limit := by
  rcases snd_reserve t slots vacant with ⟨slotRoom, vacantRoom, hroom⟩
  rw [hroom]
  by_contra hfull
  have hle : t.limit ≤ t.live := Nat.le_of_not_lt hfull
  simp [Table.reserve, hle] at h

/-!
# Counting blocks
-/

theorem nodup_toList_fst (t : Table β) : (t.toList.map Prod.fst).Nodup := by
  have hslots : t.slots.toList.zipIdx.Pairwise fun e e' => e.2 ≠ e'.2 := by
    rw [← List.pairwise_map, List.zipIdx_map_snd]
    exact List.nodup_range'
  refine List.pairwise_map.mpr (List.Pairwise.filterMap _ ?_ hslots)
  intro e e' hne entry hentry entry' hentry'
  simp only [Option.map_eq_some_iff] at hentry hentry'
  rcases hentry with ⟨b, -, rfl⟩
  rcases hentry' with ⟨b', -, rfl⟩
  exact hne

theorem length_eq_countP {t : Table β} {slots : List Nat} {p : Block β → Bool}
    (hnodup : slots.Nodup) (hmem : ∀ slot, slot ∈ slots ↔ ∃ b, t.get? slot = some b ∧ p b = true) :
    slots.length = t.toList.countP fun entry => p entry.2 := by
  have hnodup' : ((t.toList.filter fun entry => p entry.2).map Prod.fst).Nodup :=
    (nodup_toList_fst t).sublist (List.filter_sublist.map Prod.fst)
  have hperm : slots.Perm ((t.toList.filter fun entry => p entry.2).map Prod.fst) := by
    rw [List.perm_ext_iff_of_nodup hnodup hnodup']
    intro slot
    rw [hmem]
    simp [mem_toList]
  rw [hperm.length_eq, List.length_map, List.countP_eq_length_filter]

/-!
# Handles that do not resolve
-/

theorem lookup_eq_none_of_get? {t : Table β} {h : Handle} (hget : t.get? h.slot = none) :
    t.lookup h = none := by
  rw [lookup, hget]
  rfl

theorem lookup_eq_none_of_ne {t : Table β} {h other : Handle} {b : Block β}
    (hlookup : t.lookup h = some b) (hslot : other.slot = h.slot) (hne : other ≠ h) :
    t.lookup other = none := by
  rcases lookup_eq_some_iff.mp hlookup with ⟨hget, hid⟩
  cases hother : t.lookup other with
  | none => rfl
  | some c =>
      rcases lookup_eq_some_iff.mp hother with ⟨hget', hid'⟩
      rw [hslot, hget] at hget'
      injection hget' with hbc
      rcases other with ⟨slot, id⟩
      rcases h with ⟨slot', id'⟩
      simp only at hslot hid hid'
      refine absurd ?_ hne
      rw [hslot, ← hid, ← hid', hbc]

end Table
end Thread
end Coop
