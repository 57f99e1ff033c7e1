import Coop.Proofs.Recency
import Coop.Proofs.Thread.Room

/-!
# Tables are slabs

A table is used in runs in which every block is stored right after room was secured for
it; which slots are cleared, and how often, does not matter.  Over every such run the
table gives a new block the slot that was vacated last and is still vacant, or else a
slot of its own, and a slot is never given to two blocks.
-/

namespace Coop
namespace Thread
namespace Table

variable {β : Type}

/-!
# Runs of a table
-/

inductive Use (β : Type) where
  | reserve (slots vacant : Growth)
  | insert (b : Block β)
  | remove (slot : Nat)
  | modify (slot : Nat) (f : Block β → Block β)

def Use.isInsert : Use β → Bool
  | insert _ => true
  | _ => false

def use (t : Table β) : Use β → Table β
  | .reserve slots vacant => (t.reserve slots vacant).2
  | .insert b => (t.insert b).2
  | .remove slot => (t.remove slot).2
  | .modify slot f => t.modify slot f

def secures (t : Table β) : Use β → Bool
  | .reserve slots vacant => (t.reserve slots vacant).1.isOk
  | _ => false

def vacates (t : Table β) : Use β → List Nat
  | .remove slot => if t.isOccupied slot then [slot] else []
  | _ => []

/-- Every block is stored right after room was secured; `secured` tells whether it just was. -/
def isPrudent (t : Table β) (secured : Bool) : List (Use β) → Bool
  | [] => true
  | u :: rest => (!u.isInsert || secured) && (t.use u).isPrudent (t.secures u) rest

def afterUses (t : Table β) : List (Use β) → Table β
  | [] => t
  | u :: rest => (t.use u).afterUses rest

/-- The slots that blocks were taken out of, the latest first. -/
def vacated (t : Table β) : List (Use β) → List Nat
  | [] => []
  | u :: rest => (t.use u).vacated rest ++ t.vacates u

def isVacant (t : Table β) (slot : Nat) : Bool :=
  slot < t.slots.size && !t.isOccupied slot

/-!
# What makes a table a slab
-/

structure Stores (t : Table β) (vacated : List Nat) (b : Block β) (slot : Nat) (t' : Table β) :
    Prop where
  latest : slot = (vacated.find? t.isVacant).getD t.slots.size
  vacant : t.get? slot = none
  get? : ∀ other, t'.get? other = if other = slot then some b else t.get? other

structure Clears (t : Table β) (slot : Nat) (b? : Option (Block β)) (t' : Table β) : Prop where
  block : b? = t.get? slot
  get? : ∀ other, t'.get? other = if other = slot then none else t.get? other
  unchanged : t.get? slot = none → t' = t

structure IsSlab (t : Table β) (limit : Nat) (vacated : List Nat) : Prop where
  count_vacant : ∀ slot, t.vacant.count slot = if t.isVacant slot then 1 else 0
  live_eq : t.live = t.slots.countP Option.isSome
  limit_eq : t.limit = limit
  live_le : t.live ≤ limit
  size_le : t.slots.size ≤ limit
  refuses : ∀ slots vacant, (t.reserve slots vacant).1 = .error .threads ↔ limit ≤ t.live
  stores : ∀ slots vacant b, (t.reserve slots vacant).1 = .ok () →
    (t.reserve slots vacant).2.Stores vacated b ((t.reserve slots vacant).2.insert b).1
      ((t.reserve slots vacant).2.insert b).2
  clears : ∀ slot, t.Clears slot (t.remove slot).1 (t.remove slot).2
  lookup : ∀ h b, t.lookup h = some b ↔ t.get? h.slot = some b ∧ b.id = h.id
  ordered : t.toList.Pairwise fun entry later => entry.1 < later.1
  listed : ∀ slot b, (slot, b) ∈ t.toList ↔ t.get? slot = some b

/-!
# Vacant slots
-/

variable {t : Table β} {limit slot : Nat} {past : List Nat}

theorem isVacant_eq_true_iff :
    t.isVacant slot = true ↔ slot < t.slots.size ∧ t.get? slot = none := by
  simp [isVacant, isOccupied]

theorem Packed.isVacant_iff (ht : t.Packed) (slot : Nat) :
    t.isVacant slot = true ↔ slot ∈ t.vacant := by
  rw [isVacant_eq_true_iff, ht.mem_vacant_iff]

theorem Packed.count_vacant (ht : t.Packed) (slot : Nat) :
    t.vacant.count slot = if t.isVacant slot then 1 else 0 := by
  rw [ht.vacant_nodup.count]
  simp only [ht.isVacant_iff]

theorem Packed.live_add_vacant (ht : t.Packed) : t.live + t.vacant.length = t.slots.size := by
  have hmem : ∀ slot, slot ∈ t.toList.map Prod.fst ↔ ∃ b, t.get? slot = some b := by
    intro slot
    simp [mem_toList]
  have hdisjoint : ∀ slot ∈ t.toList.map Prod.fst, ∀ other ∈ t.vacant, slot ≠ other := by
    intro slot hlive other hvacant heq
    rcases (hmem slot).mp hlive with ⟨b, hget⟩
    rw [heq, ((ht.mem_vacant_iff other).mp hvacant).2] at hget
    cases hget
  have hnodup : (t.toList.map Prod.fst ++ t.vacant).Nodup :=
    List.nodup_append.mpr ⟨nodup_toList_fst t, ht.vacant_nodup, hdisjoint⟩
  have hperm : (t.toList.map Prod.fst ++ t.vacant).Perm (List.range t.slots.size) := by
    rw [List.perm_ext_iff_of_nodup hnodup List.nodup_range]
    intro slot
    rw [List.mem_append, hmem, ht.mem_vacant_iff, List.mem_range]
    constructor
    · intro hlisted
      rcases hlisted with ⟨b, hget⟩ | ⟨hlt, -⟩
      · exact lt_size_of_get? hget
      · exact hlt
    · intro hlt
      cases hget : t.get? slot with
      | none => exact Or.inr ⟨hlt, rfl⟩
      | some b => exact Or.inl ⟨b, rfl⟩
  have hlength := hperm.length_eq
  rwa [List.length_append, List.length_map, List.length_range, ← ht.live_eq_length] at hlength

theorem fst_reserve_eq_threads_iff (t : Table β) (slots vacant : Growth) :
    (t.reserve slots vacant).1 = .error .threads ↔ t.limit ≤ t.live := by
  unfold Table.reserve
  by_cases hfull : t.limit ≤ t.live
  · simp [hfull]
  · simp only [hfull, if_false, iff_false]
    split
    · simp
    · split
      · simp
      · split <;> simp

theorem pairwise_toList (t : Table β) : t.toList.Pairwise fun entry later => entry.1 < later.1 := by
  have hslots : t.slots.toList.zipIdx.Pairwise fun entry later => entry.2 < later.2 := by
    rw [← List.pairwise_map, List.zipIdx_map_snd]
    exact List.pairwise_lt_range'
  refine List.Pairwise.filterMap _ ?_ hslots
  intro entry later hlt listed hlisted listed' hlisted'
  simp only [Option.map_eq_some_iff] at hlisted hlisted'
  rcases hlisted with ⟨b, -, rfl⟩
  rcases hlisted' with ⟨b', -, rfl⟩
  exact hlt

/-!
# What every use keeps
-/

/-- The accounts of a table agree, after the given slots were vacated. -/
structure Kept (t : Table β) (limit : Nat) (vacated : List Nat) : Prop where
  packed : t.Packed
  limit_eq : t.limit = limit
  size_le : t.slots.size ≤ limit
  latest : LatestFirst t.vacant vacated

namespace Kept

theorem empty (limit : Nat) : (Table.empty limit : Table β).Kept limit [] where
  packed := .empty limit
  limit_eq := rfl
  size_le := Nat.zero_le _
  latest := .nil

theorem reserve (h : t.Kept limit past) (slots vacant : Growth) :
    (t.reserve slots vacant).2.Kept limit past := by
  rcases snd_reserve t slots vacant with ⟨slotRoom, vacantRoom, hroom⟩
  rcases h with ⟨⟨hnodup, hvacant, hlive, hle⟩, hlimit, hsize, hlatest⟩
  rw [hroom]
  exact ⟨⟨hnodup, hvacant, hlive, hle⟩, hlimit, hsize, hlatest⟩

theorem insert (h : t.Kept limit past) (hlive : t.live < t.limit) (b : Block β) :
    (t.insert b).2.Kept limit past where
  packed := h.packed.insert hlive b
  limit_eq := (limit_insert t b).trans h.limit_eq
  size_le := by
    have htotal := h.packed.live_add_vacant
    have hsize := h.size_le
    have hlimit := h.limit_eq
    unfold Table.insert
    cases hvacant : t.vacant with
    | nil =>
        -- a slot is made only when every slot is occupied
        rw [hvacant, List.length_nil] at htotal
        simp only [Array.size_push]
        omega
    | cons slot rest =>
        simp only [Array.size_setIfInBounds]
        exact hsize
  latest := by
    have hlatest := h.latest
    unfold Table.insert
    cases hvacant : t.vacant with
    | nil => exact .nil
    | cons slot rest =>
        rw [hvacant] at hlatest
        exact hlatest.tail

theorem remove (h : t.Kept limit past) (slot : Nat) :
    (t.remove slot).2.Kept limit (t.vacates (.remove slot) ++ past) := by
  have hpacked := h.packed.remove slot
  unfold vacates
  cases hget : t.get? slot with
  | none =>
      have hvacant : t.isOccupied slot = false := by simp [isOccupied, hget]
      have hsame : (t.remove slot).2 = t := by simp [Table.remove, hget]
      rw [hsame]
      simpa [hvacant] using h
  | some b =>
      have hoccupied : t.isOccupied slot = true := isOccupied_eq_true_iff.mpr ⟨b, hget⟩
      have hnew : slot ∉ t.vacant := by
        intro hmem
        rw [((h.packed.mem_vacant_iff slot).mp hmem).2] at hget
        cases hget
      have hslots : (t.remove slot).2.slots.size = t.slots.size := by simp [Table.remove, hget]
      have hvacant : (t.remove slot).2.vacant = slot :: t.vacant := by simp [Table.remove, hget]
      refine ⟨hpacked, (limit_remove t slot).trans h.limit_eq, ?_, ?_⟩
      · rw [hslots]
        exact h.size_le
      · simp only [hoccupied, if_true, hvacant]
        exact .came hnew h.latest

theorem modify (h : t.Kept limit past) (slot : Nat) (f : Block β → Block β) :
    (t.modify slot f).Kept limit past where
  packed := h.packed.modify slot f
  limit_eq := h.limit_eq
  size_le := by
    rw [size_modify]
    exact h.size_le
  latest := h.latest

theorem use (h : t.Kept limit past) (u : Use β) (hroom : u.isInsert = true → t.live < t.limit) :
    (t.use u).Kept limit (t.vacates u ++ past) := by
  cases u with
  | reserve slots vacant => exact h.reserve slots vacant
  | insert b => exact h.insert (hroom rfl) b
  | remove slot => exact h.remove slot
  | modify slot f => exact h.modify slot f

/-- Over a run, `secured` promises room for the block that may come next. -/
theorem afterUses {uses : List (Use β)} {secured : Bool} (h : t.Kept limit past)
    (hsecured : secured = true → t.live < t.limit) (hprudent : t.isPrudent secured uses = true) :
    (t.afterUses uses).Kept limit (t.vacated uses ++ past) := by
  induction uses generalizing t past secured with
  | nil => exact h
  | cons u rest ih =>
      rw [isPrudent, Bool.and_eq_true, Bool.or_eq_true, Bool.not_eq_true'] at hprudent
      rcases hprudent with ⟨hfirst, hrest⟩
      have hroom : u.isInsert = true → t.live < t.limit := by
        intro hinsert
        rw [hinsert] at hfirst
        exact hsecured (hfirst.resolve_left Bool.noConfusion)
      have hnext : t.secures u = true → (t.use u).live < (t.use u).limit := by
        intro hsecures
        cases u with
        | reserve slots vacant =>
            simp only [secures] at hsecures
            cases hanswer : (t.reserve slots vacant).1 with
            | error cause =>
                rw [hanswer] at hsecures
                cases hsecures
            | ok done => exact live_lt_of_reserve hanswer
        | insert b => cases hsecures
        | remove slot => cases hsecures
        | modify slot f => cases hsecures
      rw [vacated, List.append_assoc]
      exact ih (h.use u hroom) hnext hrest

/-!
# Kept tables are slabs
-/

/-- The slot in which the next block will be stored was vacated last, or is new. -/
theorem nextSlot_eq (h : t.Kept limit past) :
    t.nextSlot = (past.find? t.isVacant).getD t.slots.size := by
  rw [h.latest.find?_eq_head? h.packed.isVacant_iff, nextSlot, List.headD_eq_head?_getD]

theorem stores (h : t.Kept limit past) (b : Block β) :
    t.Stores past b (t.insert b).1 (t.insert b).2 := by
  rw [fst_insert]
  exact ⟨h.nextSlot_eq, h.packed.get?_nextSlot, h.packed.get?_insert b⟩

theorem isSlab (h : t.Kept limit past) : t.IsSlab limit past where
  count_vacant := h.packed.count_vacant
  live_eq := h.packed.live_eq
  limit_eq := h.limit_eq
  live_le := by
    rw [← h.limit_eq]
    exact h.packed.live_le
  size_le := h.size_le
  refuses := by
    intro slots vacant
    rw [fst_reserve_eq_threads_iff, h.limit_eq]
  stores := fun slots vacant b _ => (h.reserve slots vacant).stores b
  clears := by
    intro slot
    refine ⟨fst_remove t slot, get?_remove t slot, ?_⟩
    intro hget
    simp [Table.remove, hget]
  lookup := fun _ _ => lookup_eq_some_iff
  ordered := pairwise_toList t
  listed := fun _ _ => mem_toList

end Kept

/-- A table in which blocks are stored only right after room was secured for them is a slab. -/
theorem isSlab_of_isPrudent (limit : Nat) (uses : List (Use β))
    (hprudent : (Table.empty limit).isPrudent false uses = true) :
    ((Table.empty limit).afterUses uses).IsSlab limit ((Table.empty limit).vacated uses) := by
  have hsecured : false = true → (Table.empty limit : Table β).live < limit := nofun
  have hkept := (Kept.empty limit).afterUses hsecured hprudent
  rw [List.append_nil] at hkept
  exact hkept.isSlab

/-- Both slots are vacated, one of them twice, and slots that hold nothing are cleared too. -/
def vacatesTwice : List (Use Unit) :=
  [.reserve .doubling .doubling, .insert (.main 1), .reserve (.exact 0) .doubling,
    .insert (.main 2), .reserve .doubling .doubling, .remove 0, .remove 0,
    .reserve .refused .refused, .insert (.main 3), .remove 1, .remove 7, .remove 0]

theorem isSlab_of_vacatesTwice :
    (empty 2).isPrudent false vacatesTwice = true ∧ (empty 2).vacated vacatesTwice = [0, 1, 0] ∧
      ((empty 2).afterUses vacatesTwice).IsSlab 2 [0, 1, 0] :=
  ⟨rfl, rfl, isSlab_of_isPrudent 2 vacatesTwice rfl⟩

end Table
end Thread
end Coop
