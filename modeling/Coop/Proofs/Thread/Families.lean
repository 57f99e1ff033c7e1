import Mathlib.Logic.Function.Basic
import Coop.Proofs.Thread.Chains

/-!
# Families of queues

Several queues of one lane share the links of that lane.  They do not disturb
each other as long as no slot stands in two of them: an operation on one queue
then changes the list of that queue alone.
-/

namespace Coop
namespace Thread

variable {β : Type} {lane : Lane}

structure Family {ι : Type} (t : Table β) (queues : ι → Queue lane) (members : ι → List Nat) :
    Prop where
  holds : ∀ i, (queues i).Holds t (members i)
  disjoint : ∀ {i j slot}, slot ∈ members i → slot ∈ members j → i = j
  unlinked : ∀ slot, (∀ i, slot ∉ members i) → (t.link lane slot).linked = false

/-- A slot that stands in no queue of the lane has a blank link. -/
def Table.Tidy (t : Table β) (lane : Lane) : Prop :=
  ∀ slot, (t.link lane slot).linked = false → t.link lane slot = {}

/-!
# Links that stay
-/

theorem Table.Tidy.congr {t t' : Table β} (h : t.Tidy lane)
    (hsame : ∀ slot, t'.link lane slot = t.link lane slot) : t'.Tidy lane := by
  intro slot hslot
  rw [hsame] at hslot ⊢
  exact h slot hslot

theorem Table.link_insert {t : Table β} (ht : t.Packed) {b : Block β} (hb : b.bare = b)
    (lane : Lane) (slot : Nat) : (t.insert b).2.link lane slot = t.link lane slot := by
  have hblank : b.link lane = {} := by
    rw [← hb]
    cases lane <;> rfl
  by_cases h : slot = t.nextSlot
  · rw [h, link_eq_of_get?_none ht.get?_nextSlot]
    simp [Table.link, ht.get?_insert, hblank]
  · simp [Table.link, ht.get?_insert, h]

theorem Table.link_remove {t : Table β} {slot : Nat} {lane : Lane} (h : t.link lane slot = {})
    (other : Nat) : (t.remove slot).2.link lane other = t.link lane other := by
  by_cases hother : other = slot
  · subst hother
    rw [h]
    simp [Table.link, get?_remove]
  · simp [Table.link, get?_remove, hother]

theorem Table.link_reserve (t : Table β) (slots vacant : Growth) (lane : Lane) (slot : Nat) :
    (t.reserve slots vacant).2.link lane slot = t.link lane slot := by
  simp [Table.link]

theorem Table.modifyLink_eq_self {t : Table β} {slot : Nat} {link : Link}
    (h : t.link lane slot = link) : (t.modifyLink lane slot fun _ => link) = t := by
  apply modify_eq_self
  intro b hget
  rw [link_eq_of_get? hget] at h
  subst h
  cases lane <;> rfl

namespace Family

variable {ι : Type} {t t' : Table β} {queues : ι → Queue lane} {members : ι → List Nat}

theorem congr (h : Family t queues members)
    (hsame : ∀ slot, t'.link lane slot = t.link lane slot) : Family t' queues members where
  holds i := (h.holds i).congr fun slot _ => hsame slot
  disjoint := h.disjoint
  unlinked slot hslot := by
    rw [hsame]
    exact h.unlinked slot hslot

theorem linked_iff (h : Family t queues members) (slot : Nat) :
    (t.link lane slot).linked = true ↔ ∃ i, slot ∈ members i := by
  constructor
  · intro hlinked
    by_contra hnone
    rw [h.unlinked slot fun i hi => hnone ⟨i, hi⟩] at hlinked
    cases hlinked
  · rintro ⟨i, hi⟩
    exact (h.holds i).linked hi

/-!
# Operations on one of the queues
-/

variable [DecidableEq ι]

theorem push (h : Family t queues members) (i : ι) {slot : Nat} (hslot : t.isOccupied slot = true)
    (hmem : ∀ j, slot ∉ members j) :
    Family ((queues i).push t slot).2 (Function.update queues i ((queues i).push t slot).1)
      (Function.update members i (members i ++ [slot])) where
  holds := by
    intro j
    by_cases hj : j = i
    · subst hj
      rw [Function.update_self, Function.update_self]
      exact (h.holds j).push hslot (hmem j)
    · rw [Function.update_of_ne hj, Function.update_of_ne hj]
      apply (h.holds j).congr
      intro other hother
      apply (h.holds i).link_push hslot
      · rintro rfl
        exact hmem j hother
      · intro hi
        exact hj (h.disjoint hother hi)
  disjoint := by
    intro j k other hother hother'
    have hgone : ∀ l, other ∈ Function.update members i (members i ++ [slot]) l →
        other ∈ members l ∨ l = i ∧ other = slot := by
      intro l hl
      by_cases hli : l = i
      · subst hli
        simpa using hl
      · rw [Function.update_of_ne hli] at hl
        exact Or.inl hl
    rcases hgone j hother with hj | ⟨hj, rfl⟩
    · rcases hgone k hother' with hk | ⟨hk, rfl⟩
      · exact h.disjoint hj hk
      · exact absurd hj (hmem j)
    · rcases hgone k hother' with hk | ⟨hk, -⟩
      · exact absurd hk (hmem k)
      · rw [hj, hk]
  unlinked := by
    intro other hother
    have hi := hother i
    rw [Function.update_self, List.mem_append, List.mem_singleton, not_or] at hi
    rw [(h.holds i).link_push hslot hi.2 hi.1]
    apply h.unlinked
    intro j hj
    by_cases hji : j = i
    · exact hi.1 (hji ▸ hj)
    · have hj' := hother j
      rw [Function.update_of_ne hji] at hj'
      exact hj' hj

theorem remove (h : Family t queues members) (i : ι) {front back : List Nat} {slot : Nat}
    (hi : members i = front ++ slot :: back) :
    Family ((queues i).remove t slot).2.2 (Function.update queues i ((queues i).remove t slot).2.1)
      (Function.update members i (front ++ back)) := by
  have hholds := h.holds i
  rw [hi] at hholds
  have hslot : slot ∈ members i := by simp [hi]
  have hless : ∀ {j other}, other ∈ Function.update members i (front ++ back) j →
      other ∈ members j := by
    intro j other hother
    by_cases hj : j = i
    · subst hj
      rw [Function.update_self] at hother
      rw [hi]
      exact List.mem_append.mpr ((List.mem_append.mp hother).imp_right (List.mem_cons_of_mem slot))
    · rwa [Function.update_of_ne hj] at hother
  constructor
  · intro j
    by_cases hj : j = i
    · subst hj
      rw [Function.update_self, Function.update_self]
      exact hholds.remove
    · rw [Function.update_of_ne hj, Function.update_of_ne hj]
      apply (h.holds j).congr
      intro other hother
      apply hholds.link_remove
      intro hother'
      exact hj (h.disjoint hother (hi ▸ hother'))
  · intro j k other hj hk
    exact h.disjoint (hless hj) (hless hk)
  · intro other hother
    by_cases hne : other = slot
    · rw [hne, hholds.link_remove_same]
    · have hi' := hother i
      rw [Function.update_self] at hi'
      have hmem : other ∉ front ++ slot :: back := by
        simpa [hne] using hi'
      rw [hholds.link_remove hmem]
      apply h.unlinked
      intro j hj
      by_cases hji : j = i
      · subst hji
        exact hmem (hi ▸ hj)
      · have hj' := hother j
        rw [Function.update_of_ne hji] at hj'
        exact hj' hj

end Family

/-!
# Blank links
-/

theorem Table.Tidy.push {t : Table β} {q : Queue lane} {slots : List Nat} {slot : Nat}
    (ht : t.Tidy lane) (h : q.Holds t slots) (hslot : t.isOccupied slot = true)
    (hmem : slot ∉ slots) : (q.push t slot).2.Tidy lane := by
  intro other hother
  have hafter := h.push hslot hmem
  by_cases hother' : other ∈ slots ++ [slot]
  · rw [hafter.linked hother'] at hother
    cases hother
  · rw [List.mem_append, List.mem_singleton, not_or] at hother'
    rw [h.link_push hslot hother'.2 hother'.1] at hother ⊢
    exact ht other hother

theorem Table.Tidy.remove {t : Table β} {q : Queue lane} {front back : List Nat} {slot : Nat}
    (ht : t.Tidy lane) (h : q.Holds t (front ++ slot :: back)) :
    (q.remove t slot).2.2.Tidy lane := by
  intro other hother
  by_cases hne : other = slot
  · rw [hne, h.link_remove_same]
  · by_cases hmem : other ∈ front ++ back
    · rw [h.remove.linked hmem] at hother
      cases hother
    · have hmem' : other ∉ front ++ slot :: back := by
        simpa [hne] using hmem
      rw [h.link_remove hmem'] at hother ⊢
      exact ht other hother

theorem Queue.remove_eq_of_unlinked {t : Table β} (q : Queue lane) {slot : Nat} (ht : t.Tidy lane)
    (h : (t.link lane slot).linked = false) : q.remove t slot = (false, q, t) := by
  cases hget : t.get? slot with
  | none => exact remove_of_vacant hget
  | some b =>
      have hslot : t.isOccupied slot = true := Table.isOccupied_eq_true_iff.mpr ⟨b, hget⟩
      rw [remove_of_unlinked hslot h, Table.modifyLink_eq_self (ht slot h)]

end Thread
end Coop
