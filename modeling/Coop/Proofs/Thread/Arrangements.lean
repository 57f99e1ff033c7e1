import Coop.Proofs.Thread.Families

/-!
# Arrangements of queues

The queues of all lanes live in the control blocks of one table.  An arrangement
says which list each of them holds.  An operation on one queue acts on its list
as the operation of that name acts on lists, and the arrangement of all others
stays: their links are where they were, and so is all that is not a link.

Nothing is asked of the link of a block that stands in no queue of the lane but
that it says so.  What else it shows may be anything, until an operation takes
the block out and leaves the link blank.
-/

namespace Coop
namespace Thread

variable {β : Type} {ι : Lane → Type}

/-- Queues of every lane over one table, and the lists that they hold. -/
def Arranged (t : Table β) (queues : ∀ lane, ι lane → Queue lane)
    (members : ∀ lane, ι lane → List Nat) : Prop :=
  ∀ lane, Family t (queues lane) (members lane)

/-!
# Reading a queue
-/

namespace Queue.Holds

variable {lane : Lane} {q : Queue lane} {t : Table β} {slots : List Nat} {slot : Nat}

theorem toList_eq (h : q.Holds t slots) : q.toList t = slots := by
  rw [toList, h.take_eq, h.len, Int.toNat_natCast]
  exact List.take_length

theorem removeFaults_of_mem (h : q.Holds t slots) (hslot : slot ∈ slots) :
    q.removeFaults t slot = [] := by
  have hlen : 0 < q.len := by
    rw [h.len]
    exact Int.natCast_pos.mpr (List.length_pos_of_mem hslot)
  simp [removeFaults, Fault.unless, hlen]

theorem popFaults_eq (h : q.Holds t slots) : q.popFaults t = [] := by
  unfold popFaults
  rw [h.head]
  cases slots with
  | nil => rfl
  | cons first rest => exact h.removeFaults_of_mem List.mem_cons_self

theorem pop_eq (h : q.Holds t slots) :
    q.pop t = (slots.head?, match slots.head? with
      | none => (q, t)
      | some slot => (q.remove t slot).2) := by
  unfold pop
  rw [h.head]
  cases slots <;> rfl

end Queue.Holds

theorem Queue.removeFaults_of_unlinked {lane : Lane} {q : Queue lane} {t : Table β} {slot : Nat}
    (h : (t.link lane slot).linked = false) : q.removeFaults t slot = [] := by
  simp [removeFaults, Fault.unless, h]

theorem Table.link_blank {lane : Lane} (t : Table β) (slot : Nat) :
    (t.modifyLink lane slot fun _ => {}).link lane slot = {} := by
  cases hget : t.get? slot <;> simp [link, modifyLink, hget]

/-!
# Operations on one queue of a family
-/

namespace Family

variable {lane : Lane} {κ : Type} {t : Table β} {queues : κ → Queue lane}
  {members : κ → List Nat} {slot : Nat}

theorem notMem_of_unlinked (h : Family t queues members)
    (hslot : (t.link lane slot).linked = false) (i : κ) : slot ∉ members i := by
  intro hi
  rw [(h.holds i).linked hi] at hslot
  cases hslot

theorem remove_eq_of_notMem (h : Family t queues members) (hslot : ∀ i, slot ∉ members i)
    (q : Queue lane) : q.remove t slot = (false, q, t.modifyLink lane slot fun _ => {}) := by
  cases hget : t.get? slot with
  | none =>
      rw [Queue.remove_of_vacant hget,
        Table.modifyLink_eq_self (Table.link_eq_of_get?_none hget lane)]
  | some b =>
      have hoccupied : t.isOccupied slot = true := Table.isOccupied_eq_true_iff.mpr ⟨b, hget⟩
      exact Queue.remove_of_unlinked hoccupied (h.unlinked slot hslot)

theorem blank (h : Family t queues members) (hslot : ∀ i, slot ∉ members i) :
    Family (t.modifyLink lane slot fun _ => {}) queues members where
  holds i := by
    apply (h.holds i).congr
    intro other hother
    apply Table.link_modifyLink_of_ne
    rintro rfl
    exact hslot i hother
  disjoint := h.disjoint
  unlinked other hother := by
    by_cases hne : other = slot
    · rw [hne, Table.link_blank]
    · rw [Table.link_modifyLink_of_ne hne]
      exact h.unlinked other hother

end Family

/-!
# One queue of an arrangement
-/

variable [∀ lane, DecidableEq (ι lane)]

def replace {γ : Lane → Type} (f : ∀ lane, ι lane → γ lane) (lane : Lane) (i : ι lane)
    (x : γ lane) : ∀ lane, ι lane → γ lane :=
  Function.update f lane (Function.update (f lane) i x)

theorem replace_same {γ : Lane → Type} (f : ∀ lane, ι lane → γ lane) (lane : Lane) (i : ι lane)
    (x : γ lane) : replace f lane i x lane = Function.update (f lane) i x :=
  Function.update_self lane _ f

theorem replace_of_ne {γ : Lane → Type} (f : ∀ lane, ι lane → γ lane) {lane lane' : Lane}
    (h : lane' ≠ lane) (i : ι lane) (x : γ lane) : replace f lane i x lane' = f lane' :=
  Function.update_of_ne h _ f

theorem replace_eq_self {γ : Lane → Type} (f : ∀ lane, ι lane → γ lane) (lane : Lane)
    (i : ι lane) : replace f lane i (f lane i) = f := by
  unfold replace
  rw [Function.update_eq_self, Function.update_eq_self]

/--
What an operation on one queue of an arrangement makes of the queue and the
table, where it turns the list of the queue into `slots`.  Besides the members of
the queue it may touch the block it was asked to work on.
-/
structure Leaves (t : Table β) (queues : ∀ lane, ι lane → Queue lane)
    (members : ∀ lane, ι lane → List Nat) (lane : Lane) (i : ι lane) (slot? : Option Nat)
    (after : Queue lane × Table β) (slots : List Nat) : Prop where
  /-- The queue holds the new list and each other queue, of either lane, the one it held. -/
  arranged : Arranged after.2 (replace queues lane i after.1) (replace members lane i slots)
  bare : after.2.bare = t.bare
  /-- No link of another lane has changed, nor any of a block that is not named. -/
  links : ∀ lane' other, lane' ≠ lane ∨ other ∉ members lane i ∧ slot? ≠ some other →
    after.2.link lane' other = t.link lane' other

namespace Arranged

variable {t t' : Table β} {queues : ∀ lane, ι lane → Queue lane}
  {members : ∀ lane, ι lane → List Nat} {lane : Lane} {slot : Nat}

/-- It is enough to look at the lane of the queue where the links of others stay. -/
theorem replaced (h : Arranged t queues members) {i : ι lane} {q : Queue lane}
    {slots : List Nat}
    (hlane : Family t' (Function.update (queues lane) i q)
      (Function.update (members lane) i slots))
    (hsame : ∀ lane', lane' ≠ lane → ∀ other, t'.link lane' other = t.link lane' other) :
    Arranged t' (replace queues lane i q) (replace members lane i slots) := by
  intro lane'
  by_cases hne : lane' = lane
  · subst hne
    rw [replace_same, replace_same]
    exact hlane
  · rw [replace_of_ne queues hne, replace_of_ne members hne]
    exact (h lane').congr (hsame lane' hne)

/-!
# The operations
-/

theorem push (h : Arranged t queues members) (i : ι lane) (hslot : t.isOccupied slot = true)
    (hfree : (t.link lane slot).linked = false) :
    Leaves t queues members lane i (some slot) ((queues lane i).push t slot)
      (members lane i ++ [slot]) where
  arranged :=
    h.replaced ((h lane).push i hslot ((h lane).notMem_of_unlinked hfree)) fun _ hne other =>
      Queue.link_push_of_lane_ne hne (queues lane i) t slot other
  bare := Queue.bare_push (queues lane i) t slot
  links lane' other := by
    rintro (hne | ⟨hmem, hother⟩)
    · exact Queue.link_push_of_lane_ne hne (queues lane i) t slot other
    · by_cases hne : lane' = lane
      · subst hne
        apply ((h lane').holds i).link_push hslot _ hmem
        rintro rfl
        exact hother rfl
      · exact Queue.link_push_of_lane_ne hne (queues lane i) t slot other

theorem remove_mem (h : Arranged t queues members) (i : ι lane) {front back : List Nat}
    (hi : members lane i = front ++ slot :: back) :
    ((queues lane i).remove t slot).1 = true ∧
      Leaves t queues members lane i (some slot) ((queues lane i).remove t slot).2
        (front ++ back) ∧
      ((queues lane i).remove t slot).2.2.link lane slot = {} := by
  have hholds := (h lane).holds i
  rw [hi] at hholds
  refine ⟨by rw [hholds.remove_eq], ?_, hholds.link_remove_same⟩
  constructor
  · exact h.replaced ((h lane).remove i hi) fun _ hne other =>
      Queue.link_remove_of_lane_ne hne (queues lane i) t slot other
  · exact Queue.bare_remove (queues lane i) t slot
  · rintro lane' other (hne | ⟨hmem, -⟩)
    · exact Queue.link_remove_of_lane_ne hne (queues lane i) t slot other
    · by_cases hne : lane' = lane
      · subst hne
        rw [hi] at hmem
        exact hholds.link_remove hmem
      · exact Queue.link_remove_of_lane_ne hne (queues lane i) t slot other

/-- A block that stands in no queue of the lane leaves nothing behind. -/
theorem remove_notMem (h : Arranged t queues members) (i : ι lane)
    (hslot : ∀ j, slot ∉ members lane j) :
    ((queues lane i).remove t slot).1 = false ∧
      Leaves t queues members lane i (some slot) ((queues lane i).remove t slot).2
        (members lane i) ∧
      ((queues lane i).remove t slot).2.2.link lane slot = {} := by
  rw [(h lane).remove_eq_of_notMem hslot]
  refine ⟨rfl, ⟨?_, Table.bare_modifyLink t lane slot _, ?_⟩, Table.link_blank t slot⟩
  · apply h.replaced
    · rw [Function.update_eq_self, Function.update_eq_self]
      exact (h lane).blank hslot
    · intro lane' hne other
      exact Table.link_modifyLink_of_lane_ne hne slot other
  · rintro lane' other (hne | ⟨-, hne⟩)
    · exact Table.link_modifyLink_of_lane_ne hne slot other
    · by_cases hlane : lane' = lane
      · subst hlane
        apply Table.link_modifyLink_of_ne
        rintro rfl
        exact hne rfl
      · exact Table.link_modifyLink_of_lane_ne hlane slot other

theorem remove (h : Arranged t queues members) (i : ι lane)
    (hslot : ∀ j, slot ∈ members lane j → j = i) :
    ((queues lane i).remove t slot).1 = decide (slot ∈ members lane i) ∧
      Leaves t queues members lane i (some slot) ((queues lane i).remove t slot).2
        ((members lane i).erase slot) ∧
      ((queues lane i).remove t slot).2.2.link lane slot = {} := by
  by_cases hmem : slot ∈ members lane i
  · rcases List.append_of_mem hmem with ⟨front, back, hi⟩
    have hnodup := ((h lane).holds i).nodup
    rw [hi] at hnodup
    have hfront : slot ∉ front := fun hfront =>
      (List.nodup_append.mp hnodup).2.2 slot hfront slot List.mem_cons_self rfl
    have herase : (members lane i).erase slot = front ++ back := by
      rw [hi, List.erase_append_right _ hfront, List.erase_cons_head]
    rw [herase, decide_eq_true hmem]
    exact h.remove_mem i hi
  · have hnone : ∀ j, slot ∉ members lane j := by
      intro j hj
      exact hmem (hslot j hj ▸ hj)
    rw [List.erase_of_not_mem hmem, decide_eq_false hmem]
    exact h.remove_notMem i hnone

theorem pop (h : Arranged t queues members) (i : ι lane) :
    ((queues lane i).pop t).1 = (members lane i).head? ∧
      Leaves t queues members lane i none ((queues lane i).pop t).2 (members lane i).tail ∧
      ∀ slot, ((queues lane i).pop t).1 = some slot →
        ((queues lane i).pop t).2.2.link lane slot = {} := by
  have hpop := ((h lane).holds i).pop_eq
  cases hi : members lane i with
  | nil =>
      rw [hi] at hpop
      rw [hpop]
      refine ⟨rfl, ⟨?_, rfl, fun _ _ _ => rfl⟩, fun _ hnone => by cases hnone⟩
      have hmembers := replace_eq_self members lane i
      rw [hi] at hmembers
      show Arranged t (replace queues lane i (queues lane i)) (replace members lane i [])
      rw [replace_eq_self, hmembers]
      exact h
  | cons first rest =>
      rw [hi] at hpop
      rw [hpop]
      have hfront : members lane i = [] ++ first :: rest := hi
      rcases h.remove_mem i hfront with ⟨-, hleaves, hblank⟩
      refine ⟨rfl, ⟨hleaves.arranged, hleaves.bare, ?_⟩, ?_⟩
      · rintro lane' other (hne | ⟨hmem, -⟩)
        · exact hleaves.links lane' other (Or.inl hne)
        · apply hleaves.links lane' other
          refine Or.inr ⟨hmem, ?_⟩
          rintro ⟨⟩
          exact hmem (hi ▸ List.mem_cons_self)
      · rintro slot ⟨⟩
        exact hblank

end Arranged

/-!
# Queues are lists
-/

structure ActsAsList (t : Table β) (queues : ∀ lane, ι lane → Queue lane)
    (members : ∀ lane, ι lane → List Nat) (lane : Lane) (i : ι lane) : Prop where
  front : (queues lane i).front = (members lane i).head?
  len : (queues lane i).len = (members lane i).length
  isEmpty : (queues lane i).isEmpty = (members lane i).isEmpty
  iter : ∀ count, (queues lane i).take t count = (members lane i).take count
  toList : (queues lane i).toList t = members lane i
  push : ∀ slot, t.isOccupied slot = true → (t.link lane slot).linked = false →
    Queue.pushFaults t lane slot = [] ∧
      Leaves t queues members lane i (some slot) ((queues lane i).push t slot)
        (members lane i ++ [slot])
  pop : (queues lane i).popFaults t = [] ∧
    ((queues lane i).pop t).1 = (members lane i).head? ∧
      Leaves t queues members lane i none ((queues lane i).pop t).2 (members lane i).tail ∧
      ∀ slot, ((queues lane i).pop t).1 = some slot →
        ((queues lane i).pop t).2.2.link lane slot = {}
  /-- The slot need not be live. -/
  remove : ∀ slot, (∀ j, slot ∈ members lane j → j = i) →
    (queues lane i).removeFaults t slot = [] ∧
      ((queues lane i).remove t slot).1 = decide (slot ∈ members lane i) ∧
      Leaves t queues members lane i (some slot) ((queues lane i).remove t slot).2
        ((members lane i).erase slot) ∧
      ((queues lane i).remove t slot).2.2.link lane slot = {}

/-- Every queue of an arrangement is a list, and disturbs no other. -/
theorem actsAsList_of_arranged {t : Table β} {queues : ∀ lane, ι lane → Queue lane}
    {members : ∀ lane, ι lane → List Nat} (h : Arranged t queues members) (lane : Lane)
    (i : ι lane) : ActsAsList t queues members lane i := by
  have hholds := (h lane).holds i
  constructor
  · exact hholds.head
  · exact hholds.len
  · exact hholds.isEmpty_eq
  · exact hholds.take_eq
  · exact hholds.toList_eq
  · intro slot hslot hfree
    exact ⟨by simp [Queue.pushFaults, Fault.unless, hfree], h.push i hslot hfree⟩
  · exact ⟨hholds.popFaults_eq, h.pop i⟩
  · intro slot hslot
    refine ⟨?_, h.remove i hslot⟩
    by_cases hmem : slot ∈ members lane i
    · exact hholds.removeFaults_of_mem hmem
    · apply Queue.removeFaults_of_unlinked
      apply (h lane).unlinked slot
      intro j hj
      exact hmem (hslot j hj ▸ hj)

/-!
# An arrangement of four queues

Slot 0 stands first of its queue in one lane and last of its queue in the other;
slot 2 is vacant.
-/

namespace Sample

def table : Table Unit where
  slots := #[
    some { Block.main 1 with
      readyLink := ⟨some 3, none, true⟩
      waitLink := ⟨none, some 1, true⟩ },
    some { Block.main 2 with waitLink := ⟨some 0, none, true⟩ },
    none,
    some { Block.main 3 with readyLink := ⟨none, some 0, true⟩ }]
  vacant := [2]
  live := 3
  limit := 4

def queues : ∀ lane, Bool → Queue lane
  | .ready, false => ⟨some 3, some 0, 2⟩
  | .wait, true => ⟨some 0, some 1, 2⟩
  | _, _ => {}

def members : Lane → Bool → List Nat
  | .ready, false => [3, 0]
  | .wait, true => [0, 1]
  | _, _ => []

theorem arranged : Arranged table queues members := by
  have hslots : ∀ slot : Nat, slot = 0 ∨ slot = 1 ∨ slot = 2 ∨ slot = 3 ∨ 4 ≤ slot := by
    intro slot
    omega
  have hbeyond : ∀ lane slot, 4 ≤ slot → (table.link lane slot).linked = false := by
    intro lane slot hslot
    rcases Nat.exists_eq_add_of_le' hslot with ⟨rest, rfl⟩
    simp [Table.link, Table.get?, table]
  intro lane
  cases lane with
  | ready =>
      constructor
      · intro i
        cases i with
        | false => exact ⟨rfl, rfl, rfl, by decide, rfl, rfl, trivial⟩
        | true => exact Queue.Holds.nil table
      · intro i j slot hi hj
        cases i <;> cases j <;> simp_all [members]
      · intro slot hslot
        have hslot' := hslot false
        rcases hslots slot with rfl | rfl | rfl | rfl | hlarge
        · exact absurd (by decide) hslot'
        · rfl
        · rfl
        · exact absurd (by decide) hslot'
        · exact hbeyond .ready slot hlarge
  | wait =>
      constructor
      · intro i
        cases i with
        | false => exact Queue.Holds.nil table
        | true => exact ⟨rfl, rfl, rfl, by decide, rfl, rfl, trivial⟩
      · intro i j slot hi hj
        cases i <;> cases j <;> simp_all [members]
      · intro slot hslot
        have hslot' := hslot true
        rcases hslots slot with rfl | rfl | rfl | rfl | hlarge
        · exact absurd (by decide) hslot'
        · exact absurd (by decide) hslot'
        · rfl
        · rfl
        · exact hbeyond .wait slot hlarge

end Sample

theorem actsAsList_sample :
    Arranged Sample.table Sample.queues Sample.members ∧
      ∀ lane i, ActsAsList Sample.table Sample.queues Sample.members lane i :=
  ⟨Sample.arranged, fun lane i => actsAsList_of_arranged Sample.arranged lane i⟩

end Thread
end Coop
