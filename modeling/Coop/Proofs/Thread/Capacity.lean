import Coop.Proofs.Thread.Slab

/-!
# Clearing a slot needs no memory

A use of a table may leave its lists with more room than was asked for, and room that was
asked for may be refused.  Still no list ever grows but when room is secured, provided that
room is secured before each block is stored: the list of vacant slots has room for every slot
at every moment, although nothing is secured while some slot is vacant.
-/

namespace Coop
namespace Thread
namespace Table

variable {β : Type}

/-!
# Runs with spare room
-/

/-- A use of a table, and the room that its lists have afterwards beyond what it left. -/
structure Turn (β : Type) where
  use : Use β
  spareSlots : Nat := 0
  spareVacant : Nat := 0

def take (t : Table β) (turn : Turn β) : Table β :=
  { t.use turn.use with
    slotRoom := (t.use turn.use).slotRoom + turn.spareSlots
    vacantRoom := (t.use turn.use).vacantRoom + turn.spareVacant }

def afterTurns (t : Table β) : List (Turn β) → Table β
  | [] => t
  | turn :: rest => (t.take turn).afterTurns rest

def staysSecured (t : Table β) (secured : Bool) (u : Use β) : Bool :=
  t.secures u || (secured && !u.isInsert)

/-- Room is secured before each block is stored; `secured` tells whether it is now. -/
def isBacked (t : Table β) (secured : Bool) : List (Turn β) → Bool
  | [] => true
  | turn :: rest =>
      (!turn.use.isInsert || secured) &&
        (t.take turn).isBacked (t.staysSecured secured turn.use) rest

/-- Any slot can be cleared, and listed as vacant, in the room there is. -/
structure HasRoom (t : Table β) : Prop where
  size_le : t.slots.size ≤ t.vacantRoom
  fits : ∀ slot, t.isOccupied slot = true → t.vacant.length < t.vacantRoom
  vacantRoom_remove : ∀ slot, (t.remove slot).2.vacantRoom = t.vacantRoom
  slotRoom_remove : ∀ slot, (t.remove slot).2.slotRoom = t.slotRoom

structure Admits (t : Table β) (b : Block β) : Prop where
  fits : t.vacant = [] → t.slots.size < t.slotRoom
  slotRoom_insert : (t.insert b).2.slotRoom = t.slotRoom
  vacantRoom_insert : (t.insert b).2.vacantRoom = t.vacantRoom

/-- Over a run, no list of the table grows when a block is stored or a slot is cleared. -/
structure NeverGrows (t : Table β) (turns : List (Turn β)) : Prop where
  hasRoom : ∀ earlier, earlier <+: turns → (t.afterTurns earlier).HasRoom
  admits : ∀ earlier turn later b, turns = earlier ++ turn :: later → turn.use = .insert b →
    (t.afterTurns earlier).Admits b

/-!
# What is secured
-/

variable {t t' : Table β} {secured : Bool}

/-- Two tables are the same but for the room of their lists, which is no less in the second. -/
def Widens (t t' : Table β) : Prop :=
  ∃ slotRoom vacantRoom, t' = { t with slotRoom := slotRoom, vacantRoom := vacantRoom } ∧
    t.slotRoom ≤ slotRoom ∧ t.vacantRoom ≤ vacantRoom

theorem widens_reserve (t : Table β) (slots vacant : Growth) :
    t.Widens (t.reserve slots vacant).2 := by
  unfold reserve
  by_cases hfull : t.limit ≤ t.live
  · rw [if_pos hfull]
    exact ⟨t.slotRoom, t.vacantRoom, rfl, Nat.le_refl _, Nat.le_refl _⟩
  · rw [if_neg hfull]
    by_cases hlisted : (!t.vacant.isEmpty) = true
    · rw [if_pos hlisted]
      exact ⟨t.slotRoom, t.vacantRoom, rfl, Nat.le_refl _, Nat.le_refl _⟩
    · rw [if_neg hlisted]
      cases hslots : slots.reserve t.slots.size t.slotRoom 1 with
      | none => exact ⟨t.slotRoom, t.vacantRoom, rfl, Nat.le_refl _, Nat.le_refl _⟩
      | some slotRoom =>
          have hslotRoom := Growth.room_le_of_reserve hslots
          simp only
          cases hvacant : vacant.reserve t.vacant.length t.vacantRoom
              (t.slots.size + 1 - t.vacant.length) with
          | none => exact ⟨slotRoom, t.vacantRoom, rfl, hslotRoom, Nat.le_refl _⟩
          | some vacantRoom =>
              exact ⟨slotRoom, vacantRoom, rfl, hslotRoom, Growth.room_le_of_reserve hvacant⟩

structure Secure (t : Table β) (secured : Bool) : Prop where
  packed : t.Packed
  roomy : t.Roomy
  reserved : secured = true → t.isReserved = true

namespace Secure

theorem empty (limit : Nat) : (Table.empty limit : Table β).Secure false where
  packed := .empty limit
  roomy := Nat.le_refl 0
  reserved := nofun

theorem widen (h : t.Secure secured) (hwidens : t.Widens t') : t'.Secure secured := by
  rcases hwidens with ⟨slotRoom, vacantRoom, rfl, hslots, hvacant⟩
  rcases h.packed with ⟨hnodup, hmem, hlive, hle⟩
  constructor
  case packed => exact ⟨hnodup, hmem, hlive, hle⟩
  case roomy => exact Nat.le_trans h.roomy hvacant
  case reserved =>
    intro hsecured
    have hreserved := h.reserved hsecured
    simp only [isReserved, Bool.and_eq_true, Bool.or_eq_true, decide_eq_true_eq] at hreserved ⊢
    apply And.imp_right (Or.imp_right _) hreserved
    intro hroom
    exact ⟨Nat.lt_of_lt_of_le hroom.1 hslots, Nat.lt_of_lt_of_le hroom.2 hvacant⟩

theorem live_lt (h : t.Secure true) : t.live < t.limit := by
  have hreserved := h.reserved rfl
  simp only [isReserved, Bool.and_eq_true, decide_eq_true_eq] at hreserved
  exact hreserved.1

theorem insert (h : t.Secure true) (b : Block β) : (t.insert b).2.Secure false where
  packed := h.packed.insert h.live_lt b
  roomy := h.roomy.insert (h.reserved rfl) b
  reserved := nofun

/-- A slot that was cleared is room for the block that may come next. -/
theorem remove (h : t.Secure secured) (slot : Nat) : (t.remove slot).2.Secure secured where
  packed := h.packed.remove slot
  roomy := h.roomy.remove slot
  reserved := by
    intro hsecured
    have hreserved := h.reserved hsecured
    unfold Table.remove
    cases t.get? slot with
    | none => exact hreserved
    | some b =>
        simp only [isReserved, Bool.and_eq_true, decide_eq_true_eq] at hreserved
        have hlive : t.live - 1 < t.limit := Nat.lt_of_le_of_lt (Nat.sub_le _ _) hreserved.1
        simp [isReserved, hlive]

theorem modify (h : t.Secure secured) (slot : Nat) (f : Block β → Block β) :
    (t.modify slot f).Secure secured where
  packed := h.packed.modify slot f
  roomy := h.roomy.modify slot f
  reserved := by
    intro hsecured
    have hreserved := h.reserved hsecured
    unfold isReserved at hreserved ⊢
    rw [size_modify]
    exact hreserved

theorem reserve (h : t.Secure secured) (slots vacant : Growth) :
    (t.reserve slots vacant).2.Secure (t.staysSecured secured (.reserve slots vacant)) := by
  have hwider := h.widen (widens_reserve t slots vacant)
  constructor
  case packed => exact hwider.packed
  case roomy => exact hwider.roomy
  case reserved =>
    intro hsecured
    simp only [staysSecured, secures, Use.isInsert, Bool.not_false, Bool.and_true,
      Bool.or_eq_true] at hsecured
    cases hanswer : (t.reserve slots vacant).1 with
    | ok done => exact isReserved_of_reserve hanswer
    | error cause =>
        rw [hanswer] at hsecured
        exact hwider.reserved (hsecured.resolve_left Bool.noConfusion)

theorem use (h : t.Secure secured) (u : Use β) (hbacked : u.isInsert = true → secured = true) :
    (t.use u).Secure (t.staysSecured secured u) := by
  cases u with
  | reserve slots vacant => exact h.reserve slots vacant
  | insert b =>
      obtain rfl := hbacked rfl
      exact h.insert b
  | remove slot =>
      have hstays : t.staysSecured secured (.remove slot) = secured := Bool.and_true secured
      rw [hstays]
      exact h.remove slot
  | modify slot f =>
      have hstays : t.staysSecured secured (.modify slot f) = secured := Bool.and_true secured
      rw [hstays]
      exact h.modify slot f

theorem take (h : t.Secure secured) (turn : Turn β)
    (hbacked : turn.use.isInsert = true → secured = true) :
    (t.take turn).Secure (t.staysSecured secured turn.use) :=
  (h.use turn.use hbacked).widen ⟨_, _, rfl, Nat.le_add_right _ _, Nat.le_add_right _ _⟩

/-!
# What room is enough for
-/

theorem hasRoom (h : t.Secure secured) : t.HasRoom := by
  have hfits : ∀ slot, t.isOccupied slot = true → t.vacant.length < t.vacantRoom := by
    intro slot hoccupied
    rcases isOccupied_eq_true_iff.mp hoccupied with ⟨b, hget⟩
    exact Nat.lt_of_lt_of_le (h.packed.vacant_length_lt hget) h.roomy
  refine ⟨h.roomy, hfits, ?_, ?_⟩
  · intro slot
    unfold Table.remove
    cases hget : t.get? slot with
    | none => rfl
    | some b => exact Nat.max_eq_left (hfits slot (isOccupied_eq_true_iff.mpr ⟨b, hget⟩))
  · intro slot
    unfold Table.remove
    cases t.get? slot <;> rfl

theorem admits (h : t.Secure true) (b : Block β) : t.Admits b := by
  have hfits : t.vacant = [] → t.slots.size < t.slotRoom := by
    intro hvacant
    have hreserved := h.reserved rfl
    simp only [isReserved, hvacant, List.isEmpty_nil, Bool.not_true, Bool.false_or,
      Bool.and_eq_true, decide_eq_true_eq] at hreserved
    exact hreserved.2.1
  refine ⟨hfits, ?_, ?_⟩
  · unfold Table.insert
    cases hvacant : t.vacant with
    | nil => exact Nat.max_eq_left (hfits hvacant)
    | cons slot rest => rfl
  · unfold Table.insert
    cases t.vacant <;> rfl

theorem neverGrows {turns : List (Turn β)} (h : t.Secure secured)
    (hbacked : t.isBacked secured turns = true) : t.NeverGrows turns := by
  induction turns generalizing t secured with
  | nil =>
      constructor
      · intro earlier hearlier
        rw [List.prefix_nil.mp hearlier]
        exact h.hasRoom
      · intro earlier turn later b hturns
        exact absurd hturns.symm (List.append_ne_nil_of_right_ne_nil _ (List.cons_ne_nil _ _))
  | cons turn rest ih =>
      rw [isBacked, Bool.and_eq_true, Bool.or_eq_true, Bool.not_eq_true'] at hbacked
      have hfirst : turn.use.isInsert = true → secured = true := by
        intro hinsert
        rw [hinsert] at hbacked
        exact hbacked.1.resolve_left Bool.noConfusion
      have hrest := ih (h.take turn hfirst) hbacked.2
      constructor
      · intro earlier hearlier
        rcases List.prefix_cons_iff.mp hearlier with rfl | ⟨tail, rfl, htail⟩
        · exact h.hasRoom
        · exact hrest.hasRoom tail htail
      · intro earlier turn' later b hturns huse
        cases earlier with
        | nil =>
            injection hturns with hturn hlater
            subst hturn
            obtain rfl := hfirst (by rw [huse]; rfl)
            exact h.admits b
        | cons first tail =>
            injection hturns with hfirst' htail
            subst hfirst'
            exact hrest.admits tail turn' later b htail huse

end Secure

/--
When room is secured before each block is stored, storing a block and clearing a slot
never make a list of the table grow.
-/
theorem neverGrows_of_isBacked (limit : Nat) (turns : List (Turn β))
    (hbacked : (Table.empty limit).isBacked false turns = true) :
    (Table.empty limit).NeverGrows turns :=
  (Secure.empty limit).neverGrows hbacked

/-- Room is refused first for the slots and then for the list of vacant ones. -/
def refusesTwice : List (Turn Unit) :=
  [⟨.reserve .refused .doubling, 0, 0⟩, ⟨.reserve .doubling .refused, 0, 2⟩,
    ⟨.reserve .doubling (.exact 0), 0, 0⟩, ⟨.insert (.main 1), 1, 0⟩,
    ⟨.reserve .doubling .refused, 0, 0⟩, ⟨.reserve .doubling .doubling, 0, 0⟩,
    ⟨.remove 5, 0, 0⟩, ⟨.insert (.main 2), 0, 0⟩, ⟨.remove 0, 0, 0⟩, ⟨.remove 0, 0, 0⟩,
    ⟨.remove 1, 0, 3⟩, ⟨.reserve .refused .refused, 0, 0⟩, ⟨.insert (.main 3), 0, 0⟩]

theorem neverGrows_of_refusesTwice :
    (Table.empty 2).isBacked false refusesTwice = true ∧ (Table.empty 2).NeverGrows refusesTwice :=
  ⟨rfl, neverGrows_of_isBacked 2 refusesTwice rfl⟩

end Table
end Thread
end Coop
