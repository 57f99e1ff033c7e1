import Coop.Proofs.Thread.Slots
import Coop.Thread.Queue

/-!
# Links of control blocks

The queues of one lane live in the links of that lane, so what a queue operation
does is said by the links that a table shows before and after it.  All else that
a table holds is its bare form, with every link blank: no queue operation
changes it.
-/

namespace Coop
namespace Thread

namespace Block

variable {β : Type}

def bare (b : Block β) : Block β :=
  { b with readyLink := {}, waitLink := {} }

@[simp] theorem bare_setLink (b : Block β) (lane : Lane) (link : Link) :
    (b.setLink lane link).bare = b.bare := by
  cases lane <;> rfl

@[simp] theorem id_bare (b : Block β) : b.bare.id = b.id := rfl

@[simp] theorem state_bare (b : Block β) : b.bare.state = b.state := rfl

@[simp] theorem joiner_bare (b : Block β) : b.bare.joiner = b.joiner := rfl

end Block

namespace Table

variable {β : Type}

def bare (t : Table β) : Table β :=
  { t with slots := t.slots.map (Option.map Block.bare) }

/-!
# The bare table
-/

@[simp] theorem get?_bare (t : Table β) (slot : Nat) :
    t.bare.get? slot = (t.get? slot).map Block.bare := by
  simp only [get?, bare, Array.getElem?_map]
  cases t.slots[slot]? <;> rfl

theorem slots_ext {t t' : Table β} (hsize : t'.slots.size = t.slots.size)
    (h : ∀ slot, t'.get? slot = t.get? slot) : t'.slots = t.slots := by
  apply Array.ext hsize
  intro i h1 h2
  have hi := h i
  simpa [get?, Array.getElem?_eq_getElem h1, Array.getElem?_eq_getElem h2] using hi

theorem modify_modify (t : Table β) (slot : Nat) (f g : Block β → Block β) :
    (t.modify slot f).modify slot g = t.modify slot fun b => g (f b) := by
  have hslots : ((t.modify slot f).modify slot g).slots =
      (t.modify slot fun b => g (f b)).slots := by
    apply slots_ext
    · simp [modify]
    · intro other
      by_cases h : other = slot
      · subst h
        cases hget : t.get? other <;> simp [hget]
      · simp [get?_modify, h]
  simp only [modify] at hslots ⊢
  rw [hslots]

theorem modify_eq_self {t : Table β} {slot : Nat} {f : Block β → Block β}
    (h : ∀ b, t.get? slot = some b → f b = b) : t.modify slot f = t := by
  have hslots : (t.modify slot f).slots = t.slots := by
    apply slots_ext
    · exact size_modify t slot f
    · intro other
      by_cases hother : other = slot
      · subst hother
        rw [get?_modify_same]
        cases hget : t.get? other with
        | none => rfl
        | some b => rw [Option.map_some, h b hget]
      · exact get?_modify_of_ne t f hother
  show { t with slots := (t.modify slot f).slots } = t
  rw [hslots]

theorem modify_modify_eq_self {t : Table β} {slot : Nat} {b : Block β} {f g : Block β → Block β}
    (hget : t.get? slot = some b) (hb : g (f b) = b) : (t.modify slot f).modify slot g = t := by
  rw [modify_modify]
  apply modify_eq_self
  intro b' hget'
  rw [hget] at hget'
  injection hget' with hget'
  subst hget'
  exact hb

theorem remove_modify {t : Table β} {slot : Nat} {b : Block β} (hget : t.get? slot = some b)
    (f : Block β → Block β) : ((t.modify slot f).remove slot).2 = (t.remove slot).2 := by
  have hslots : ((t.modify slot f).remove slot).2.slots = (t.remove slot).2.slots := by
    apply slots_ext
    · simp [remove, hget, size_modify]
    · intro other
      rw [get?_remove, get?_remove]
      by_cases h : other = slot
      · simp [h]
      · simp [get?_modify, h]
  simp only [remove, get?_modify_same, hget, Option.map_some] at hslots ⊢
  rw [hslots]
  rfl

/-- A change of blocks that their bare forms do not show. -/
theorem bare_modify_of_bare {t : Table β} {f : Block β → Block β} (slot : Nat)
    (hf : ∀ b, (f b).bare = b.bare) : (t.modify slot f).bare = t.bare := by
  have hslots : (t.modify slot f).bare.slots = t.bare.slots := by
    apply slots_ext
    · simp [bare, modify]
    · intro other
      by_cases h : other = slot
      · subst h
        cases hget : t.get? other <;> simp [hget, hf]
      · simp [get?_modify, h]
  simp only [bare, modify] at hslots ⊢
  rw [hslots]

theorem bare_modify {t : Table β} {f : Block β → Block β} (slot : Nat)
    (hf : ∀ b, (f b).bare = f b.bare) : (t.modify slot f).bare = t.bare.modify slot f := by
  have hslots : (t.modify slot f).bare.slots = (t.bare.modify slot f).slots := by
    apply slots_ext
    · simp [bare, modify]
    · intro other
      by_cases h : other = slot
      · subst h
        cases hget : t.get? other <;> simp [hget, hf]
      · simp [get?_modify, h]
  simp only [bare, modify] at hslots ⊢
  rw [hslots]

@[simp] theorem bare_modifyLink (t : Table β) (lane : Lane) (slot : Nat) (f : Link → Link) :
    (t.modifyLink lane slot f).bare = t.bare :=
  bare_modify_of_bare slot fun b => Block.bare_setLink b lane _

theorem Packed.of_bare {t : Table β} (h : t.bare.Packed) : t.Packed where
  vacant_nodup := h.vacant_nodup
  mem_vacant_iff := by
    intro slot
    have hslot := h.mem_vacant_iff slot
    rw [get?_bare, Option.map_eq_none_iff] at hslot
    simpa [bare] using hslot
  live_eq := by
    have hlive := h.live_eq
    have hsome : (Option.isSome ∘ Option.map Block.bare : Option (Block β) → Bool) =
        Option.isSome := by
      funext b
      cases b <;> rfl
    simp only [bare, Array.countP_map, hsome] at hlive
    exact hlive
  live_le := h.live_le

theorem bare_insert (t : Table β) (b : Block β) :
    (t.insert b).2.bare = (t.bare.insert b.bare).2 := by
  unfold insert bare
  cases t.vacant <;> simp

theorem nextSlot_bare (t : Table β) : t.bare.nextSlot = t.nextSlot := by
  simp [nextSlot, bare]

theorem bare_remove (t : Table β) (slot : Nat) :
    (t.remove slot).2.bare = (t.bare.remove slot).2 := by
  unfold remove
  rw [get?_bare]
  cases t.get? slot with
  | none => rfl
  | some b => simp [bare]

theorem bare_reserve (t : Table β) (slots vacant : Growth) :
    (t.reserve slots vacant).2.bare = (t.bare.reserve slots vacant).2 ∧
      (t.reserve slots vacant).1 = (t.bare.reserve slots vacant).1 := by
  have hsize : (t.slots.map (Option.map Block.bare)).size = t.slots.size := by simp
  unfold reserve bare
  rw [hsize]
  split
  · exact ⟨rfl, rfl⟩
  · split
    · exact ⟨rfl, rfl⟩
    · cases slots.reserve t.slots.size t.slotRoom 1 with
      | none => exact ⟨rfl, rfl⟩
      | some slotRoom =>
          cases hvacant : vacant.reserve t.vacant.length t.vacantRoom
              (t.slots.size + 1 - t.vacant.length) with
          | none => simp [hvacant]
          | some vacantRoom => simp [hvacant]

theorem lookup_bare (t : Table β) (h : Handle) :
    t.bare.lookup h = (t.lookup h).map Block.bare := by
  cases hget : t.get? h.slot with
  | none => simp [lookup, hget]
  | some b =>
      by_cases hid : b.id = h.id
      · simp [lookup, hget, Option.filter, hid]
      · simp [lookup, hget, Option.filter, hid]

/-!
# What links show after a change
-/

theorem isOccupied_of_linked {t : Table β} {lane : Lane} {slot : Nat}
    (h : (t.link lane slot).linked = true) : t.isOccupied slot = true := by
  cases hget : t.get? slot with
  | none => simp [link, hget] at h
  | some b => simp [isOccupied, hget]

theorem link_eq_of_get? {t : Table β} {slot : Nat} {b : Block β} (h : t.get? slot = some b)
    (lane : Lane) : t.link lane slot = b.link lane := by
  simp [link, h]

theorem link_eq_of_get?_none {t : Table β} {slot : Nat} (h : t.get? slot = none) (lane : Lane) :
    t.link lane slot = {} := by
  simp [link, h]

theorem link_modify {t : Table β} {f : Block β → Block β} {lane : Lane}
    (hf : ∀ b, (f b).link lane = b.link lane) (slot other : Nat) :
    (t.modify slot f).link lane other = t.link lane other := by
  by_cases h : other = slot
  · subst h
    cases hget : t.get? other <;> simp [link, hget, hf]
  · simp [link, get?_modify, h]

theorem link_modifyLink_same {t : Table β} {lane : Lane} {slot : Nat} {f : Link → Link}
    (h : t.isOccupied slot = true) :
    (t.modifyLink lane slot f).link lane slot = f (t.link lane slot) := by
  rcases isOccupied_eq_true_iff.mp h with ⟨b, hget⟩
  simp [link, modifyLink, hget]

theorem link_modifyLink_of_ne {t : Table β} {lane : Lane} {slot other : Nat} {f : Link → Link}
    (h : other ≠ slot) : (t.modifyLink lane slot f).link lane other = t.link lane other := by
  simp [link, modifyLink, get?_modify, h]

theorem link_modifyLink_of_lane_ne {t : Table β} {lane lane' : Lane} {f : Link → Link}
    (h : lane' ≠ lane) (slot other : Nat) :
    (t.modifyLink lane slot f).link lane' other = t.link lane' other :=
  link_modify (fun b => Block.link_setLink_of_ne b _ h) slot other

@[simp] theorem isOccupied_modifyLink (t : Table β) (lane : Lane) (slot other : Nat)
    (f : Link → Link) : (t.modifyLink lane slot f).isOccupied other = t.isOccupied other :=
  isOccupied_modify t slot other _

end Table
end Thread
end Coop
