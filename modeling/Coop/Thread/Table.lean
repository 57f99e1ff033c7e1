import Coop.Error
import Coop.Fault
import Coop.Memory.Supply
import Coop.Thread.Block

/-!
# Table of control blocks

The table owns every control block and addresses it by slot.  A vacated slot is
used again before a new one is made, the one vacated last first.  Room for a
block, and for listing its slot as vacant later, is secured by `reserve` before
the block is stored, so that removing a block never needs memory.
-/

namespace Coop
namespace Thread

structure Table (β : Type) where
  slots : Array (Option (Block β)) := #[]
  /-- The vacant slots, the one vacated last first. -/
  vacant : List Nat := []
  live : Nat := 0
  limit : Nat
  slotRoom : Nat := 0
  vacantRoom : Nat := 0
  deriving DecidableEq, Repr

namespace Table

variable {β : Type}

def empty (limit : Nat) : Table β :=
  { limit }

/-!
# Looking at blocks
-/

def get? (t : Table β) (slot : Nat) : Option (Block β) :=
  t.slots[slot]?.join

def isOccupied (t : Table β) (slot : Nat) : Bool :=
  (t.get? slot).isSome

/-- The block a handle resolves to. -/
def lookup (t : Table β) (h : Handle) : Option (Block β) :=
  (t.get? h.slot).filter fun b => b.id = h.id

def handle? (t : Table β) (slot : Nat) : Option Handle :=
  (t.get? slot).map fun b => ⟨slot, b.id⟩

def link (t : Table β) (lane : Lane) (slot : Nat) : Link :=
  ((t.get? slot).map fun b => b.link lane).getD {}

def toList (t : Table β) : List (Nat × Block β) :=
  t.slots.toList.zipIdx.filterMap fun entry => entry.1.map fun b => (entry.2, b)

/-!
# Changing blocks
-/

def modify (t : Table β) (slot : Nat) (f : Block β → Block β) : Table β :=
  { t with slots := t.slots.modify slot (Option.map f) }

def modifyLink (t : Table β) (lane : Lane) (slot : Nat) (f : Link → Link) : Table β :=
  t.modify slot fun b => b.setLink lane (f (b.link lane))

/-- Secures room for one more block, now and when it is removed. -/
def reserve (t : Table β) (slots vacant : Growth) : Except Shortage Unit × Table β :=
  if t.limit ≤ t.live then
    (.error .threads, t)
  else if !t.vacant.isEmpty then
    (.ok (), t)
  else
    match slots.reserve t.slots.size t.slotRoom 1 with
    | none => (.error .controlBlocks, t)
    | some room =>
        let t := { t with slotRoom := room }
        match vacant.reserve t.vacant.length t.vacantRoom (t.slots.size + 1 - t.vacant.length) with
        | none => (.error .controlBlocks, t)
        | some room => (.ok (), { t with vacantRoom := room })

/-- Stores a block and answers its slot.  Room was secured by `reserve`. -/
def insert (t : Table β) (b : Block β) : Nat × Table β :=
  match t.vacant with
  | slot :: rest =>
      (slot,
        { t with
          slots := t.slots.setIfInBounds slot (some b)
          vacant := rest
          live := t.live + 1 })
  | [] =>
      (t.slots.size,
        { t with
          slots := t.slots.push (some b)
          live := t.live + 1
          slotRoom := max t.slotRoom (t.slots.size + 1) })

def remove (t : Table β) (slot : Nat) : Option (Block β) × Table β :=
  match t.get? slot with
  | none => (none, t)
  | some b =>
      (some b,
        { t with
          slots := t.slots.setIfInBounds slot none
          vacant := slot :: t.vacant
          live := t.live - 1
          vacantRoom := max t.vacantRoom (t.vacant.length + 1) })

/-!
# Expectations
-/

def reserveFaults (t : Table β) : List Fault :=
  if t.limit ≤ t.live || !t.vacant.isEmpty then
    []
  else
    Fault.vacantCount.unless (t.vacant.length ≤ t.slots.size + 1)

/-- Whether there is room for one more block, now and when it is removed. -/
def isReserved (t : Table β) : Bool :=
  t.live < t.limit &&
    (!t.vacant.isEmpty || (t.slots.size < t.slotRoom && t.slots.size < t.vacantRoom))

def insertFaults (t : Table β) : List Fault :=
  Fault.unreserved.unless t.isReserved ++
    match t.vacant with
    | [] => []
    | slot :: _ =>
        Fault.slotOutOfRange.unless (slot < t.slots.size) ++
          Fault.slotOccupied.unless (!t.isOccupied slot)

def removeFaults (t : Table β) (slot : Nat) : List Fault :=
  if t.isOccupied slot then
    Fault.liveCount.unless (0 < t.live) ++
      Fault.vacantGrowth.unless (t.vacant.length < t.vacantRoom)
  else
    []

/-!
# What looking sees after a change
-/

@[simp] theorem get?_empty (limit slot : Nat) : (empty limit : Table β).get? slot = none := by
  simp [empty, get?]

theorem get?_modify (t : Table β) (slot other : Nat) (f : Block β → Block β) :
    (t.modify slot f).get? other = if other = slot then (t.get? slot).map f else t.get? other := by
  by_cases h : other = slot
  · subst h
    simp [modify, get?, Array.getElem?_modify]
    cases t.slots[other]? <;> simp
  · simp [modify, get?, Array.getElem?_modify, h, Ne.symm h]

@[simp] theorem get?_modify_same (t : Table β) (slot : Nat) (f : Block β → Block β) :
    (t.modify slot f).get? slot = (t.get? slot).map f := by
  simp [get?_modify]

theorem get?_modify_of_ne (t : Table β) {slot other : Nat} (f : Block β → Block β)
    (h : other ≠ slot) : (t.modify slot f).get? other = t.get? other := by
  simp [get?_modify, h]

theorem lookup_eq_some_iff {t : Table β} {h : Handle} {b : Block β} :
    t.lookup h = some b ↔ t.get? h.slot = some b ∧ b.id = h.id := by
  simp [lookup, Option.filter_eq_some_iff]

theorem mem_toList {t : Table β} {slot : Nat} {b : Block β} :
    (slot, b) ∈ t.toList ↔ t.get? slot = some b := by
  simp [toList, get?, List.mem_zipIdx_iff_getElem?, Option.join_eq_some_iff]

end Table

end Thread
end Coop
