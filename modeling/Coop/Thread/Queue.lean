import Coop.Thread.Table

/-!
# Queues of control blocks

A queue of a lane stores only the slots of its first and last members and a
count of its members.  The links between the members are in their control blocks, so every
operation works on the queue and the table together.  Members join at the back
and leave from the front, or from anywhere.
-/

namespace Coop
namespace Thread

structure Queue (lane : Lane) where
  head : Option Nat := none
  tail : Option Nat := none
  /--
  How many joined less how many left.  It falls below zero only where a member of
  another queue is taken out of this one.
  -/
  len : Int := 0
  deriving DecidableEq, Repr

namespace Queue

variable {β : Type} {lane : Lane}

def isEmpty (q : Queue lane) : Bool :=
  q.head.isNone

def front (q : Queue lane) : Option Nat :=
  q.head

/-- Puts the block in a slot at the back.  A vacant slot is not queued. -/
def push (q : Queue lane) (t : Table β) (slot : Nat) : Queue lane × Table β :=
  if t.isOccupied slot then
    let t := t.modifyLink lane slot fun _ => { prev := q.tail, next := none, linked := true }
    match q.tail.filter t.isOccupied with
    | some last =>
        ({ q with tail := some slot, len := q.len + 1 },
          t.modifyLink lane last fun l => { l with next := some slot })
    | none => ({ head := some slot, tail := some slot, len := q.len + 1 }, t)
  else
    (q, t)

/--
Takes the block in a slot out of the queue, and answers whether it was queued.
-/
def remove (q : Queue lane) (t : Table β) (slot : Nat) : Bool × Queue lane × Table β :=
  match t.get? slot with
  | none => (false, q, t)
  | some b =>
      let link := b.link lane
      let t := t.modifyLink lane slot fun _ => {}
      if link.linked then
        let (q, t) :=
          match link.prev.filter t.isOccupied with
          | some prev => (q, t.modifyLink lane prev fun l => { l with next := link.next })
          | none => ({ q with head := link.next }, t)
        let (q, t) :=
          match link.next.filter t.isOccupied with
          | some next => (q, t.modifyLink lane next fun l => { l with prev := link.prev })
          | none => ({ q with tail := link.prev }, t)
        (true, { q with len := q.len - 1 }, t)
      else
        (false, q, t)

def pop (q : Queue lane) (t : Table β) : Option Nat × Queue lane × Table β :=
  match q.head with
  | none => (none, q, t)
  | some slot =>
      let (_, q, t) := q.remove t slot
      (some slot, q, t)

/-- The slots met on following the links from a slot, at most so many. -/
def follow (t : Table β) (lane : Lane) : Nat → Option Nat → List Nat
  | 0, _ => []
  | _ + 1, none => []
  | fuel + 1, some slot => slot :: follow t lane fuel (t.link lane slot).next

def take (q : Queue lane) (t : Table β) (count : Nat) : List Nat :=
  follow t lane count q.head

def toList (q : Queue lane) (t : Table β) : List Nat :=
  q.take t q.len.toNat

/-!
# Expectations
-/

def pushFaults (t : Table β) (lane : Lane) (slot : Nat) : List Fault :=
  Fault.queuedTwice.unless (!(t.link lane slot).linked)

def removeFaults (q : Queue lane) (t : Table β) (slot : Nat) : List Fault :=
  Fault.queueLength.unless (!(t.link lane slot).linked || 0 < q.len)

def popFaults (q : Queue lane) (t : Table β) : List Fault :=
  match q.head with
  | none => []
  | some slot => q.removeFaults t slot

end Queue

end Thread
end Coop
