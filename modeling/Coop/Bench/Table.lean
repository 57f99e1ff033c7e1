import Coop.Stack.Pool
import Coop.Thread.Table

/-!
# A table of control blocks on the bench

A bench drives one part of the library by itself, one step after the other.
This one drives a table of control blocks that starts with a row of main
threads.
-/

namespace Coop
namespace Bench

open Thread (Block Handle Id Spec Table)

inductive NewBlock where
  | main
  | fresh (stackSize : Nat) (detached : Bool)
  deriving DecidableEq, Repr

inductive TableStep where
  | reserve
  | insert (id : Id) (block : NewBlock)
  | take (slot : Nat)
  | get (slot : Nat)
  | handle (slot : Nat)
  | lookup (h : Handle)
  | limit
  | live
  deriving DecidableEq, Repr

inductive TableResult where
  | reserved
  | slot (slot : Nat)
  | block (b : Option (Block Unit))
  | resolved (b : Option (Block Unit))
  | handle (h : Option Handle)
  | number (n : Nat)
  | refused (cause : Shortage)
  deriving DecidableEq, Repr

/-- A stack of at least so many bytes, from a pool of its own. -/
def newStack (bytes : Nat) : Except Shortage Stack :=
  (Pool.allocateBytes { budget := none } true bytes).1

def NewBlock.make (id : Id) : NewBlock → Except Shortage (Block Unit)
  | main => .ok (.main id)
  | fresh stackSize detached =>
      (newStack stackSize).map fun stack => .fresh id stack () { detached }

/--
A block whose stack got the canary, if it is to have one, and was then written
to.
-/
def prepare (b : Block Unit) (guarded : Bool) (writes : List (Nat × UInt8)) : Block Unit :=
  let write (stack : Stack) (w : Nat × UInt8) : Stack := (stack.poke? w.1 w.2).getD stack
  let use (stack : Stack) : Stack := writes.foldl write (if guarded then stack.guarded else stack)
  { b with stack := b.stack.map use }

/-- A table whose first slots hold main threads, numbered from one. -/
def rowOfMains (limit count : Nat) : Table Unit :=
  (List.range count).foldl
    (fun t slot =>
      let (_, t) := t.reserve .doubling .doubling
      (t.insert (.main (slot + 1))).2)
    (.empty limit)

def TableStep.perform (t : Table Unit) : TableStep → TableResult × Table Unit
  | reserve =>
      match t.reserve .doubling .doubling with
      | (.ok (), t) => (.reserved, t)
      | (.error cause, t) => (.refused cause, t)
  | insert id block =>
      match block.make id with
      | .error cause => (.refused cause, t)
      | .ok b =>
          let (slot, t) := t.insert b
          (.slot slot, t)
  | take slot =>
      let (b, t) := t.remove slot
      (.block b, t)
  | get slot => (.block (t.get? slot), t)
  | handle slot => (.handle (t.handle? slot), t)
  | lookup h => (.resolved (t.lookup h), t)
  | limit => (.number t.limit, t)
  | live => (.number t.live, t)

def handles (t : Table Unit) : List Handle :=
  t.toList.map fun entry => ⟨entry.1, entry.2.id⟩

end Bench
end Coop
