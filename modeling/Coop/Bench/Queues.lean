import Coop.Bench.Table
import Coop.Thread.Queue

/-!
# Two queues over one table on the bench

One queue of each lane stands over the same table.  Between steps a bench shows
the members of its queues and their lengths.  A block may be taken out of the
table while it is queued.  What is left of its queue can run in a circle, so a
bench shows only as many members as its limit, or into another queue of the
lane, so a bench shows a length as the word that counts it.
-/

namespace Coop
namespace Bench

open Thread (Lane Queue Table)

def shownLimit : Nat := 40

def shown {lane : Lane} (q : Queue lane) (t : Table Unit) : List Nat :=
  q.take t shownLimit

/-- The length of a queue, or a sum of lengths, as the word of 64 bits a bench shows. -/
def shownLength (len : Int) : Nat :=
  (BitVec.ofInt 64 len).toNat

structure Queues where
  table : Table Unit
  ready : Queue .ready := {}
  wait : Queue .wait := {}
  deriving DecidableEq, Repr

inductive QueueStep where
  | push (slot : Nat)
  | pop
  | remove (slot : Nat)
  | front
  | length
  | isEmpty
  deriving DecidableEq, Repr

inductive QueuesStep where
  | onQueue (lane : Lane) (step : QueueStep)
  | onTable (step : TableStep)
  deriving DecidableEq, Repr

inductive QueuesResult where
  | done
  | slot (slot : Option Nat)
  | flag (b : Bool)
  | number (n : Nat)
  | table (result : TableResult)
  deriving DecidableEq, Repr

def QueueStep.perform {lane : Lane} (q : Queue lane) (t : Table Unit) :
    QueueStep → QueuesResult × Queue lane × Table Unit
  | push slot => (.done, q.push t slot)
  | pop =>
      let (slot, q, t) := q.pop t
      (.slot slot, q, t)
  | remove slot =>
      let (found, q, t) := q.remove t slot
      (.flag found, q, t)
  | front => (.slot q.front, q, t)
  | length => (.number (shownLength q.len), q, t)
  | isEmpty => (.flag q.isEmpty, q, t)

def QueuesStep.perform (s : Queues) : QueuesStep → QueuesResult × Queues
  | onQueue .ready step =>
      let (result, ready, table) := step.perform s.ready s.table
      (result, { s with ready, table })
  | onQueue .wait step =>
      let (result, wait, table) := step.perform s.wait s.table
      (result, { s with wait, table })
  | onTable step =>
      let (result, table) := step.perform s.table
      (.table result, { s with table })

end Bench
end Coop
