import Coop.Bench.Queues
import Coop.Scheduler.Work

/-!
# Ready queue and interrupt buckets on the bench

The queues of a scheduler are driven one by one, without the operations that
keep them in step.
-/

namespace Coop
namespace Bench

inductive WaitingStep where
  | park (slot : Nat) (line : Line)
  | wake (line : Line)
  | waiting (line : Line)
  | bucket (line : Line)
  | push (slot : Nat)
  | pop
  | remove (slot : Nat)
  | isEmpty
  | onTable (step : TableStep)
  deriving DecidableEq, Repr

inductive WaitingResult where
  | done
  | slot (slot : Option Nat)
  | slots (slots : List Nat)
  | flag (b : Bool)
  | number (n : Nat)
  | table (result : TableResult)
  deriving DecidableEq, Repr

/-- A scheduler over a row of main threads, none of them queued. -/
def waitingRoom (limit count : Nat) : Scheduler Unit :=
  { config := {}, table := rowOfMains limit count, pool := { budget := none } }

def WaitingStep.perform (s : Scheduler Unit) : WaitingStep → WaitingResult × Scheduler Unit
  | park slot line => (.done, (s.work.park slot line).scheduler)
  | wake line =>
      let (woken, w) := s.work.wake line
      (.number woken, w.scheduler)
  | waiting line => (.number (shownLength (s.waits.waiting line)), s)
  | bucket line => (.slots (shown (s.waits.bucket line) s.table), s)
  | push slot => (.done, (s.work.makeReady slot).scheduler)
  | pop =>
      let (slot, w) := s.work.takeReady
      (.slot slot, w.scheduler)
  | remove slot =>
      let (found, w) := s.work.unready slot
      (.flag found, w.scheduler)
  | isEmpty => (.flag s.ready.isEmpty, s)
  | onTable step =>
      let (result, table) := step.perform s.table
      (.table result, { s with table })

end Bench
end Coop
