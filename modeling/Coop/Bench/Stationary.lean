import Coop.Bench.Scheduling
import Coop.System.Basic

/-!
# A runtime without switches on the bench

Here switching the processor does nothing.  A call that gives up the processor
comes straight back, and the caller then plays whichever thread is current.
Bodies never run.
-/

namespace Coop
namespace Bench

open Thread (Handle Spec)

/-- A runtime and the handles it has issued, in the order of their identifiers. -/
structure Stationary where
  system : System Unit
  issued : Array Handle := #[]
  deriving DecidableEq, Repr

inductive ThreadCall where
  | join
  | tryJoin
  | detach
  | state
  | isDetached
  | exitCode
  | name
  deriving DecidableEq, Repr

def ThreadCall.on (h : Handle) : ThreadCall → Call Unit
  | join => .join h
  | tryJoin => .tryJoin h
  | detach => .detach h
  | state => .state h
  | isDetached => .isDetached h
  | exitCode => .exitCode h
  | name => .name h

inductive StationaryStep where
  | init
  | spawn (spec : Spec)
  /-- A call that creates no thread and needs none. -/
  | plain (call : Call Unit)
  | onThread (call : ThreadCall)
  /-- Halts the processor, which goes on at once. -/
  | halt
  /-- Whether interrupts are on; they cannot be turned off here. -/
  | interruptsEnabled
  | refuse (r : Refusal)
  deriving DecidableEq, Repr

inductive StationaryResult where
  | ended (e : Ending)
  | refused (r : Refusal)
  | done
  | flag (b : Bool)

structure StationaryStepped where
  result : StationaryResult
  notices : List Notice := []
  next : Stationary

namespace Stationary

/-- Makes a call, and goes on with it at once if it gave up the processor. -/
def call (s : Stationary) (c : Call Unit) : Stage Unit Ending :=
  let begun := s.system.begin .ample c
  match begun.value with
  | .ended e => begun.map fun _ => e
  | .switch _ resume => begun.andThen fun system => system.finish .ample resume

def perform (s : Stationary) (c : Call Unit) : StationaryStepped :=
  let stage := s.call c
  { result := .ended stage.value
    notices := stage.notices
    next := { s with system := stage.system } }

def performNew (s : Stationary) (c : Call Unit) : StationaryStepped :=
  let stepped := s.perform c
  match stepped.result with
  | .ended (.answer (.ok (.handle h))) =>
      { stepped with next := { stepped.next with issued := s.issued.push h } }
  | _ => stepped

end Stationary

def StationaryStep.perform (s : Stationary) (named : Option Handle) :
    StationaryStep → StationaryStepped
  | init => s.performNew .init
  | spawn spec => s.performNew (.spawn spec ())
  | plain c => s.perform c
  | onThread c =>
      match named with
      | none => { result := .refused .badRef, next := s }
      | some h => s.perform (c.on h)
  | halt => { result := .done, next := s }
  | interruptsEnabled => { result := .flag true, next := s }
  | refuse r => { result := .refused r, next := s }

def Stationary.obey (s : Stationary) (o : Order StationaryStep) : StationaryStepped :=
  match o.named s.issued with
  | .error r => { result := .refused r, next := s }
  | .ok named => o.step.perform s named

end Bench
end Coop
