import Coop.System.Call

/-!
# Scripts

A script is thread code written as a list of steps.  Threads are named by
labels, which all scripts of a run share.  Any recorded step may name a thread,
and one whose label no thread has is refused.  A step is recorded, with its
result, when it returns.
-/

namespace Coop
namespace Script

open Thread (Spec)

abbrev Label := String

inductive PlainCall where
  | init
  | isInitialized
  | spawnIdle
  | yield
  | wait (line : Line)
  | interrupt (line : Line)
  | interrupts (mask : Mask)
  | current
  | waiting (line : Line)
  | stats
  | poolStats
  deriving DecidableEq, Repr

inductive LabelledCall where
  | join
  | tryJoin
  | detach
  | state
  | isDetached
  | exitCode
  | name
  deriving DecidableEq, Repr

/-- A call to whichever runtime is registered for the whole program. -/
inductive GlobalCall where
  | yield
  | wait (line : Line)
  | interrupt (line : Line)
  | interrupts (mask : Mask)
  | current
  deriving DecidableEq, Repr

inductive Refusal where
  /-- No thread has this label, or the step lacks one. -/
  | badRef
  | badLine
  | badInput
  /-- Only the processor of a host can register a runtime. -/
  | simulated
  /-- The stack asked for is too small to run on. -/
  | hostStack
  /-- The thread would wait for itself. -/
  | alreadyHeld
  /-- Without a runtime to yield on, waiting for the mutex would never end. -/
  | wouldSpin
  | notHeld
  /-- The processor cannot be halted with interrupts off. -/
  | masked
  deriving DecidableEq, Repr

inductive Action where
  | call (c : PlainCall)
  | spawn (script : Nat) (label : Option Label) (spec : Spec)
  | onThread (c : LabelledCall)
  | exit (code : Int32)
  | interruptsEnabled
  | halt
  | mask
  | unmask
  | lock (m : Nat)
  | tryLock (m : Nat)
  | unlock (m : Nat)
  | isLocked (m : Nat)
  | add (m : Nat) (value : Int32)
  | register
  | isRegistered
  | callGlobal (c : GlobalCall)
  | exitGlobal (code : Int32)
  | lockGlobal (m : Nat)
  | refuse (r : Refusal)
  deriving DecidableEq, Repr

/--
One step of a script.  The first kind is recorded under its name, and may carry
the label of a thread.
-/
inductive Step where
  | act (name : String) (label : Option Label) (action : Action)
  | repeat (count : Nat) (body : List Step)
  /-- Runs the body while more threads than that are alive. -/
  | whileLive (above : Nat) (body : List Step)
  /-- Ends the script with a code, or with the code of the last join. -/
  | return (code : Option Int32)

inductive Result where
  | answer (r : Except Error Reply)
  | done
  | flag (b : Bool)
  | number (n : Nat)
  | code (value : Int32)
  | locked (data : Int32)
  | busy
  | refused (r : Refusal)

structure Record where
  name : String
  result : Result

end Script
end Coop
