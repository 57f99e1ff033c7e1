import Coop.Scheduler.Basic

/-!
# Calls

What thread code can ask of the runtime, what it is told, and how a call can end
the whole program.
-/

namespace Coop

open Thread (Handle Spec)

inductive Call (β : Type) where
  | init
  | isInitialized
  | spawn (spec : Spec) (body : β)
  | yield
  | wait (line : Line)
  | exit (code : Int32)
  | join (target : Handle)
  | tryJoin (target : Handle)
  | detach (target : Handle)
  | interrupt (line : Line)
  | interrupts (mask : Mask)
  | current
  | state (target : Handle)
  | isDetached (target : Handle)
  | exitCode (target : Handle)
  | name (target : Handle)
  | waiting (line : Line)
  | stats
  | poolStats
  deriving DecidableEq, Repr

inductive Reply where
  | done
  | initialized (b : Bool)
  | detached (b : Bool)
  | handle (h : Handle)
  | code (code : Int32)
  | joinAttempt (code : Option Int32)
  | count (n : Nat)
  | state (s : Thread.State)
  | name (n : Option String)
  | stats (s : Stats)
  | poolStats (allocated deallocated inUse : Nat)
  deriving DecidableEq, Repr

def Reply.ofPool (p : Pool) : Reply :=
  .poolStats p.allocated p.deallocated p.inUse

inductive Panic where
  | cannotExit (cause : Error)
  | exitedThreadResumed
  /-- The running thread wanted to exit and there was no runtime to tell. -/
  | exitWithoutRuntime
  deriving DecidableEq, Repr

namespace Panic

def message : Panic → String
  | cannotExit cause => "cothread: thread cannot exit: " ++ cause.message
  | exitedThreadResumed =>
      "internal error: entered unreachable code: cothread: exited thread resumed"
  | exitWithoutRuntime =>
      "cothread: exit without a runtime: " ++ (Error.misuse .notInitialized).message

end Panic

/-- The idle thread cannot be joined, and has a name of its own. -/
def Thread.Spec.idle : Spec :=
  { detached := true, name := some "idle" }

end Coop
