/-!
# Errors

An operation of the runtime is refused for one of three reasons: something it
needed ran short, the caller broke the rules of the thread protocol, or no other
thread could take over the processor.  Each cause is a value, and `message`
holds its wording.
-/

namespace Coop

inductive Shortage where
  | threads
  | controlBlocks
  /-- The allocator or the stack budget refused a stack. -/
  | stack (requested : Nat)
  /-- No size class is large enough. -/
  | stackTooLarge (requested : Nat)
  deriving DecidableEq, Repr

namespace Shortage

def message : Shortage → String
  | threads => "Maximum number of threads reached"
  | controlBlocks => "Out of memory for thread control blocks"
  | stack requested => s!"Out of memory for a {requested} byte stack"
  | stackTooLarge requested => s!"Stack size too large: {requested}"

end Shortage

inductive Misuse where
  | notInitialized
  | alreadyInitialized
  /-- The handle names a thread that was reclaimed, or one that never was. -/
  | invalidHandle
  | joinSelf
  | detached
  | alreadyJoined
  | stillRunning
  | wrongState
  deriving DecidableEq, Repr

namespace Misuse

def message : Misuse → String
  | notInitialized => "Runtime not initialized"
  | alreadyInitialized => "Runtime already initialized"
  | invalidHandle => "Invalid thread handle"
  | joinSelf => "A thread cannot join itself"
  | detached => "Thread is detached"
  | alreadyJoined => "Thread already has a joiner"
  | stillRunning => "Thread has not exited"
  | wrongState => "Operation called in wrong state"

end Misuse

inductive Error where
  | shortage (cause : Shortage)
  | misuse (cause : Misuse)
  /-- The caller would give up the processor and no thread is ready to take it. -/
  | noRunnableThread
  deriving DecidableEq, Repr

namespace Error

/--
The wording of the cause alone; the third kind of error has no cause of its own.
-/
def detail : Error → String
  | shortage cause => cause.message
  | misuse cause => cause.message
  | noRunnableThread => ""

def message : Error → String
  | shortage cause => "Resource exhausted: " ++ cause.message
  | misuse cause => "Invalid operation: " ++ cause.message
  | noRunnableThread => "No runnable thread available"

/--
Whether the error shows a broken scheduling contract: some thread must always
stay ready.
-/
def isFatal : Error → Bool
  | noRunnableThread => true
  | _ => false

end Error

end Coop
