/-!
# Broken expectations

Some steps of the library rest on facts that the code around them has to
guarantee: a control block is queued at most once, a count is never lowered
below zero, an index is in range.  Each such fact is checked where it is used,
and a `Fault` records a check that failed.  The step then goes on as well as it
can; no fault should ever be recorded.
-/

namespace Coop

/-- An expectation that turned out false. -/
inductive Fault where
  /-- A control block was pushed on a queue while linked into one of that kind. -/
  | queuedTwice
  /-- A queue's length was lowered below zero. -/
  | queueLength
  | slotOccupied
  | slotOutOfRange
  | unreserved
  /-- Listing a slot as vacant needed memory. -/
  | vacantGrowth
  /-- The number of live threads was lowered below zero. -/
  | liveCount
  /-- More slots are listed as vacant than there are slots. -/
  | vacantCount
  /-- The number of stacks handed out was lowered below zero. -/
  | inUseCount
  /-- The number of bytes held for stacks was lowered below zero. -/
  | reservedBytes
  deriving DecidableEq, Repr

def Fault.unless (f : Fault) (expected : Bool) : List Fault :=
  if expected then [] else [f]

end Coop
