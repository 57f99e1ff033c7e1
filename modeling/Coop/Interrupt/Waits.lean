import Coop.Interrupt.Line
import Coop.Thread.Queue

/-!
# Waiting for interrupts

Each interrupt line has a bucket: the queue of the threads parked on it, in the
order in which they began to wait.
-/

namespace Coop

open Thread (Lane Queue Table)

structure Waits where
  buckets : Vector (Queue .wait) 32 := Vector.replicate 32 {}
  deriving DecidableEq, Repr

namespace Waits

variable {β : Type}

def bucket (w : Waits) (line : Line) : Queue .wait :=
  w.buckets[line]

def setBucket (w : Waits) (line : Line) (q : Queue .wait) : Waits :=
  { w with buckets := w.buckets.set line q }

def waiting (w : Waits) (line : Line) : Int :=
  (w.bucket line).len

def total (w : Waits) : Int :=
  w.buckets.toList.foldr (fun q count => q.len + count) 0

def park (w : Waits) (t : Table β) (slot : Nat) (line : Line) : Waits × Table β :=
  let t := t.modify slot fun b => b.park line
  let (q, t) := (w.bucket line).push t slot
  (w.setBucket line q, t)

/-- Takes the thread that has waited longest out of a line's bucket. -/
def pop (w : Waits) (t : Table β) (line : Line) : Option Nat × Waits × Table β :=
  let (slot, q, t) := (w.bucket line).pop t
  (slot, w.setBucket line q, t)

@[simp] theorem bucket_setBucket_same (w : Waits) (line : Line) (q : Queue .wait) :
    (w.setBucket line q).bucket line = q := by
  simp [bucket, setBucket]

theorem bucket_setBucket_of_ne (w : Waits) {line other : Line} (q : Queue .wait)
    (h : other ≠ line) : (w.setBucket line q).bucket other = w.bucket other := by
  have hne : (line : Nat) ≠ other := fun e => h (Fin.ext e.symm)
  simp [bucket, setBucket, hne]

end Waits

end Coop
