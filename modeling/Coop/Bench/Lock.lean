import Coop.Mutex

/-!
# A mutex on the bench

One mutex, and one place for its guard.  The mutex is locked, its data changed
through the guard, and let go, until it is taken apart for its data.
-/

namespace Coop
namespace Bench

structure Lock where
  mutex : Mutex Int32
  held : Bool := false
  deriving DecidableEq, Repr

inductive LockStep where
  | tryLock
  | lock
  | set (value : Int32)
  | unlock
  | isLocked
  | intoInner
  deriving DecidableEq, Repr

inductive LockResult where
  | locked (data : Int32)
  | busy
  /--
  Waiting for the mutex would never end: its guard is held by the one who asks.
  -/
  | wouldSpin
  | data (value : Int32)
  | notHeld
  | flag (b : Bool)
  /-- The mutex was taken apart before. -/
  | consumed
  deriving DecidableEq, Repr

namespace Lock

def attempt (l : Lock) (refused : LockResult) : LockResult × Lock :=
  match l.mutex.tryLock? with
  | some mutex => (.locked mutex.data, ⟨mutex, true⟩)
  | none => (refused, l)

def drop (l : Lock) : Lock :=
  if l.held then ⟨l.mutex.unlock, false⟩ else l

def perform (l : Lock) : LockStep → LockResult × Option Lock
  | .tryLock =>
      let (result, l) := l.attempt .busy
      (result, some l)
  | .lock =>
      let (result, l) := l.attempt .wouldSpin
      (result, some l)
  | .set value =>
      if l.held then
        (.data value, some { l with mutex := l.mutex.update fun _ => value })
      else
        (.notHeld, some l)
  | .unlock => (.flag l.held, some l.drop)
  | .isLocked => (.flag l.mutex.locked, some l)
  | .intoInner => (.data l.drop.mutex.data, none)

end Lock

def LockStep.perform (step : LockStep) : Option Lock → LockResult × Option Lock
  | none => (.consumed, none)
  | some l => l.perform step

end Bench
end Coop
