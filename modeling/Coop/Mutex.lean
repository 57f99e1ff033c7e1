/-!
# Mutexes

A mutex owns its data and gives out at most one guard at a time.  Taking it
never waits: an attempt answers at once whether it succeeded.  A thread that
wants to wait yields between attempts, which lets the holder of the guard run
and let go.  Who holds the guard is not the mutex's business: it only knows
whether there is one.
-/

namespace Coop

structure Mutex (α : Type) where
  data : α
  /-- Whether there is a guard. -/
  locked : Bool := false
  deriving DecidableEq, Repr

namespace Mutex

variable {α : Type}

def tryLock? (m : Mutex α) : Option (Mutex α) :=
  if m.locked then none else some { m with locked := true }

def unlock (m : Mutex α) : Mutex α :=
  { m with locked := false }

def update (m : Mutex α) (f : α → α) : Mutex α :=
  { m with data := f m.data }

theorem tryLock?_of_locked {m : Mutex α} (h : m.locked = true) : m.tryLock? = none :=
  if_pos h

theorem tryLock?_of_free {m : Mutex α} (h : m.locked = false) :
    m.tryLock? = some { m with locked := true } :=
  if_neg (Bool.eq_false_iff.mp h)

end Mutex

end Coop
