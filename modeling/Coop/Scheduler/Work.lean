import Coop.Notice
import Coop.Scheduler.Basic

/-!
# Work in progress

An operation of the scheduler is a sequence of steps.  A step changes the state,
may report a notice, and records a fault if something it relies on is false.
This module holds the steps; an operation strings them together and ends in an
outcome.
-/

namespace Coop

open Thread (Block Handle Id Queue Spec)

/--
A scheduler in the middle of an operation, with what the operation reported so
far.
-/
structure Work (β : Type) where
  scheduler : Scheduler β
  notices : List Notice := []
  faults : List Fault := []
  deriving DecidableEq, Repr

structure Outcome (β α : Type) extends Work β where
  result : Except Error α

def Scheduler.work {β : Type} (s : Scheduler β) : Work β :=
  { scheduler := s }

namespace Outcome

variable {β α γ : Type}

def map (f : α → γ) (o : Outcome β α) : Outcome β γ :=
  { o.toWork with result := o.result.map f }

end Outcome

namespace Work

variable {β α : Type}

def succeed (w : Work β) (a : α) : Outcome β α :=
  { w with result := .ok a }

def fail (w : Work β) (e : Error) : Outcome β α :=
  { w with result := .error e }

def misuse (w : Work β) (m : Misuse) : Outcome β α :=
  w.fail (.misuse m)

def update (w : Work β) (f : Scheduler β → Scheduler β) : Work β :=
  { w with scheduler := f w.scheduler }

def count (w : Work β) (f : Counters → Counters) : Work β :=
  w.update fun s => { s with counters := f s.counters }

def notice (w : Work β) (n : Notice) : Work β :=
  { w with notices := w.notices ++ [n] }

def expect (w : Work β) (faults : List Fault) : Work β :=
  { w with faults := w.faults ++ faults }

/-!
# Control blocks
-/

def modify (w : Work β) (slot : Nat) (f : Block β → Block β) : Work β :=
  w.update fun s => { s with table := s.table.modify slot f }

def reserve (w : Work β) (supply : Supply) : Except Shortage Unit × Work β :=
  let (answer, table) := w.scheduler.table.reserve supply.slots supply.vacant
  (answer,
    w.expect w.scheduler.table.reserveFaults |>.update fun s => { s with table })

def freshId (w : Work β) : Id × Work β :=
  (w.scheduler.nextId, w.update fun s => { s with nextId := s.nextId + 1 })

def insert (w : Work β) (b : Block β) : Nat × Work β :=
  let (slot, table) := w.scheduler.table.insert b
  (slot, w.expect w.scheduler.table.insertFaults |>.update fun s => { s with table })

def remove (w : Work β) (slot : Nat) : Option (Block β) × Work β :=
  let (b, table) := w.scheduler.table.remove slot
  (b, w.expect (w.scheduler.table.removeFaults slot) |>.update fun s => { s with table })

/-!
# Queues
-/

def makeReady (w : Work β) (slot : Nat) : Work β :=
  let table := w.scheduler.table.modify slot Block.ready
  let (ready, table') := w.scheduler.ready.push table slot
  w.expect (Queue.pushFaults table .ready slot) |>.update fun s =>
    { s with ready, table := table' }

def takeReady (w : Work β) : Option Nat × Work β :=
  let (slot, ready, table) := w.scheduler.ready.pop w.scheduler.table
  (slot,
    w.expect (w.scheduler.ready.popFaults w.scheduler.table) |>.update fun s =>
      { s with ready, table })

/--
Takes a thread out of the ready queue, wherever it stands, and answers whether
it stood there.
-/
def unready (w : Work β) (slot : Nat) : Bool × Work β :=
  let (found, ready, table) := w.scheduler.ready.remove w.scheduler.table slot
  (found,
    w.expect (w.scheduler.ready.removeFaults w.scheduler.table slot) |>.update fun s =>
      { s with ready, table })

def park (w : Work β) (slot : Nat) (line : Line) : Work β :=
  let (waits, table) := w.scheduler.waits.park w.scheduler.table slot line
  w.expect (Queue.pushFaults w.scheduler.table .wait slot) |>.update fun s =>
    { s with waits, table }

def takeWaiter (w : Work β) (line : Line) : Option Nat × Work β :=
  let (slot, waits, table) := w.scheduler.waits.pop w.scheduler.table line
  (slot,
    w.expect ((w.scheduler.waits.bucket line).popFaults w.scheduler.table) |>.update fun s =>
      { s with waits, table })

/--
Makes waiters of a line ready, longest wait first, at most so many; answers how
many.
-/
def drain (line : Line) : Nat → Work β → Nat × Work β
  | 0, w => (0, w)
  | fuel + 1, w =>
      match w.takeWaiter line with
      | (none, w) => (0, w)
      | (some slot, w) =>
          let (woken, w) := drain line fuel ((w.modify slot Block.unpark).makeReady slot)
          (woken + 1, w)

/--
Makes every waiter of a line ready, longest wait first; answers how many there
were.  Each of them leaves its bucket for good, so there are no more of them than
slots.
-/
def wake (w : Work β) (line : Line) : Nat × Work β :=
  w.drain line w.scheduler.table.slots.size

/-!
# Stacks
-/

def allocate (w : Work β) (supply : Supply) (bytes : Nat) : Except Shortage Stack × Work β :=
  let (answer, pool) := w.scheduler.pool.allocateBytes supply.stack bytes
  (answer,
    w.expect (w.scheduler.pool.allocateBytesFaults bytes) |>.update fun s => { s with pool })

def release (w : Work β) (supply : Supply) (stack : Stack) : Work β :=
  w.expect (w.scheduler.pool.releaseFaults supply.cache stack) |>.update fun s =>
    { s with pool := s.pool.release supply.cache stack }

def releaseAny (w : Work β) (supply : Supply) : Option Stack → Work β
  | none => w
  | some stack => w.release supply stack

/--
Keeps the stack of an exiting thread aside, and returns the one that was aside
before.
-/
def retire (w : Work β) (supply : Supply) (stack : Stack) : Work β :=
  (w.update fun s => { s with graveyard := some stack }).releaseAny supply w.scheduler.graveyard

def checkStack (w : Work β) (slot : Nat) : Work β :=
  match w.scheduler.table.get? slot with
  | none => w
  | some b =>
      if w.scheduler.config.stackCanary && !b.isIntact then w.notice (.overflow b.id) else w

/-!
# Ends of threads, and changes of the running thread
-/

/-- Frees the control block and the stack of a thread that is not running. -/
def reclaim (w : Work β) (supply : Supply) (slot : Nat) : Work β :=
  match w.remove slot with
  | (none, w) => w
  | (some b, w) =>
      (w.releaseAny supply b.stack).count (fun c => { c with reclaimed := c.reclaimed + 1 })
        |>.notice (.reclaimed b.id)

/--
Frees the control block of a thread that is still running, and keeps its stack
aside.
-/
def bury (w : Work β) (supply : Supply) (slot : Nat) : Work β :=
  match w.remove slot with
  | (none, w) => w
  | (some b, w) =>
      let w :=
        match b.stack with
        | none => w
        | some stack => w.retire supply stack
      w.count fun c => { c with reclaimed := c.reclaimed + 1 }

/-- Makes the joiner of an exiting thread ready, if it has one that still lives. -/
def wakeJoiner (w : Work β) (id : Id) (joiner : Option Handle) : Work β :=
  match joiner with
  | none => w
  | some h =>
      if (w.scheduler.table.lookup h).isSome then
        (w.makeReady h.slot).notice (.wakesJoiner id h.id)
      else
        w

/-- Hands the processor to the first ready thread. -/
def dispatch (w : Work β) (source : Handle) : Outcome β Transfer :=
  match w.takeReady with
  | (none, w) => w.fail .noRunnableThread
  | (some slot, w) =>
      match w.scheduler.table.get? slot with
      | none => w.misuse .invalidHandle
      | some b =>
          let w := w.modify slot Block.run |>.update fun s => { s with current := some slot }
          let w := w.count fun c => { c with contextSwitches := c.contextSwitches + 1 }
          (w.notice (.switched source.id b.id)).succeed ⟨source, ⟨slot, b.id⟩⟩

end Work

end Coop
