import Coop.Config
import Coop.Interrupt.Waits
import Coop.Stack.Pool
import Coop.Thread.Queue

/-!
# State of the scheduler

The scheduler of one processor: a table of control blocks, the queue of ready
threads, the threads that wait for interrupts, the pool of stacks, and which
thread is running.  This module holds the state and the questions that can be
asked of it.
-/

namespace Coop

open Thread (Block Handle Id Queue Table)

structure Counters where
  spawned : Nat := 0
  exited : Nat := 0
  reclaimed : Nat := 0
  contextSwitches : Nat := 0
  interruptWakeups : Nat := 0
  deriving DecidableEq, Repr

structure Stats extends Counters where
  liveThreads : Nat
  readyThreads : Nat
  waitingThreads : Nat
  deriving DecidableEq, Repr

structure Scheduler (β : Type) where
  config : Config
  table : Table β
  ready : Queue .ready := {}
  waits : Waits := {}
  pool : Pool
  /-- The slot of the running thread, once there is one. -/
  current : Option Nat := none
  nextId : Id := 1
  /-- The stack of a detached thread that exited and may still be running on it. -/
  graveyard : Option Stack := none
  counters : Counters := {}
  deriving DecidableEq, Repr

structure Transfer where
  source : Handle
  target : Handle
  deriving DecidableEq, Repr

namespace Scheduler

variable {β : Type}

def create (config : Config) : Scheduler β :=
  { config, table := .empty config.maxThreads, pool := { budget := config.stackBudget } }

def isInitialized (s : Scheduler β) : Bool :=
  s.current.isSome

def currentSlot (s : Scheduler β) : Except Error Nat :=
  match s.current with
  | some slot => .ok slot
  | none => .error (.misuse .notInitialized)

def running (s : Scheduler β) : Except Error Handle :=
  match s.current with
  | none => .error (.misuse .notInitialized)
  | some slot =>
      match s.table.handle? slot with
      | none => .error (.misuse .invalidHandle)
      | some h => .ok h

def resolve (s : Scheduler β) (h : Handle) : Except Error (Block β) :=
  match s.table.lookup h with
  | some b => .ok b
  | none => .error (.misuse .invalidHandle)

def state (s : Scheduler β) (h : Handle) : Except Error Thread.State :=
  (s.resolve h).map Block.state

def isDetached (s : Scheduler β) (h : Handle) : Except Error Bool :=
  (s.resolve h).map Block.isDetached

def name (s : Scheduler β) (h : Handle) : Except Error (Option String) :=
  (s.resolve h).map Block.name

def exitCode (s : Scheduler β) (h : Handle) : Except Error Int32 :=
  match s.resolve h with
  | .error e => .error e
  | .ok b =>
      match b.exitCode with
      | none => .error (.misuse .stillRunning)
      | some code => .ok code

/-- The stack of a thread, if it is one of the scheduler's. -/
def stack? (s : Scheduler β) (h : Handle) : Except Error (Option Stack) :=
  (s.resolve h).map Block.stack

/-- A thread writes a byte to its stack.  A write outside of it is not made. -/
def writeStack (s : Scheduler β) (h : Handle) (offset : Nat) (byte : UInt8) : Scheduler β :=
  match s.table.lookup h with
  | none => s
  | some _ =>
      { s with
        table := s.table.modify h.slot fun b =>
          { b with stack := b.stack.map fun stack => (stack.poke? offset byte).getD stack } }

def waitingOn (s : Scheduler β) (line : Line) : Nat :=
  (s.waits.waiting line).toNat

def stats (s : Scheduler β) : Stats :=
  { s.counters with
    liveThreads := s.table.live
    readyThreads := s.ready.len.toNat
    waitingThreads := s.waits.total.toNat }

end Scheduler

end Coop
