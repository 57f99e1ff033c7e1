import Coop.Interrupt.Line
import Coop.Stack.Basic
import Coop.Thread.Basic

/-!
# Control blocks

A control block holds all that the runtime knows about one thread.  It carries a
link for each lane: a lane is a kind of queue, and a thread stands in at most
one queue of each lane.  The type of thread bodies is a parameter, because the
scheduler only keeps a body until its thread first runs.
-/

namespace Coop
namespace Thread

/-- The kinds of queue a control block has a link for. -/
inductive Lane where
  | ready
  | wait
  deriving DecidableEq, Repr

structure Link where
  prev : Option Nat := none
  next : Option Nat := none
  linked : Bool := false
  deriving DecidableEq, Repr

structure Block (β : Type) where
  id : Id
  state : State
  flags : Flags
  /-- The main thread runs on a stack that is not the runtime's. -/
  stack : Option Stack := none
  /-- What the thread will run, until it starts. -/
  body : Option β := none
  exitCode : Option Int32 := none
  joiner : Option Handle := none
  line : Option Line := none
  readyLink : Link := {}
  waitLink : Link := {}
  name : Option String := none
  deriving DecidableEq, Repr

namespace Block

variable {β : Type}

def main (id : Id) : Block β :=
  { id, state := .running, flags := { detached := true }, name := some "main" }

def fresh (id : Id) (stack : Stack) (body : β) (spec : Spec) : Block β :=
  { id, state := .ready, flags := { detached := spec.detached }, stack := some stack
    body := some body, name := spec.name }

def isDetached (b : Block β) : Bool :=
  b.flags.detached

def isWaiting (b : Block β) : Bool :=
  b.flags.waiting

/--
Whether the stack shows no overflow; a thread without a stack of the runtime's
shows none.
-/
def isIntact (b : Block β) : Bool :=
  match b.stack with
  | none => true
  | some stack => stack.isIntact

def link (b : Block β) : Lane → Link
  | .ready => b.readyLink
  | .wait => b.waitLink

def setLink (b : Block β) (lane : Lane) (link : Link) : Block β :=
  match lane with
  | .ready => { b with readyLink := link }
  | .wait => { b with waitLink := link }

def ready (b : Block β) : Block β :=
  { b with state := .ready }

def run (b : Block β) : Block β :=
  { b with state := .running }

def park (b : Block β) (line : Line) : Block β :=
  { b with
    state := .blockedOnInterrupt
    flags := { b.flags with waiting := true }
    line := some line }

def unpark (b : Block β) : Block β :=
  { b with flags := { b.flags with waiting := false }, line := none }

def exit (b : Block β) (code : Int32) : Block β :=
  { b with state := .exited, exitCode := some code, body := none }

def detach (b : Block β) : Block β :=
  { b with flags := { b.flags with detached := true } }

@[simp] theorem link_setLink_same (b : Block β) (lane : Lane) (link : Link) :
    (b.setLink lane link).link lane = link := by
  cases lane <;> rfl

theorem link_setLink_of_ne (b : Block β) {lane other : Lane} (link : Link) (h : other ≠ lane) :
    (b.setLink lane link).link other = b.link other := by
  cases lane <;> cases other <;> simp_all [setLink, Block.link]

end Block

end Thread
end Coop
