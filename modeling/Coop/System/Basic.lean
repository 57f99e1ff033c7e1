import Coop.Scheduler.Operation
import Coop.System.Call

/-!
# The runtime

A runtime carries out the decisions of its scheduler.  A call first goes to the
scheduler.  It then answers its caller at once, or the processor has to be
switched to another thread.  In the second case the rest of the call waits until
the caller has the processor again, and begins with the completion of the switch
that gave it back.  The switch itself is not part of this module: it belongs to
whatever runs the threads.
-/

namespace Coop

open Thread (Handle)

/-- A scheduler in use. -/
structure System (β : Type) where
  scheduler : Scheduler β
  initialized : Bool := false
  deriving DecidableEq, Repr

/-- What is left to do for a call when its caller has the processor again. -/
inductive Resume where
  | plain
  /-- Fetch the code of the thread that was joined. -/
  | collect (target : Handle)
  /-- The caller exited, and will not have the processor again. -/
  | never
  deriving DecidableEq, Repr

/-- How a call ends: its caller is answered, or the program cannot go on. -/
inductive Ending where
  | answer (r : Except Error Reply)
  | panic (p : Panic)

inductive Course where
  | ended (e : Ending)
  | switch (t : Transfer) (resume : Resume)

structure Stage (β α : Type) where
  system : System β
  notices : List Notice := []
  faults : List Fault := []
  value : α

namespace Stage

variable {β α γ : Type}

def map (f : α → γ) (s : Stage β α) : Stage β γ :=
  { s with value := f s.value }

def andThen (s : Stage β α) (next : System β → Stage β γ) : Stage β γ :=
  let later := next s.system
  { later with notices := s.notices ++ later.notices, faults := s.faults ++ later.faults }

end Stage

namespace System

variable {β α γ : Type}

def create (config : Config) : System β :=
  { scheduler := .create config }

def stage (s : System β) (o : Outcome β α) (f : Except Error α → γ) : Stage β γ :=
  { system := { s with scheduler := o.scheduler }
    notices := o.notices
    faults := o.faults
    value := f o.result }

/-- A scheduler operation that answers its caller at once. -/
def direct (s : System β) (o : Outcome β α) (f : α → Reply) : Stage β Course :=
  s.stage o fun r => .ended (.answer (r.map f))

/-- A scheduler operation that may give up the processor. -/
def suspending (s : System β) (o : Outcome β α) (f : α → Course) : Stage β Course :=
  s.stage o fun
    | .ok a => f a
    | .error e => .ended (.answer (.error e))

def ask (s : System β) (r : Except Error α) (f : α → Reply) : Stage β Course :=
  { system := s, value := .ended (.answer (r.map f)) }

def init (s : System β) (supply : Supply) : Stage β Course :=
  let o := s.scheduler.bootstrap supply
  let stage := s.direct o .handle
  match o.result with
  | .error _ => stage
  | .ok _ =>
      { stage with
        system := { stage.system with initialized := true }
        notices := stage.notices ++ [.initialized] }

/-- Ends the caller.  An exit that no thread can take over from is a panic. -/
def exit (s : System β) (supply : Supply) (code : Int32) : Stage β Course :=
  s.stage (s.scheduler.exit supply code) fun
    | .ok t => .switch t .never
    | .error e => .ended (.panic (.cannotExit e))

/-- The first stage of a call: what the scheduler makes of it. -/
def begin (s : System β) (supply : Supply) : Call β → Stage β Course
  | .init => s.init supply
  | .isInitialized => s.ask (.ok s.initialized) .initialized
  | .spawn spec body => s.direct (s.scheduler.spawn supply spec body) .handle
  | .yield =>
      s.suspending s.scheduler.yield fun
        | some t => .switch t .plain
        | none => .ended (.answer (.ok .done))
  | .wait line => s.suspending (s.scheduler.wait line) fun t => .switch t .plain
  | .exit code => s.exit supply code
  | .join target =>
      s.suspending (s.scheduler.join supply target) fun
        | .exited code => .ended (.answer (.ok (.code code)))
        | .blocked t => .switch t (.collect target)
  | .tryJoin target => s.direct (s.scheduler.tryJoin supply target) .joinAttempt
  | .detach target => s.direct (s.scheduler.detach supply target) fun _ => .done
  | .interrupt line => s.direct (s.scheduler.interrupt line) .count
  | .interrupts mask => s.direct (s.scheduler.interrupts mask) .count
  | .current => s.ask s.scheduler.running .handle
  | .state target => s.ask (s.scheduler.state target) .state
  | .isDetached target => s.ask (s.scheduler.isDetached target) .detached
  | .exitCode target => s.ask (s.scheduler.exitCode target) .code
  | .name target => s.ask (s.scheduler.name target) .name
  | .waiting line => s.ask (.ok (s.scheduler.waitingOn line)) .count
  | .stats => s.ask (.ok s.scheduler.stats) .stats
  | .poolStats => s.ask (.ok s.scheduler.pool) .ofPool

/-- Completes the switch that gave the processor to the running thread. -/
def completeSwitch (s : System β) (supply : Supply) : Stage β Unit :=
  s.stage (s.scheduler.completeSwitch supply) fun _ => ()

/-- The last stage of a call whose caller has the processor again. -/
def finish (s : System β) (supply : Supply) : Resume → Stage β Ending
  | .never => { system := s, value := .panic .exitedThreadResumed }
  | .plain => (s.completeSwitch supply).map fun _ => .answer (.ok .done)
  | .collect target =>
      (s.completeSwitch supply).andThen fun s =>
        s.stage (s.scheduler.collect supply target) fun r => .answer (r.map .code)

/-- The first stage of a new thread: it completes the switch and takes its body. -/
def start (s : System β) (supply : Supply) : Stage β (Option β) :=
  (s.completeSwitch supply).andThen fun s =>
    let (body, scheduler) := s.scheduler.takeBody
    { system := { s with scheduler }, value := body }

end System

namespace Call

variable {β : Type}

/-- How a call ends where no runtime is registered to take it. -/
def unregistered : Call β → Ending
  | interrupt _ | interrupts _ => .answer (.ok (.count 0))
  | isInitialized => .answer (.ok (.initialized false))
  | exit _ => .panic .exitWithoutRuntime
  | _ => .answer (.error (.misuse .notInitialized))

end Call

end Coop
