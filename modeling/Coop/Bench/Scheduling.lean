import Coop.Bench.Order
import Coop.Scheduler.Request

/-!
# A scheduler on the bench

The scheduler is driven by its operations.  The driver plays every thread, so
nothing is switched: a transfer only says who runs now.  The body of a thread is
the code it would end with.  Threads are named by identifier, which stands for
the handle that their creation answered, or by a handle of the driver's own
making.
-/

namespace Coop
namespace Bench

open Thread (Block Handle Spec)

/-- A scheduler and the handles it has issued, in the order of their identifiers. -/
structure Scheduling where
  scheduler : Scheduler Int32
  issued : Array Handle := #[]
  /-- Whether every transfer is completed at once. -/
  completesSwitches : Bool := false
  deriving DecidableEq, Repr

inductive ThreadStep where
  | join
  | collect
  | tryJoin
  | detach
  | state
  | isDetached
  | exitCode
  | name
  | poke (offset : Nat) (byte : UInt8)
  | word
  deriving DecidableEq, Repr

inductive SchedulingStep where
  | bootstrap (supply : Supply)
  | initialized
  | current
  | spawn (supply : Supply) (spec : Spec) (code : Int32)
  | yield
  | wait (line : Line)
  | exit (code : Int32)
  | interrupt (line : Line)
  | interrupts (mask : Mask)
  | complete
  | takeBody
  | waiting (line : Line)
  | config
  | dump
  | onThread (step : ThreadStep)
  | refuse (r : Refusal)
  deriving DecidableEq, Repr

/-- What is known of a thread that was not reclaimed. -/
structure Sight where
  state : Thread.State
  detached : Bool
  exitCode : Option Int32
  name : Option String
  deriving DecidableEq, Repr

inductive SchedulingResult where
  | failed (cause : Error)
  | refused (r : Refusal)
  /-- The thread has no stack of the scheduler's. -/
  | noStack
  /-- The operation succeeded and has nothing to tell. -/
  | succeeded
  | handle (h : Handle)
  | yielded (t : Option Transfer)
  | transfer (t : Transfer)
  | joined (j : Joined)
  | code (code : Int32)
  | joinAttempt (code : Option Int32)
  | state (s : Thread.State)
  | isDetached (b : Bool)
  | name (n : Option String)
  | done
  | flag (b : Bool)
  | number (n : Nat)
  | body (code : Option Int32)
  | config (c : Config)
  | word (bytes : List UInt8)
  | dump (threads : List (Handle × Option Sight))
  deriving DecidableEq, Repr

structure Stepped where
  result : SchedulingResult
  notices : List Notice := []
  next : Scheduling

namespace Scheduling

def answer (s : Scheduling) (result : SchedulingResult) : Stepped :=
  { result, next := s }

def finish {α : Type} (s : Scheduling) (o : Outcome Int32 α) (tell : α → SchedulingResult) :
    Stepped :=
  { result :=
      match o.result with
      | .ok a => tell a
      | .error cause => .failed cause
    notices := o.notices
    next := { s with scheduler := o.scheduler } }

def finishNew (s : Scheduling) (o : Outcome Int32 Handle) : Stepped :=
  let s :=
    match o.result with
    | .ok h => { s with issued := s.issued.push h }
    | .error _ => s
  s.finish o .handle

/--
Takes over the end of an operation that may have answered a transfer, and
completes it.
-/
def finishTransfer {α : Type} (s : Scheduling) (o : Outcome Int32 α)
    (transfer? : α → Option Transfer) (tell : α → SchedulingResult) : Stepped :=
  let stepped := s.finish o tell
  match s.completesSwitches, o.result.toOption.bind transfer? with
  | true, some _ =>
      let completed := o.scheduler.completeSwitch .ample
      { stepped with
        notices := stepped.notices ++ completed.notices
        next := { stepped.next with scheduler := completed.scheduler } }
  | _, _ => stepped

def query {α : Type} (s : Scheduling) (r : Except Error α)
    (tell : α → SchedulingResult) : Stepped :=
  s.answer <|
    match r with
    | .ok a => tell a
    | .error cause => .failed cause

def onStack (s : Scheduling) (h : Handle) (f : Stack → Stepped) : Stepped :=
  match s.scheduler.stack? h with
  | .error cause => s.answer (.failed cause)
  | .ok none => s.answer .noStack
  | .ok (some stack) => f stack

def sight? (s : Scheduling) (h : Handle) : Option Sight :=
  (s.scheduler.table.lookup h).map fun b => ⟨b.state, b.isDetached, b.exitCode, b.name⟩

end Scheduling

def ThreadStep.perform (s : Scheduling) (h : Handle) : ThreadStep → Stepped
  | join =>
      s.finishTransfer (s.scheduler.join .ample h)
        (fun
          | .blocked t => some t
          | .exited _ => none)
        .joined
  | collect => s.finish (s.scheduler.collect .ample h) .code
  | tryJoin => s.finish (s.scheduler.tryJoin .ample h) .joinAttempt
  | detach => s.finish (s.scheduler.detach .ample h) fun _ => .succeeded
  | state => s.query (s.scheduler.state h) .state
  | isDetached => s.query (s.scheduler.isDetached h) .isDetached
  | exitCode => s.query (s.scheduler.exitCode h) .code
  | name => s.query (s.scheduler.name h) .name
  | poke offset byte =>
      s.onStack h fun stack =>
        { result := .flag (offset < stack.size)
          next := { s with scheduler := s.scheduler.writeStack h offset byte } }
  | word => s.onStack h fun stack => s.answer (.word stack.word)

def SchedulingStep.perform (s : Scheduling) (named : Option Handle) : SchedulingStep → Stepped
  | bootstrap supply => s.finishNew (s.scheduler.bootstrap supply)
  | initialized => s.answer (.flag s.scheduler.isInitialized)
  | current => s.query s.scheduler.running .handle
  | spawn supply spec code => s.finishNew (s.scheduler.spawn supply spec code)
  | yield => s.finishTransfer s.scheduler.yield id .yielded
  | wait line => s.finishTransfer (s.scheduler.wait line) some .transfer
  | exit code => s.finishTransfer (s.scheduler.exit .ample code) some .transfer
  | interrupt line => s.finish (s.scheduler.interrupt line) .number
  | interrupts mask => s.finish (s.scheduler.interrupts mask) .number
  | complete => s.finish (s.scheduler.completeSwitch .ample) fun _ => .done
  | takeBody =>
      let (body, scheduler) := s.scheduler.takeBody
      { result := .body body, next := { s with scheduler } }
  | waiting line => s.answer (.number (s.scheduler.waitingOn line))
  | config => s.answer (.config s.scheduler.config)
  | dump => s.answer (.dump (s.issued.toList.map fun h => (h, s.sight? h)))
  | onThread step =>
      match named with
      | none => s.answer (.refused .badRef)
      | some h => step.perform s h
  | refuse r => s.answer (.refused r)

def Scheduling.obey (s : Scheduling) (o : Order SchedulingStep) : Stepped :=
  match o.named s.issued with
  | .error r => s.answer (.refused r)
  | .ok named => o.step.perform s named

end Bench
end Coop
