import Coop.Machine.Basic
import Coop.Script.Step

/-!
# Scripts as thread code

A thread that runs a script keeps the steps still to be done, the code of its
last join and the mutexes it holds.  Labels, and whether a runtime is registered
for the whole program, are shared by all threads.
-/

namespace Coop
namespace Script

open Thread (Handle Spec)

structure Setup where
  scripts : Array (List Step)
  /-- Threads run on their own stacks, and interrupts cannot be masked. -/
  hosted : Bool := false

structure Shared where
  labels : List (Label × Handle) := []
  registered : Bool := false

namespace Shared

def find? (s : Shared) (label : Label) : Option Handle :=
  s.labels.lookup label

def named (s : Shared) : Option Label → Except Refusal (Option Handle)
  | none => .ok none
  | some label =>
      match s.find? label with
      | none => .error .badRef
      | some h => .ok (some h)

def setLabel (s : Shared) (label : Label) (h : Handle) : Shared :=
  { s with labels := (label, h) :: s.labels.filter fun entry => entry.1 != label }

end Shared

inductive Todo where
  | steps (steps : List Step)
  | repeat (count : Nat) (body : List Step)
  | whileLive (above : Nat) (body : List Step)

inductive Awaiting where
  | nothing
  | start (script : Nat)
  | step (name : String) (action : Action)
  /-- Runs the body again if more threads than that are alive. -/
  | live (above : Nat) (body : List Step)

structure State where
  todo : List Todo
  awaiting : Awaiting := .nothing
  /-- What the last join told: its code, or -1 if there was none to tell. -/
  lastCode : Int32 := 0
  held : List Nat := []
  isMain : Bool := false

abbrev Next :=
  Turn Shared State Record

namespace State

def main (steps : List Step) : State :=
  { todo := [.steps steps], isMain := true }

def ofScript (k : Nat) (steps : List Step) : State :=
  { todo := [.steps steps], awaiting := .start k }

def push (s : State) (t : Todo) : State :=
  { s with todo := t :: s.todo }

end State

/-!
# Asking
-/

def PlainCall.call : PlainCall → Call (Body State)
  | init => .init
  | isInitialized => .isInitialized
  | spawnIdle => .spawn .idle .idle
  | yield => .yield
  | wait line => .wait line
  | interrupt line => .interrupt line
  | interrupts mask => .interrupts mask
  | current => .current
  | waiting line => .waiting line
  | stats => .stats
  | poolStats => .poolStats

def LabelledCall.call (h : Handle) : LabelledCall → Call (Body State)
  | join => .join h
  | tryJoin => .tryJoin h
  | detach => .detach h
  | state => .state h
  | isDetached => .isDetached h
  | exitCode => .exitCode h
  | name => .name h

def GlobalCall.call : GlobalCall → Call (Body State)
  | yield => .yield
  | wait line => .wait line
  | interrupt line => .interrupt line
  | interrupts mask => .interrupts mask
  | current => .current

/-- A host cannot run threads on stacks below the largest class. -/
def isSmallForHost (stackSize : Nat) : Bool :=
  stackSize ≤ SizeClass.large.size

/--
What a step asks the machine for, given the thread it names.  A step that is
refused, or that needs nothing of the machine, has its result at once.
-/
def Action.ask (setup : Setup) (shared : Shared) (s : State) (named : Option Handle) :
    Action → Except Result (Ask State)
  | call c => .ok (.call c.call)
  | spawn script _ spec =>
      if setup.hosted && 0 < spec.stackSize && isSmallForHost spec.stackSize then
        .error (.refused .hostStack)
      else
        match setup.scripts[script]? with
        | none => .error (.refused .badInput)
        | some steps => .ok (.call (.spawn spec (.code (.ofScript script steps))))
  | onThread c =>
      match named with
      | none => .error (.refused .badRef)
      | some h => .ok (.call (c.call h))
  | exit code => .ok (.call (.exit code))
  | interruptsEnabled => .ok .interruptsEnabled
  | halt => .ok .halt
  | mask => .ok .mask
  | unmask => .ok .unmask
  | lock m => if s.held.contains m then .error (.refused .alreadyHeld) else .ok (.lock m)
  | tryLock m => .ok (.tryLock m)
  | unlock m => .ok (.unlock m)
  | isLocked m => .ok (.isLocked m)
  | add m value => .ok (.update m (· + value))
  | register => if setup.hosted then .error .done else .error (.refused .simulated)
  | isRegistered => .error (.flag shared.registered)
  | callGlobal c =>
      if shared.registered then
        .ok (.call c.call)
      else
        match c.call.unregistered with
        | .answer r => .error (.answer r)
        | .panic p => .ok (.panic p)
  | exitGlobal code =>
      if shared.registered then .ok (.call (.exit code)) else .ok (.panic .exitWithoutRuntime)
  | lockGlobal m =>
      if s.held.contains m then .error (.refused .alreadyHeld)
      else if shared.registered then .ok (.lock m)
      else .ok (.tryLock m)
  | refuse r => .error (.refused r)

/-- What is recorded before a step is done, for a step that never returns. -/
def Action.farewell? : Action → Option Result
  | exit code | exitGlobal code => some (.code code)
  | _ => none

/-!
# Being told
-/

def Action.result (a : Action) : Response → Result
  | .called r => .answer r
  | .flag b => .flag b
  | .count n => .number n
  | .locked data => .locked data
  | .busy =>
      match a with
      | lockGlobal _ => .refused .wouldSpin
      | _ => .busy
  | .data value => .code value
  | .notHeld => .refused .notHeld
  | .noSuchMutex => .refused .badInput
  | .masked => .refused .masked
  | .started | .done => .done

def Action.label? : Action → Option Label
  | call .init => some "main"
  | call .spawnIdle => some "idle"
  | spawn _ label _ => label
  | _ => none

def Action.share (a : Action) (r : Result) (shared : Shared) : Shared :=
  match a, r with
  | register, .done => { shared with registered := true }
  | _, .answer (.ok (.handle h)) =>
      match a.label? with
      | some label => shared.setLabel label h
      | none => shared
  | _, _ => shared

/-- The code that a join told, or -1 if it told none. -/
def joinedCode : Result → Int32
  | .answer (.ok (.code code)) => code
  | .answer (.ok (.joinAttempt (some code))) => code
  | _ => -1

def Action.keep (a : Action) (r : Result) (s : State) : State :=
  match a, r with
  | onThread .join, .answer _ | onThread .tryJoin, .answer _ =>
      { s with lastCode := joinedCode r }
  | lock m, .locked _ | tryLock m, .locked _ | lockGlobal m, .locked _ =>
      { s with held := m :: s.held }
  | unlock m, .flag true => { s with held := s.held.erase m }
  | _, _ => s

def returned (shared : Shared) (s : State) (name : String) (a : Action) (r : Result) : Next :=
  { memory := a.share r shared
    state := { a.keep r s with awaiting := .nothing }
    ask := .pause
    notes := [⟨name, r⟩] }

/-!
# Taking turns
-/

def finish (shared : Shared) (s : State) (code : Int32) : Next :=
  { memory := shared
    state := { s with todo := [] }
    ask := .finish code
    notes := if s.isMain then [] else [⟨"end", .code code⟩] }

def act (setup : Setup) (shared : Shared) (s : State) (name : String) (named : Option Handle)
    (a : Action) : Next :=
  match a.ask setup shared s named with
  | .error r => returned shared s name a r
  | .ok ask =>
      { memory := shared
        state := { s with awaiting := .step name a }
        ask
        notes := (a.farewell?.map (Record.mk name)).toList }

def proceed (setup : Setup) (shared : Shared) (s : State) : Next :=
  let later (s : State) : Next := { memory := shared, state := s, ask := .pause }
  match s.todo with
  | [] => finish shared s 0
  | .steps [] :: rest => later { s with todo := rest }
  | .steps (step :: steps) :: rest =>
      let s := { s with todo := .steps steps :: rest }
      match step with
      | .act name label a =>
          match shared.named label with
          | .error r => returned shared s name a (.refused r)
          | .ok named => act setup shared s name named a
      | .repeat count body => later (s.push (.repeat count body))
      | .whileLive above body => later (s.push (.whileLive above body))
      | .return code => finish shared s (code.getD s.lastCode)
  | .repeat 0 _ :: rest => later { s with todo := rest }
  | .repeat (count + 1) body :: rest =>
      later { s with todo := .steps body :: .repeat count body :: rest }
  | .whileLive above body :: rest =>
      { memory := shared
        state := { s with todo := rest, awaiting := .live above body }
        ask := .call .stats }

def hasMoreLive (above : Nat) : Response → Bool
  | .called (.ok (.stats stats)) => above < stats.liveThreads
  | _ => false

def turn (setup : Setup) (shared : Shared) (s : State) (response : Response) : Next :=
  match s.awaiting with
  | .nothing => proceed setup shared s
  | .start script =>
      { memory := shared
        state := { s with awaiting := .nothing }
        ask := .pause
        notes := [⟨"start", .number script⟩] }
  | .step name a => returned shared s name a (a.result response)
  | .live above body =>
      let s := { s with awaiting := .nothing }
      let again := (s.push (.whileLive above body)).push (.steps body)
      { memory := shared
        state := if hasMoreLive above response then again else s
        ask := .pause }

/-!
# Running scripts
-/

structure Scenario where
  config : Config
  setup : Setup
  main : List Step
  /-- The interrupts that will end a halt, in order. -/
  upcoming : List Mask := []
  mutexes : List Int32 := []

namespace Scenario

/-- Whether the stacks that threads have by default are large enough to run on. -/
def isRunnable (s : Scenario) : Bool :=
  !s.setup.hosted || !isSmallForHost s.config.defaultStackSize

def world (s : Scenario) : World Shared State Record :=
  { turn := turn s.setup }

def machine (s : Scenario) : Machine Shared State Record :=
  .create s.config { maskable := !s.setup.hosted } s.upcoming s.mutexes {} (.main s.main)

def run (s : Scenario) (fuel : Nat) : Option Ended × Array (Event Record) :=
  let (ended, m) := s.machine.run s.world fuel
  (ended, m.events)

end Scenario

end Script
end Coop
