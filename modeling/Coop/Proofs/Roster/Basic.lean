import Mathlib.Algebra.GroupWithZero.Nat
import Mathlib.Data.Finmap
import Coop.Scheduler.Request

/-!
# Rosters

A roster is the scheduler as one would keep it on paper.  Threads are known by
their identifiers alone; those that are ready, and those that wait on a line, are
plain lists of identifiers.  No slot is used again, no block is linked to another,
and no length is stored, so nothing can fall out of step.
-/

namespace Coop

open Thread (Id Spec State)

structure Roster.Record (β : Type) where
  state : State
  detached : Bool
  name : Option String := none
  exitCode : Option Int32 := none
  joiner : Option Id := none
  stack : Option Stack := none
  body : Option β := none

abbrev Roster.Threads (β : Type) :=
  Finmap fun _ : Id => Roster.Record β

structure Roster (β : Type) where
  config : Config
  pool : Pool
  threads : Roster.Threads β := ∅
  current : Option Id := none
  ready : List Id := []
  waiting : Line → List Id := fun _ => []
  nextId : Id := 1
  graveyard : Option Stack := none
  counters : Counters := {}

namespace Roster

/-- What is answered, with threads named by their identifiers. -/
inductive Reply (β : Type) where
  | done
  | thread (id : Id)
  | body (body : Option β)
  | transfer (source target : Id)
  | code (code : Int32)
  | woken (count : Nat)
  deriving DecidableEq, Repr

variable {β : Type}

def Record.ready (t : Record β) : Record β :=
  { t with state := .ready }

def create (config : Config) : Roster β :=
  { config, pool := { budget := config.stackBudget } }

def find? (r : Roster β) (id : Id) : Option (Record β) :=
  r.threads.lookup id

def live (r : Roster β) : Nat :=
  r.threads.keys.card

def set (r : Roster β) (id : Id) (t : Record β) : Roster β :=
  { r with threads := r.threads.insert id t }

def change (threads : Threads β) (id : Id) (f : Record β → Record β) : Threads β :=
  match threads.lookup id with
  | none => threads
  | some t => threads.insert id (f t)

def modify (r : Roster β) (id : Id) (f : Record β → Record β) : Roster β :=
  { r with threads := change r.threads id f }

def erase (r : Roster β) (id : Id) : Roster β :=
  { r with threads := r.threads.erase id }

def refuse (r : Roster β) (e : Error) : Except Error (Reply β) × Roster β :=
  (.error e, r)

/-!
# Changing hands
-/

def makeReady (r : Roster β) (id : Id) : Roster β :=
  { r.modify id Record.ready with ready := r.ready ++ [id] }

def handOver (r : Roster β) (source : Id) : Except Error (Reply β) × Roster β :=
  match r.ready with
  | [] => r.refuse .noRunnableThread
  | id :: rest =>
      (.ok (.transfer source id),
        { r.modify id (fun t => { t with state := .running }) with
          ready := rest
          current := some id
          counters := { r.counters with contextSwitches := r.counters.contextSwitches + 1 } })

def park (r : Roster β) (id : Id) (line : Line) : Roster β :=
  { r.modify id (fun t => { t with state := .blockedOnInterrupt }) with
    waiting := Function.update r.waiting line (r.waiting line ++ [id]) }

def await (r : Roster β) (id target : Id) : Roster β :=
  (r.modify target fun t => { t with joiner := some id }).modify id fun t =>
    { t with state := .blockedOnJoin }

/-!
# Memory
-/

/-- Whether there may be one more thread, and the allocator has room for it. -/
def admits (r : Roster β) (room : Bool) : Except Shortage Unit :=
  if r.config.maxThreads ≤ r.live then .error .threads
  else if room then .ok () else .error .controlBlocks

def release (r : Roster β) (supply : Supply) : Option Stack → Roster β
  | none => r
  | some stack => { r with pool := r.pool.release supply.cache stack }

def retire (r : Roster β) (supply : Supply) : Option Stack → Roster β
  | none => r
  | some stack => { r with graveyard := some stack }.release supply r.graveyard

def countReclaimed (r : Roster β) : Roster β :=
  { r with counters := { r.counters with reclaimed := r.counters.reclaimed + 1 } }

def reclaim (r : Roster β) (supply : Supply) (id : Id) (t : Record β) : Roster β :=
  ((r.erase id).release supply t.stack).countReclaimed

/-!
# Beginnings and ends
-/

def enter (r : Roster β) (t : Record β) : Roster β :=
  { r.set r.nextId t with nextId := r.nextId + 1 }

def countSpawned (r : Roster β) : Roster β :=
  { r with counters := { r.counters with spawned := r.counters.spawned + 1 } }

def countExited (r : Roster β) : Roster β :=
  { r with counters := { r.counters with exited := r.counters.exited + 1 } }

/-- A thread exits; a detached one is deleted, and its stack is kept aside. -/
def finish (r : Roster β) (supply : Supply) (id : Id) (t : Record β) (code : Int32) : Roster β :=
  if t.detached then
    ((r.countExited.erase id).retire supply t.stack).countReclaimed
  else
    (r.set id { t with state := .exited, exitCode := some code, body := none }).countExited

def wakeJoiner (r : Roster β) : Option Id → Roster β
  | none => r
  | some id => r.makeReady id

/-!
# Operations
-/

def bootstrap (r : Roster β) (room : Bool) : Except Error (Reply β) × Roster β :=
  match r.current with
  | some _ => r.refuse (.misuse .alreadyInitialized)
  | none =>
      match r.admits room with
      | .error cause => r.refuse (.shortage cause)
      | .ok () =>
          (.ok (.thread r.nextId),
            { r.enter { state := .running, detached := true, name := some "main" } with
              current := some r.nextId })

def spawn (r : Roster β) (room : Bool) (supply : Supply) (spec : Spec) (body : β) :
    Except Error (Reply β) × Roster β :=
  match r.current with
  | none => r.refuse (.misuse .notInitialized)
  | some _ =>
      match r.admits room with
      | .error cause => r.refuse (.shortage cause)
      | .ok () =>
          match r.pool.allocateBytes supply.stack (r.config.stackSize spec.stackSize) with
          | (.error cause, pool) => { r with pool := pool }.refuse (.shortage cause)
          | (.ok stack, pool) =>
              let stack := if r.config.stackCanary then stack.guarded else stack
              let t : Record β :=
                { state := .ready, detached := spec.detached, name := spec.name
                  stack := some stack, body := some body }
              (.ok (.thread r.nextId),
                (({ r with pool := pool }.enter t).makeReady r.nextId).countSpawned)

def takeBody (r : Roster β) : Except Error (Reply β) × Roster β :=
  match r.current with
  | none => (.ok (.body none), r)
  | some id =>
      match r.find? id with
      | none => (.ok (.body none), r)
      | some t => (.ok (.body t.body), r.set id { t with body := none })

def yield (r : Roster β) : Except Error (Reply β) × Roster β :=
  match r.current with
  | none => r.refuse (.misuse .notInitialized)
  | some id => if r.ready.isEmpty then (.ok .done, r) else (r.makeReady id).handOver id

def wait (r : Roster β) (line : Line) : Except Error (Reply β) × Roster β :=
  match r.current with
  | none => r.refuse (.misuse .notInitialized)
  | some id =>
      if r.ready.isEmpty then r.refuse .noRunnableThread else (r.park id line).handOver id

def exit (r : Roster β) (supply : Supply) (code : Int32) : Except Error (Reply β) × Roster β :=
  match r.current with
  | none => r.refuse (.misuse .notInitialized)
  | some id =>
      match r.find? id with
      | none => r.refuse (.misuse .invalidHandle)
      | some t =>
          if r.ready.isEmpty && t.joiner.isNone then
            r.refuse .noRunnableThread
          else
            ((r.finish supply id t code).wakeJoiner t.joiner).handOver id

def joinable (r : Roster β) (id target : Id) : Except Error (Record β) :=
  match r.find? target with
  | none => .error (.misuse .invalidHandle)
  | some t =>
      if target = id then .error (.misuse .joinSelf)
      else if t.detached then .error (.misuse .detached)
      else if t.joiner.isSome then .error (.misuse .alreadyJoined)
      else .ok t

def finished? (t : Record β) : Option Int32 :=
  if t.state = .exited then t.exitCode else none

def join (r : Roster β) (supply : Supply) (target : Id) : Except Error (Reply β) × Roster β :=
  match r.current with
  | none => r.refuse (.misuse .notInitialized)
  | some id =>
      match r.joinable id target with
      | .error e => r.refuse e
      | .ok t =>
          match finished? t with
          | some code => (.ok (.code code), r.reclaim supply target t)
          | none =>
              if r.ready.isEmpty then r.refuse .noRunnableThread
              else (r.await id target).handOver id

def collect (r : Roster β) (supply : Supply) (target : Id) : Except Error (Reply β) × Roster β :=
  match r.current with
  | none => r.refuse (.misuse .notInitialized)
  | some id =>
      match r.find? target with
      | none => r.refuse (.misuse .invalidHandle)
      | some t =>
          if t.joiner = some id then
            match t.exitCode with
            | none => r.refuse (.misuse .stillRunning)
            | some code => (.ok (.code code), r.reclaim supply target t)
          else
            r.refuse (.misuse .wrongState)

def tryJoin (r : Roster β) (supply : Supply) (target : Id) : Except Error (Reply β) × Roster β :=
  match r.current with
  | none => r.refuse (.misuse .notInitialized)
  | some id =>
      match r.joinable id target with
      | .error e => r.refuse e
      | .ok t =>
          match finished? t with
          | some code => (.ok (.code code), r.reclaim supply target t)
          | none => (.ok .done, r)

def detach (r : Roster β) (supply : Supply) (target : Id) : Except Error (Reply β) × Roster β :=
  match r.current with
  | none => r.refuse (.misuse .notInitialized)
  | some _ =>
      match r.find? target with
      | none => r.refuse (.misuse .invalidHandle)
      | some t =>
          if t.joiner.isSome then r.refuse (.misuse .alreadyJoined)
          else if t.state = .exited then (.ok .done, r.reclaim supply target t)
          else (.ok .done, r.set target { t with detached := true })

/-- The list of a line joins the ready list, and is empty then. -/
def fire (r : Roster β) (line : Line) : Roster β :=
  { r with
    threads := (r.waiting line).foldl (fun threads id => change threads id Record.ready) r.threads
    ready := r.ready ++ r.waiting line
    waiting := Function.update r.waiting line []
    counters :=
      { r.counters with
        interruptWakeups := r.counters.interruptWakeups + (r.waiting line).length } }

def fireAll (r : Roster β) (lines : List Line) : Except Error (Reply β) × Roster β :=
  (.ok (.woken (lines.map fun line => (r.waiting line).length).sum), lines.foldl fire r)

def completeSwitch (r : Roster β) (supply : Supply) : Except Error (Reply β) × Roster β :=
  (.ok .done, { r with graveyard := none }.release supply r.graveyard)

/--
Performs one operation, given what the allocator will answer, and whether it has
room for another thread.
-/
def perform (r : Roster β) (room : Bool) (supply : Supply) :
    Request β → Except Error (Reply β) × Roster β
  | .bootstrap => r.bootstrap room
  | .spawn spec body => r.spawn room supply spec body
  | .takeBody => r.takeBody
  | .yield => r.yield
  | .wait line => r.wait line
  | .exit code => r.exit supply code
  | .join target => r.join supply target.id
  | .collect target => r.collect supply target.id
  | .tryJoin target => r.tryJoin supply target.id
  | .detach target => r.detach supply target.id
  | .interrupt line => r.fireAll [line]
  | .interrupts mask => r.fireAll mask.lines
  | .completeSwitch => r.completeSwitch supply

def run (r : Roster β) : List (Request β × Supply × Bool) → List (Except Error (Reply β))
  | [] => []
  | (request, supply, room) :: rest =>
      (r.perform room supply request).1 :: (r.perform room supply request).2.run rest

def after (r : Roster β) : List (Request β × Supply × Bool) → Roster β
  | [] => r
  | (request, supply, room) :: rest => (r.perform room supply request).2.after rest

/-!
# Questions
-/

def isInitialized (r : Roster β) : Bool :=
  r.current.isSome

def running (r : Roster β) : Except Error Id :=
  match r.current with
  | none => .error (.misuse .notInitialized)
  | some id => .ok id

def resolve (r : Roster β) (id : Id) : Except Error (Record β) :=
  match r.find? id with
  | none => .error (.misuse .invalidHandle)
  | some t => .ok t

def state (r : Roster β) (id : Id) : Except Error State :=
  (r.resolve id).map Record.state

def isDetached (r : Roster β) (id : Id) : Except Error Bool :=
  (r.resolve id).map Record.detached

def name (r : Roster β) (id : Id) : Except Error (Option String) :=
  (r.resolve id).map Record.name

def exitCode (r : Roster β) (id : Id) : Except Error Int32 :=
  match r.resolve id with
  | .error e => .error e
  | .ok t =>
      match t.exitCode with
      | none => .error (.misuse .stillRunning)
      | some code => .ok code

def stack? (r : Roster β) (id : Id) : Except Error (Option Stack) :=
  (r.resolve id).map Record.stack

def waitingOn (r : Roster β) (line : Line) : Nat :=
  (r.waiting line).length

def stats (r : Roster β) : Stats :=
  { r.counters with
    liveThreads := r.live
    readyThreads := r.ready.length
    waitingThreads := (Line.all.map r.waitingOn).sum }

end Roster

end Coop
