import Coop.Scheduler.Work

/-!
# Operations of the scheduler

What the running thread, and the interrupt hooks, can ask of the scheduler.  An
operation that gives up the processor answers a transfer: the caller then has to
switch to the thread that took over, and that thread has to complete the switch
before it goes on.
-/

namespace Coop

open Thread (Block Handle Id Spec)

inductive Joined where
  | exited (code : Int32)
  | blocked (transfer : Transfer)
  deriving DecidableEq, Repr

namespace Scheduler

variable {β : Type}

/-!
# Beginnings of threads
-/

/-- Adopts the caller as the main thread. -/
def bootstrap (s : Scheduler β) (supply : Supply) : Outcome β Handle :=
  match s.current with
  | some _ => s.work.misuse .alreadyInitialized
  | none =>
      match s.work.reserve supply with
      | (.error cause, w) => w.fail (.shortage cause)
      | (.ok (), w) =>
          let (id, w) := w.freshId
          let (slot, w) := w.insert (.main id)
          let w := w.update fun s => { s with current := some slot }
          (w.notice (.adopted id)).succeed ⟨slot, id⟩

def spawn (s : Scheduler β) (supply : Supply) (spec : Spec) (body : β) : Outcome β Handle :=
  match s.current with
  | none => s.work.misuse .notInitialized
  | some _ =>
      match s.work.reserve supply with
      | (.error cause, w) => w.fail (.shortage cause)
      | (.ok (), w) =>
          let requested := s.config.stackSize spec.stackSize
          match w.allocate supply requested with
          | (.error cause, w) => (w.notice (.spawnFailed cause)).fail (.shortage cause)
          | (.ok stack, w) =>
              let stack := if s.config.stackCanary then stack.guarded else stack
              let (id, w) := w.freshId
              let (slot, w) := w.insert (.fresh id stack body spec)
              let w := w.makeReady slot
              let w := w.count fun c => { c with spawned := c.spawned + 1 }
              (w.notice (.spawned id requested spec.detached)).succeed ⟨slot, id⟩

/--
Takes the body of the running thread, which needs it once, when it first runs.
-/
def takeBody (s : Scheduler β) : Option β × Scheduler β :=
  match s.current with
  | none => (none, s)
  | some slot =>
      match s.table.get? slot with
      | none => (none, s)
      | some b => (b.body, { s with table := s.table.modify slot fun b => { b with body := none } })

/-!
# Giving up the processor
-/

/--
Lets the first ready thread run and queues the caller.  Without a ready thread
nothing happens.
-/
def yield (s : Scheduler β) : Outcome β (Option Transfer) :=
  match s.current with
  | none => s.work.misuse .notInitialized
  | some cur =>
      if s.ready.isEmpty then
        s.work.succeed none
      else
        let w := s.work.checkStack cur
        match s.table.handle? cur with
        | none => w.misuse .invalidHandle
        | some caller => ((w.makeReady cur).dispatch caller).map some

def wait (s : Scheduler β) (line : Line) : Outcome β Transfer :=
  match s.current with
  | none => s.work.misuse .notInitialized
  | some cur =>
      if s.ready.isEmpty then
        (s.work.notice (.waitRefused line)).fail .noRunnableThread
      else
        let w := s.work.checkStack cur
        match s.table.handle? cur with
        | none => w.misuse .invalidHandle
        | some caller => ((w.park cur line).notice (.waits caller.id line)).dispatch caller

/--
Ends the caller.  Its joiner becomes ready.  A detached caller is reclaimed at
once, except for the stack it still runs on.
-/
def exit (s : Scheduler β) (supply : Supply) (code : Int32) : Outcome β Transfer :=
  match s.current with
  | none => s.work.misuse .notInitialized
  | some cur =>
      match s.table.get? cur with
      | none => s.work.misuse .invalidHandle
      | some b =>
          if s.ready.isEmpty && b.joiner.isNone then
            (s.work.notice .exitRefused).fail .noRunnableThread
          else
            let w := s.work.checkStack cur
            let (_, w) := w.unready cur
            let w := w.modify cur fun b => b.exit code
            let w := w.count fun c => { c with exited := c.exited + 1 }
            let w := (w.notice (.exited b.id code)).wakeJoiner b.id b.joiner
            let w := if b.isDetached then w.bury supply cur else w
            w.dispatch ⟨cur, b.id⟩

/-!
# Joining and detaching
-/

/-- The target of a join, if the thread in slot `cur` may join it. -/
def joinable (s : Scheduler β) (cur : Nat) (h : Handle) : Except Error (Block β) :=
  match s.table.lookup h with
  | none => .error (.misuse .invalidHandle)
  | some target =>
      if h.slot = cur then .error (.misuse .joinSelf)
      else if target.isDetached then .error (.misuse .detached)
      else if target.joiner.isSome then .error (.misuse .alreadyJoined)
      else .ok target

def finished? (target : Block β) : Option Int32 :=
  if target.state = .exited then target.exitCode else none

/--
Waits for a thread to exit.  If it already has, its code is answered and it is
reclaimed.
-/
def join (s : Scheduler β) (supply : Supply) (h : Handle) : Outcome β Joined :=
  match s.current with
  | none => s.work.misuse .notInitialized
  | some cur =>
      match s.joinable cur h with
      | .error e => s.work.fail e
      | .ok target =>
          match finished? target with
          | some code => (s.work.reclaim supply h.slot).succeed (.exited code)
          | none =>
              if s.ready.isEmpty then
                (s.work.notice .joinRefused).fail .noRunnableThread
              else
                let w := s.work.checkStack cur
                match s.table.handle? cur with
                | none => w.misuse .invalidHandle
                | some caller =>
                    let w := w.modify h.slot fun b => { b with joiner := some caller }
                    let w := w.modify cur fun b => { b with state := .blockedOnJoin }
                    ((w.notice (.joins caller.id h.id)).dispatch caller).map .blocked

/-- Ends a join that blocked: answers the code of the target and reclaims it. -/
def collect (s : Scheduler β) (supply : Supply) (h : Handle) : Outcome β Int32 :=
  match s.running with
  | .error e => s.work.fail e
  | .ok caller =>
      match s.table.lookup h with
      | none => s.work.misuse .invalidHandle
      | some target =>
          if target.joiner = some caller then
            match target.exitCode with
            | none => s.work.misuse .stillRunning
            | some code => (s.work.reclaim supply h.slot).succeed code
          else
            s.work.misuse .wrongState

/--
Joins without blocking.  Nothing is answered, and nothing happens, while the
target lives.
-/
def tryJoin (s : Scheduler β) (supply : Supply) (h : Handle) : Outcome β (Option Int32) :=
  match s.current with
  | none => s.work.misuse .notInitialized
  | some cur =>
      match s.joinable cur h with
      | .error e => s.work.fail e
      | .ok target =>
          match finished? target with
          | some code => (s.work.reclaim supply h.slot).succeed (some code)
          | none => s.work.succeed none

/-- Lets a thread be reclaimed when it exits, or now if it has. -/
def detach (s : Scheduler β) (supply : Supply) (h : Handle) : Outcome β Unit :=
  match s.current with
  | none => s.work.misuse .notInitialized
  | some _ =>
      match s.table.lookup h with
      | none => s.work.misuse .invalidHandle
      | some target =>
          if target.joiner.isSome then
            s.work.misuse .alreadyJoined
          else
            let w := s.work.modify h.slot Block.detach
            let w := if target.state = .exited then w.reclaim supply h.slot else w
            w.succeed ()

/-!
# Interrupts
-/

def fire (w : Work β) (line : Line) : Nat × Work β :=
  let (woken, w) := w.wake line
  let w := w.count fun c => { c with interruptWakeups := c.interruptWakeups + woken }
  (woken, if 0 < woken then w.notice (.woke line woken) else w)

def fireAll : List Line → Work β → Nat × Work β
  | [], w => (0, w)
  | line :: lines, w =>
      let (woken, w) := fire w line
      let (more, w) := fireAll lines w
      (woken + more, w)

def interrupt (s : Scheduler β) (line : Line) : Outcome β Nat :=
  let (woken, w) := fire s.work line
  w.succeed woken

def interrupts (s : Scheduler β) (mask : Mask) : Outcome β Nat :=
  let (woken, w) := fireAll mask.lines s.work
  w.succeed woken

/-!
# After a switch
-/

/--
Returns the stack of a detached thread that exited.  Every thread does this when
it resumes.
-/
def completeSwitch (s : Scheduler β) (supply : Supply) : Outcome β Unit :=
  match s.graveyard with
  | none => s.work.succeed ()
  | some stack =>
      let w := s.work.update fun s => { s with graveyard := none }
      ((w.notice .releasesRetiredStack).release supply stack).succeed ()

end Scheduler

end Coop
