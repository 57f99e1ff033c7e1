import Coop.Machine.Frames
import Coop.Mutex

/-!
# A processor that switches threads

The machine runs thread code on one processor under a runtime.  It moves in
small steps, and its phase says what the next step does.  A call masks
interrupts, goes to the scheduler, perhaps switches to another thread and comes
back much later, and unmasks interrupts; each of these is a step of its own, so
everything that can be said about the moments in between can be said of a state
of the machine.

Interrupts arrive while the processor is halted, and are taken as soon as the
flag allows it.

The lock around the scheduler is left out.  Whoever holds it keeps interrupts
masked, and so an interrupt finds it free, with one exception: a runtime that
spawns a thread, tries to join one, detaches one, answers a question or handles an
interrupt drops its guard of the processor first and its guard of the lock second.
An interrupt that is let in between, which is where `dropGuard` takes one, would
wait for the lock for ever.  The machine goes on there, so that its runs are all
those of the runtime and some more.
-/

namespace Coop

open Thread (Handle Id)

inductive Ended where
  /-- The code of the main thread ended. -/
  | main
  /-- The processor was halted and no interrupt is left to come. -/
  | halt
  | panic (p : Panic)
  deriving DecidableEq, Repr

/-- What can be watched during a run, in the order in which it happened. -/
inductive Event (ν : Type) where
  | notice (n : Notice)
  /-- An interrupt was taken, and made so many threads ready. -/
  | interrupt (mask : Mask) (woken : Nat)
  /-- Thread code left a note; before initialization it runs as no thread. -/
  | note (thread : Option Id) (note : ν)
  deriving DecidableEq, Repr

/-- What the next step of the machine does. -/
inductive Phase (σ : Type) (δ : Type := Int32) where
  | code (state : σ) (response : Response δ)
  | locking (m : Nat) (state : σ)
  /-- The idle thread looks for something to wait for. -/
  | idle
  /-- A call is made, and masks interrupts. -/
  | invoke (c : Call (Body σ)) (caller : Caller σ)
  | schedule (guard : Guard) (c : Call (Body σ)) (caller : Caller σ)
  | switch (guard : Guard) (t : Transfer) (resume : Resume) (caller : Caller σ)
  /-- The running thread has the processor again. -/
  | resume (guard : Guard) (resume : Resume) (caller : Caller σ)
  /-- The running thread has the processor for the first time. -/
  | start
  /-- A call is answered, and unmasks interrupts. -/
  | answer (guard : Guard) (r : Except Error Reply) (caller : Caller σ)
  /-- An interrupt is taken; then the machine goes on as it was about to. -/
  | interrupt (guard : Guard) (mask : Mask) (next : Phase σ δ)
  | stopped (why : Ended)

structure Machine (μ σ ν : Type) (δ : Type := Int32) where
  system : System (Body σ)
  cpu : Cpu
  pending : Option Mask := none
  /-- The interrupts that will end a halt, in order. -/
  upcoming : List Mask := []
  mutexes : Array (Mutex δ) := #[]
  memory : μ
  /--
  The thread whose code the processor runs.  The main thread is always the
  first.
  -/
  running : Id := 1
  /-- The guards the running thread's code holds, the one created last first. -/
  guards : List Guard := []
  /--
  The mutexes whose guards the running thread's code holds, the one taken last
  first.
  -/
  locks : List Nat := []
  frames : Frames σ := {}
  phase : Phase σ δ
  /-- How many stages of calls asked the allocator so far. -/
  stages : Nat := 0
  events : Array (Event ν) := #[]
  faults : List Fault := []

namespace Machine

variable {μ σ ν δ : Type}

def create (config : Config) (cpu : Cpu) (upcoming : List Mask) (mutexes : List δ) (memory : μ)
    (main : σ) : Machine μ σ ν δ :=
  { system := .create config
    cpu, upcoming, memory
    mutexes := (mutexes.map fun data => { data }).toArray
    phase := .code main .started }

def goTo (m : Machine μ σ ν δ) (phase : Phase σ δ) : Machine μ σ ν δ :=
  { m with phase }

def stop (m : Machine μ σ ν δ) (why : Ended) : Machine μ σ ν δ :=
  m.goTo (.stopped why)

def report (m : Machine μ σ ν δ) (notices : List Notice) : Machine μ σ ν δ :=
  { m with events := m.events ++ (notices.map Event.notice).toArray }

/-- The thread that runs, once the runtime is initialized. -/
def thread? (m : Machine μ σ ν δ) : Option Id :=
  if m.system.initialized then some m.running else none

def stage {α : Type} (m : Machine μ σ ν δ) (s : Stage (Body σ) α) : Machine μ σ ν δ :=
  { m with
    system := s.system
    stages := m.stages + 1
    faults := m.faults ++ s.faults }.report s.notices

/-!
# Interrupts
-/

/--
Goes on with interrupts as the flag says: an interrupt that waits is taken first
if it is on.
-/
def takePending (m : Machine μ σ ν δ) (next : Phase σ δ) : Machine μ σ ν δ :=
  match m.pending with
  | some mask =>
      if m.cpu.enabled then
        let (guard, cpu) := Guard.create m.cpu
        { m with cpu, pending := none, phase := .interrupt guard mask next }
      else
        m.goTo next
  | none => m.goTo next

def dropGuard (m : Machine μ σ ν δ) (guard : Guard) (next : Phase σ δ) : Machine μ σ ν δ :=
  { m with cpu := guard.drop m.cpu }.takePending next

/--
Halts the processor until the next interrupt, unless it takes interrupts all the
time.
-/
def awaitInterrupt (m : Machine μ σ ν δ) (next : Machine μ σ ν δ → Machine μ σ ν δ) :
    Machine μ σ ν δ :=
  if m.cpu.maskable then
    match m.upcoming with
    | [] => m.stop .halt
    | mask :: rest => next { m with pending := some mask, upcoming := rest }
  else
    next m

/-!
# Mutexes
-/

def setMutex (m : Machine μ σ ν δ) (k : Nat) (mutex : Mutex δ) : Machine μ σ ν δ :=
  { m with mutexes := m.mutexes.setIfInBounds k mutex }

def tryLock (m : Machine μ σ ν δ) (k : Nat) : Response δ × Machine μ σ ν δ :=
  match m.mutexes[k]? with
  | none => (.noSuchMutex, m)
  | some mutex =>
      match mutex.tryLock? with
      | none => (.busy, m)
      | some mutex => (.locked mutex.data, { m.setMutex k mutex with locks := k :: m.locks })

def freeMutex (m : Machine μ σ ν δ) (k : Nat) : Machine μ σ ν δ :=
  { m with mutexes := m.mutexes.modify k Mutex.unlock }

def unlock (m : Machine μ σ ν δ) (k : Nat) : Response δ × Machine μ σ ν δ :=
  if m.locks.contains k then
    (.flag true, { m.freeMutex k with locks := m.locks.erase k })
  else
    (.flag false, m)

def update (m : Machine μ σ ν δ) (k : Nat) (f : δ → δ) : Response δ × Machine μ σ ν δ :=
  match m.locks.contains k, m.mutexes[k]? with
  | true, some mutex =>
      let mutex := mutex.update f
      (.data mutex.data, m.setMutex k mutex)
  | _, _ => (.notHeld, m)

def unlockAll (m : Machine μ σ ν δ) : Machine μ σ ν δ :=
  { m.locks.foldl freeMutex m with locks := [] }

def unmaskAll (m : Machine μ σ ν δ) : Machine μ σ ν δ :=
  { m with
    cpu := m.guards.foldl (fun cpu (guard : Guard) => guard.drop cpu) m.cpu
    guards := [] }

/-!
# Thread code
-/

/-- The body of the running thread returned: it drops what it holds and exits. -/
def finishBody (m : Machine μ σ ν δ) (code : Int32) : Machine μ σ ν δ :=
  m.unlockAll.unmaskAll.takePending (.invoke (.exit code) .idle)

def serve (m : Machine μ σ ν δ) (state : σ) : Ask σ δ → Machine μ σ ν δ
  | .call c => m.goTo (.invoke c (.code state))
  | .mask =>
      let (guard, cpu) := Guard.create m.cpu
      { m with
        cpu
        guards := guard :: m.guards
        phase := .code state (.count (m.guards.length + 1)) }
  | .unmask =>
      match m.guards with
      | [] => m.goTo (.code state (.flag false))
      | guard :: rest => { m with guards := rest }.dropGuard guard (.code state (.flag true))
  | .setInterrupts on =>
      { m with cpu := if on then m.cpu.enable else m.cpu.disable }.takePending (.code state .done)
  | .interruptsEnabled => m.goTo (.code state (.flag m.cpu.enabled))
  | .halt =>
      if m.cpu.enabled then
        let (guard, cpu) := Guard.create m.cpu
        { m with cpu }.awaitInterrupt fun m => m.dropGuard guard (.code state .done)
      else
        m.goTo (.code state .masked)
  | .lock k => m.goTo (.locking k state)
  | .tryLock k =>
      let (response, m) := m.tryLock k
      m.goTo (.code state response)
  | .unlock k =>
      let (response, m) := m.unlock k
      m.goTo (.code state response)
  | .isLocked k =>
      m.goTo (.code state
        (match m.mutexes[k]? with
          | none => .noSuchMutex
          | some mutex => .flag mutex.locked))
  | .update k f =>
      let (response, m) := m.update k f
      m.goTo (.code state response)
  | .pause => m.goTo (.code state .done)
  | .finish code => if m.running = 1 then m.stop .main else m.finishBody code
  | .panic p => m.stop (.panic p)

def takeTurn (w : World μ σ ν δ) (m : Machine μ σ ν δ) (state : σ) (response : Response δ) :
    Machine μ σ ν δ :=
  let turn := w.turn m.memory state response
  let m :=
    { m with
      memory := turn.memory
      events := m.events ++ (turn.notes.map (Event.note m.thread?)).toArray }
  m.serve turn.state turn.ask

/-- One attempt to take a mutex, followed by a yield if it fails. -/
def attemptLock (m : Machine μ σ ν δ) (k : Nat) (state : σ) : Machine μ σ ν δ :=
  match m.tryLock k with
  | (.busy, m) => m.goTo (.invoke .yield (.locking k state))
  | (response, m) => m.goTo (.code state response)

/-- The idle thread halts the processor if nothing else can run, and then yields. -/
def idle (m : Machine μ σ ν δ) : Machine μ σ ν δ :=
  let (guard, cpu) := Guard.create m.cpu
  let m := { m with cpu }
  if m.system.scheduler.stats.readyThreads = 0 then
    m.awaitInterrupt fun m => m.dropGuard guard (.invoke .yield .idle)
  else
    m.dropGuard guard (.invoke .yield .idle)

/-!
# Calls
-/

def schedule (w : World μ σ ν δ) (m : Machine μ σ ν δ) (guard : Guard) (c : Call (Body σ))
    (caller : Caller σ) : Machine μ σ ν δ :=
  let stage := m.system.begin (w.supply m.stages) c
  let m := m.stage stage
  match stage.value with
  | .ended (.answer r) => m.goTo (.answer guard r caller)
  | .ended (.panic p) => m.stop (.panic p)
  | .switch t resume => m.goTo (.switch guard t resume caller)

/--
The processor changes hands.  The thread it leaves will go on from its frame;
the thread it goes to goes on from its own frame, or starts if it has none.
-/
def switchTo (m : Machine μ σ ν δ) (guard : Guard) (t : Transfer) (resume : Resume)
    (caller : Caller σ) : Machine μ σ ν δ :=
  let frame : Frame σ := { guards := m.guards, locks := m.locks, guard, resume, caller }
  let frames := m.frames.put t.source.id frame
  let m := { m with running := t.target.id }
  match frames.get? t.target.id with
  | none => { m with frames, guards := [], locks := [], phase := .start }
  | some frame =>
      { m with
        frames := frames.erase t.target.id
        guards := frame.guards
        locks := frame.locks
        phase := .resume frame.guard frame.resume frame.caller }

def resume (w : World μ σ ν δ) (m : Machine μ σ ν δ) (guard : Guard) (resume : Resume)
    (caller : Caller σ) : Machine μ σ ν δ :=
  let stage := m.system.finish (w.supply m.stages) resume
  let m := m.stage stage
  match stage.value with
  | .answer r => m.goTo (.answer guard r caller)
  | .panic p => m.stop (.panic p)

def start (w : World μ σ ν δ) (m : Machine μ σ ν δ) : Machine μ σ ν δ :=
  let stage := m.system.start (w.supply m.stages)
  let m := m.stage stage
  let m := { m with cpu := m.cpu.enable }
  match stage.value with
  | some (.code state) => m.takePending (.code state .started)
  | some .idle => m.takePending .idle
  | none => (m.report [.noBody]).takePending (.invoke (.exit (-1)) .idle)

def answer (m : Machine μ σ ν δ) (guard : Guard) (r : Except Error Reply) :
    Caller σ → Machine μ σ ν δ
  | .code state => m.dropGuard guard (.code state (.called r))
  | .locking k state => m.dropGuard guard (.locking k state)
  | .idle =>
      match r with
      | .ok _ => m.dropGuard guard .idle
      | .error e => (m.report [.idleCannotYield e]).dropGuard guard .idle

def interrupt (m : Machine μ σ ν δ) (guard : Guard) (mask : Mask) (next : Phase σ δ) :
    Machine μ σ ν δ :=
  let o := m.system.scheduler.interrupts mask
  let woken := o.result.toOption.getD 0
  let m := m.stage (m.system.stage o fun _ => ())
  let m := { m with events := m.events.push (.interrupt mask woken) }
  m.dropGuard guard next

/-- One step of the machine.  A machine that stopped stays as it is. -/
def step (w : World μ σ ν δ) (m : Machine μ σ ν δ) : Machine μ σ ν δ :=
  match m.phase with
  | .code state response => m.takeTurn w state response
  | .locking k state => m.attemptLock k state
  | .idle => m.idle
  | .invoke c caller =>
      let (guard, cpu) := Guard.create m.cpu
      { m with cpu, phase := .schedule guard c caller }
  | .schedule guard c caller => m.schedule w guard c caller
  | .switch guard t resume caller => m.switchTo guard t resume caller
  | .resume guard resume caller => m.resume w guard resume caller
  | .start => m.start w
  | .answer guard r caller => m.answer guard r caller
  | .interrupt guard mask next => m.interrupt guard mask next
  | .stopped _ => m

/--
Runs the machine until it stops, or for so many steps; answers why it stopped if
it did.
-/
def run (w : World μ σ ν δ) : Nat → Machine μ σ ν δ → Option Ended × Machine μ σ ν δ
  | 0, m => (none, m)
  | fuel + 1, m =>
      match m.phase with
      | .stopped why => (some why, m)
      | _ => run w fuel (m.step w)

end Machine

end Coop
