import Coop.Proofs.Machine.Local
import Coop.Proofs.Machine.Timeline
import Coop.Proofs.System.Calls

/-!
# What a step of a machine does

Of a machine, the threads and their scheduler matter here, and which of them goes on
with what.  All that a step can do to that is said here once, as a relation between
views of machines, together with what the running thread did by its own code.
-/

namespace Coop

open Thread (Handle Id)

/-!
# What thread code does
-/

section Deeds

variable {σ δ : Type}

/-- What a thread does by its own code, and how the code goes on. -/
structure Deed (σ : Type) where
  call? : Option (Call (Body σ)) := none
  /-- What is next, unless the code ends here. -/
  next : Option (Caller σ)

def Body.caller : Body σ → Caller σ
  | .code start => .code start
  | .idle => .idle

def Phase.caller? : Phase σ δ → Option (Caller σ)
  | .code state _ => some (.code state)
  | .locking k state => some (.locking k state)
  | .idle => some .idle
  | _ => none

/-- What the code is answered when it takes its turn, if its last call did not fail. -/
def Phase.reply? : Phase σ δ → Option Reply
  | .code _ (.called (.ok reply)) => some reply
  | _ => none

def Ask.deed (i : Id) (state : σ) : Ask σ δ → Deed σ
  | .call c => { call? := some c, next := if c.returns then some (.code state) else none }
  | .lock k => { next := some (.locking k state) }
  | .finish code => { call? := if i = 1 then none else some (.exit code), next := none }
  | .panic _ => { next := none }
  | _ => { next := some (.code state) }

def Deed.idle : Deed σ :=
  { call? := some .yield, next := some .idle }

inductive Deed.Leads (d : Deed σ) : Phase σ δ → Prop where
  | stops {why : Ended} : Leads d (.stopped why)
  | calls {c : Call (Body σ)} {caller : Caller σ} : d.call? = some c →
      d.next = (if c.returns then some caller else none) → Leads d (.invoke c caller)
  | goesOn {phase : Phase σ δ} {c : Caller σ} : d.call? = none → d.next = some c →
      phase.caller? = some c → phase.reply? = none → Leads d phase

end Deeds

/-!
# Views
-/

/-- What a step did besides what can be seen of the machine. -/
inductive Occurrence (σ : Type) where
  | passes
  | acts (d : Deed σ)
  | asks (request : Request (Body σ)) (result : Except Error (Answer (Body σ)))
  | starts

structure View (σ : Type) (δ : Type := Int32) where
  scheduler : Scheduler (Body σ)
  frames : Frames σ
  running : Id
  /-- What the machine goes on with, interrupts apart. -/
  phase : Phase σ δ

def Body.phase {σ δ : Type} : Body σ → Phase σ δ
  | .code start => .code start .started
  | .idle => .idle

def Caller.phase {σ δ : Type} (r : Except Error Reply) : Caller σ → Phase σ δ
  | .code state => .code state (.called r)
  | .locking k state => .locking k state
  | .idle => .idle

namespace View

variable {σ δ : Type}

def perform (v : View σ δ) (supply : Supply) (request : Request (Body σ)) : View σ δ :=
  { v with scheduler := (v.scheduler.perform supply request).scheduler }

def answer (v : View σ δ) (supply : Supply) (request : Request (Body σ)) :
    Except Error (Answer (Body σ)) :=
  (v.scheduler.perform supply request).result

def goTo (v : View σ δ) (phase : Phase σ δ) : View σ δ :=
  { v with phase }

def suspended (v : View σ δ) (source : Handle) (frame : Frame σ) : Frames σ :=
  v.frames.put source.id frame

/-- All that a step of a machine can do. -/
inductive Step (v : View σ δ) : Occurrence σ → View σ δ → Prop where
  | acted {c : Caller σ} {d : Deed σ} {next : Phase σ δ} : v.phase.caller? = some c →
      (c = .idle → d = .idle) → d.Leads next → Step v (.acts d) (v.goTo next)
  | invoked {guard : Guard} {c : Call (Body σ)} {caller : Caller σ} :
      v.phase = .invoke c caller → Step v .passes (v.goTo (.schedule guard c caller))
  | told {guard : Guard} {c : Call (Body σ)} {caller : Caller σ} {r : Except Error Reply} :
      v.phase = .schedule guard c caller → c.request? = none → c.Answers none r →
        Step v .passes (v.goTo (.answer guard r caller))
  | answered {guard : Guard} {c : Call (Body σ)} {caller : Caller σ} {supply : Supply}
      {request : Request (Body σ)} {r : Except Error Reply} :
      v.phase = .schedule guard c caller → c.request? = some request →
        (∀ t, v.answer supply request ≠ .ok (.transfer t)) →
          c.Answers (some (v.answer supply request)) r →
            Step v (.asks request (v.answer supply request))
              ((v.perform supply request).goTo (.answer guard r caller))
  /-- No thread can take over from one that exits. -/
  | panicked {guard : Guard} {caller : Caller σ} {supply : Supply} {code : Int32} {e : Error} :
      v.phase = .schedule guard (.exit code) caller → v.answer supply (.exit code) = .error e →
        Step v (.asks (.exit code) (v.answer supply (.exit code)))
          ((v.perform supply (.exit code)).goTo (.stopped (.panic (.cannotExit e))))
  | paused {guard : Guard} {c : Call (Body σ)} {caller : Caller σ} {supply : Supply}
      {request : Request (Body σ)} {t : Transfer} {resume : Resume} :
      v.phase = .schedule guard c caller → c.request? = some request → c.Pauses resume →
        v.answer supply request = .ok (.transfer t) →
          Step v (.asks request (v.answer supply request))
            ((v.perform supply request).goTo (.switch guard t resume caller))
  /-- The processor goes to a thread that never had it. -/
  | switched {guard : Guard} {t : Transfer} {resume : Resume} {caller : Caller σ}
      {frame : Frame σ} : v.phase = .switch guard t resume caller → frame.resume = resume →
        frame.caller = caller → (v.suspended t.source frame).get? t.target.id = none →
          Step v .passes ⟨v.scheduler, v.suspended t.source frame, t.target.id, .start⟩
  | resumed {guard : Guard} {t : Transfer} {resume : Resume} {caller : Caller σ}
      {frame frame' : Frame σ} : v.phase = .switch guard t resume caller → frame.resume = resume →
        frame.caller = caller → (v.suspended t.source frame).get? t.target.id = some frame' →
          Step v .passes ⟨v.scheduler, (v.suspended t.source frame).erase t.target.id,
            t.target.id, .resume frame'.guard frame'.resume frame'.caller⟩
  | completed {guard : Guard} {caller : Caller σ} {supply : Supply} :
      v.phase = .resume guard .plain caller →
        Step v .passes ((v.perform supply .completeSwitch).goTo (.answer guard (.ok .done) caller))
  | collected {guard : Guard} {caller : Caller σ} {supply : Supply} {h : Handle}
      {r : Except Error Int32} : v.phase = .resume guard (.collect h) caller →
        (v.perform supply .completeSwitch).answer supply (.collect h) = r.map .code →
          Step v .passes (((v.perform supply .completeSwitch).perform supply (.collect h)).goTo
            (.answer guard (r.map .code) caller))
  | returned {guard : Guard} {caller : Caller σ} {why : Ended} :
      v.phase = .resume guard .never caller → Step v .passes (v.goTo (.stopped why))
  | began {supply : Supply} {body : Body σ} : v.phase = .start →
      (v.perform supply .completeSwitch).answer supply .takeBody = .ok (.body (some body)) →
        Step v .starts
          (((v.perform supply .completeSwitch).perform supply .takeBody).goTo body.phase)
  | bodiless {supply : Supply} : v.phase = .start →
      (v.perform supply .completeSwitch).answer supply .takeBody = .ok (.body none) →
        Step v .starts (((v.perform supply .completeSwitch).perform supply .takeBody).goTo
          (.invoke (.exit (-1)) .idle))
  | replied {guard : Guard} {r : Except Error Reply} {caller : Caller σ} :
      v.phase = .answer guard r caller → Step v .passes (v.goTo (caller.phase r))
  | interrupted {mask : Mask} :
      Step v (.asks (.interrupts mask) (v.answer .ample (.interrupts mask)))
        (v.perform .ample (.interrupts mask))
  | stopped {why : Ended} : v.phase = .stopped why → Step v .passes v

end View

namespace Machine

variable {μ σ ν δ : Type}

def view (m : Machine μ σ ν δ) : View σ δ :=
  ⟨m.system.scheduler, m.frames, m.running, m.phase.core⟩

/-- What an attempt to take a mutex does: a yield follows if it fails. -/
def attempt (m : Machine μ σ ν δ) (k : Nat) (state : σ) : Deed σ :=
  match (m.tryLock k).1 with
  | .busy => { call? := some .yield, next := some (.locking k state) }
  | _ => { next := some (.code state) }

def occurrenceIn (w : World μ σ ν δ) (m : Machine μ σ ν δ) : Phase σ δ → Occurrence σ
  | .code state response =>
      let turn := w.turn m.memory state response
      .acts (turn.ask.deed m.running turn.state)
  | .locking k state => .acts (m.attempt k state)
  | .idle => .acts .idle
  | .schedule _ c _ =>
      match c.request? with
      | none => .passes
      | some request =>
          .asks request (m.system.scheduler.perform (w.supply m.stages) request).result
  | .start => .starts
  | .interrupt _ mask _ =>
      .asks (.interrupts mask) (m.system.scheduler.perform .ample (.interrupts mask)).result
  | _ => .passes

def occurrence (w : World μ σ ν δ) (m : Machine μ σ ν δ) : Occurrence σ :=
  m.occurrenceIn w m.phase

section Steps

variable {m m' m'' : Machine μ σ ν δ} {d : Deed σ} {phase next : Phase σ δ}

/-!
# Steps of thread code
-/

/-- A machine goes on with the same threads, and in the given phase, interrupts apart. -/
def Reaches (m m' : Machine μ σ ν δ) (phase : Phase σ δ) : Prop :=
  m'.view = m.view.goTo phase

def Acts (m m' : Machine μ σ ν δ) (d : Deed σ) : Prop :=
  ∃ next, d.Leads next ∧ m.Reaches m' next

theorem Reaches.of_view_eq (hreaches : m'.Reaches m'' phase) (hview : m'.view = m.view) :
    m.Reaches m'' phase := by
  rw [Reaches, hreaches, hview]

theorem Acts.of_view_eq (hacts : m'.Acts m'' d) (hview : m'.view = m.view) : m.Acts m'' d := by
  rcases hacts with ⟨next, hleads, hreaches⟩
  exact ⟨next, hleads, hreaches.of_view_eq hview⟩

theorem reaches_takePending (m : Machine μ σ ν δ) (next : Phase σ δ) :
    m.Reaches (m.takePending next) next.core := by
  unfold takePending
  cases m.pending with
  | none => rfl
  | some mask => cases m.cpu.enabled <;> rfl

theorem reaches_dropGuard (m : Machine μ σ ν δ) (guard : Guard) (next : Phase σ δ) :
    m.Reaches (m.dropGuard guard next) next.core :=
  (reaches_takePending _ next).of_view_eq rfl

structure Local (m : Machine μ σ ν δ) (told : Response δ × Machine μ σ ν δ) : Prop where
  view : told.2.view = m.view
  reply : ∀ state : σ, Phase.reply? (.code state told.1) = none

theorem local_tryLock (m : Machine μ σ ν δ) (k : Nat) : m.Local (m.tryLock k) := by
  unfold tryLock
  cases m.mutexes[k]? with
  | none => exact ⟨rfl, fun _ => rfl⟩
  | some mutex =>
      cases hlock : mutex.tryLock? with
      | none =>
          simp only [hlock]
          exact ⟨rfl, fun _ => rfl⟩
      | some locked =>
          simp only [hlock]
          exact ⟨rfl, fun _ => rfl⟩

theorem local_unlock (m : Machine μ σ ν δ) (k : Nat) : m.Local (m.unlock k) := by
  unfold unlock
  cases m.locks.contains k <;> exact ⟨rfl, fun _ => rfl⟩

theorem local_update (m : Machine μ σ ν δ) (k : Nat) (f : δ → δ) :
    m.Local (m.update k f) := by
  unfold update
  cases m.locks.contains k with
  | false => exact ⟨rfl, fun _ => rfl⟩
  | true => cases m.mutexes[k]? <;> exact ⟨rfl, fun _ => rfl⟩

theorem Relocks.view_eq (hrelocks : m.Relocks m') : m'.view = m.view := by
  rcases hrelocks with ⟨mutexes, locks, rfl⟩
  rfl

theorem reaches_finishBody (m : Machine μ σ ν δ) (code : Int32) :
    m.Reaches (m.finishBody code) (.invoke (.exit code) .idle) := by
  have hview : m.unlockAll.unmaskAll.view = m.view := (relocks_unlockAll m).view_eq
  exact (reaches_takePending _ (.invoke (.exit code) .idle)).of_view_eq hview

theorem acts_stop (m : Machine μ σ ν δ) (why : Ended) (d : Deed σ) : m.Acts (m.stop why) d :=
  ⟨.stopped why, .stops, rfl⟩

theorem acts_awaitInterrupt (m : Machine μ σ ν δ) {after : Machine μ σ ν δ → Machine μ σ ν δ}
    (hafter : ∀ m' : Machine μ σ ν δ, m'.Acts (after m') d) :
    m.Acts (m.awaitInterrupt after) d := by
  unfold awaitInterrupt
  cases m.cpu.maskable with
  | false => exact hafter m
  | true =>
      cases m.upcoming with
      | nil => exact acts_stop m .halt d
      | cons mask rest => exact (hafter _).of_view_eq rfl

theorem acts_code {state : σ} {response : Response δ}
    (hreply : Phase.reply? (.code state response) = none)
    (hreaches : m.Reaches m' (.code state response)) : m.Acts m' { next := some (.code state) } :=
  ⟨.code state response, .goesOn rfl rfl rfl hreply, hreaches⟩

theorem Local.acts {told : Response δ × Machine μ σ ν δ} (hlocal : m.Local told) (state : σ) :
    m.Acts (told.2.goTo (.code state told.1)) { next := some (.code state) } := by
  have hreaches : told.2.Reaches (told.2.goTo (.code state told.1)) (.code state told.1) := rfl
  exact acts_code (hlocal.reply state) (hreaches.of_view_eq hlocal.view)

theorem acts_serve (m : Machine μ σ ν δ) (state : σ) (ask : Ask σ δ) :
    m.Acts (m.serve state ask) (ask.deed m.running state) := by
  cases ask with
  | call c => exact ⟨.invoke c (.code state), .calls rfl rfl, rfl⟩
  | mask => exact acts_code rfl rfl
  | unmask =>
      unfold serve
      cases m.guards with
      | nil => exact acts_code rfl rfl
      | cons guard rest =>
          have hreaches := reaches_dropGuard { m with guards := rest } guard
            (.code state (.flag true))
          exact acts_code rfl (hreaches.of_view_eq rfl)
  | setInterrupts on =>
      exact acts_code rfl ((reaches_takePending _ (.code state .done)).of_view_eq rfl)
  | interruptsEnabled => exact acts_code rfl rfl
  | halt =>
      unfold serve
      cases m.cpu.enabled with
      | false => exact acts_code rfl rfl
      | true =>
          simp only [if_true]
          refine (acts_awaitInterrupt _ fun m' => ?_).of_view_eq rfl
          exact acts_code rfl (reaches_dropGuard m' _ (.code state .done))
  | lock k => exact ⟨.locking k state, .goesOn rfl rfl rfl rfl, rfl⟩
  | tryLock k => exact (local_tryLock m k).acts state
  | unlock k => exact (local_unlock m k).acts state
  | isLocked k =>
      refine acts_code ?_ rfl
      cases m.mutexes[k]? <;> rfl
  | update k f => exact (local_update m k f).acts state
  | pause => exact acts_code rfl rfl
  | finish code =>
      unfold serve
      by_cases hmain : m.running = 1
      · simp only [hmain, if_true]
        exact acts_stop m .main _
      · simp only [hmain, if_false]
        refine ⟨_, .calls ?_ ?_, reaches_finishBody m code⟩
        · simp [Ask.deed, hmain]
        · rfl
  | panic p => exact acts_stop m (.panic p) _

theorem acts_takeTurn (w : World μ σ ν δ) (m : Machine μ σ ν δ) (state : σ)
    (response : Response δ) :
    m.Acts (m.takeTurn w state response)
      ((w.turn m.memory state response).ask.deed m.running
        (w.turn m.memory state response).state) :=
  (acts_serve _ _ _).of_view_eq rfl

theorem acts_idle (m : Machine μ σ ν δ) : m.Acts m.idle .idle := by
  have hyields : ∀ (m' : Machine μ σ ν δ) guard, m'.Acts (m'.dropGuard guard (.invoke .yield .idle))
      .idle :=
    fun m' guard => ⟨_, .calls rfl rfl, reaches_dropGuard m' guard (.invoke .yield .idle)⟩
  unfold idle
  by_cases hready : m.system.scheduler.stats.readyThreads = 0
  · simp only [hready, if_true]
    exact (acts_awaitInterrupt _ fun m' => hyields m' _).of_view_eq rfl
  · simp only [hready, if_false]
    exact (hyields _ _).of_view_eq rfl

theorem reaches_answer (m : Machine μ σ ν δ) (guard : Guard) (r : Except Error Reply)
    (caller : Caller σ) : m.Reaches (m.answer guard r caller) (caller.phase r) := by
  cases caller with
  | code state => exact reaches_dropGuard m guard _
  | locking k state => exact reaches_dropGuard m guard _
  | idle =>
      cases r with
      | ok reply => exact reaches_dropGuard m guard .idle
      | error e => exact (reaches_dropGuard _ guard .idle).of_view_eq rfl

theorem acts_attemptLock (m : Machine μ σ ν δ) (k : Nat) (state : σ) :
    m.Acts (m.attemptLock k state) (m.attempt k state) := by
  have hlocal := local_tryLock m k
  unfold attempt attemptLock
  cases hlock : m.tryLock k with
  | mk response m' =>
      rw [hlock] at hlocal
      cases response with
      | busy =>
          have hreaches : m'.Acts (m'.goTo (.invoke .yield (.locking k state)))
              { call? := some .yield, next := some (.locking k state) } :=
            ⟨_, .calls rfl rfl, rfl⟩
          exact hreaches.of_view_eq hlocal.view
      | _ => exact hlocal.acts state

/-!
# Every step
-/

theorem Acts.step (hacts : m.Acts m' d) {c : Caller σ} (hcaller : m.view.phase.caller? = some c)
    (hidle : c = .idle → d = .idle) : m.view.Step (.acts d) m'.view := by
  rcases hacts with ⟨next, hleads, hreaches⟩
  rw [hreaches]
  exact .acted hcaller hidle hleads

theorem view_phase (hphase : m.phase = phase) : m.view.phase = phase.core := by
  rw [← hphase]
  rfl

theorem view_stage {α : Type} (m : Machine μ σ ν δ) {stage : Stage (Body σ) α}
    {s : Scheduler (Body σ)} (hscheduler : stage.system.scheduler = s) (phase : Phase σ δ) :
    ((m.stage stage).goTo phase).view = ⟨s, m.frames, m.running, phase.core⟩ := by
  rw [← hscheduler]
  rfl

theorem step_schedule (w : World μ σ ν δ) (m : Machine μ σ ν δ) {guard : Guard} {c : Call (Body σ)}
    {caller : Caller σ} (hphase : m.phase = .schedule guard c caller) :
    m.view.Step (m.occurrenceIn w (.schedule guard c caller))
      (m.schedule w guard c caller).view := by
  have hview : m.view.phase = .schedule guard c caller := view_phase hphase
  have hfollows := m.system.begin_follows (w.supply m.stages) c
  have hrequested : ∀ request, c.request? = some request →
      (m.system.begin (w.supply m.stages) c).system.scheduler =
        (m.system.scheduler.perform (w.supply m.stages) request).scheduler := by
    intro request hrequest
    rw [hrequest] at hfollows
    exact hfollows
  unfold occurrenceIn schedule
  cases hvalue : (m.system.begin (w.supply m.stages) c).value with
  | switch t resume =>
      rcases System.begin_switch hvalue with ⟨request, hrequest, hresult, -⟩
      simp only [hvalue, hrequest]
      rw [view_stage m (hrequested request hrequest)]
      exact .paused hview hrequest (System.pauses_of_switch hvalue) hresult
  | ended e =>
      cases e with
      | answer r =>
          have hanswers := System.answers_of_ended hvalue
          cases hrequest : c.request? with
          | none =>
              rw [hrequest] at hfollows hanswers
              simp only [hvalue, hrequest]
              rw [view_stage m hfollows]
              exact .told hview hrequest hanswers
          | some request =>
              rw [hrequest] at hanswers
              simp only [hvalue, hrequest]
              rw [view_stage m (hrequested request hrequest)]
              exact .answered hview hrequest (System.begin_ended hvalue hrequest) hanswers
      | panic p =>
          rcases System.panic_of_ended hvalue with ⟨code, e, rfl, rfl, hresult⟩
          simp only [hvalue, Call.request?, stop]
          rw [view_stage m (hrequested (.exit code) rfl)]
          exact .panicked hview hresult

theorem step_switchTo (m : Machine μ σ ν δ) {guard : Guard} {t : Transfer} {resume : Resume}
    {caller : Caller σ} (hphase : m.phase = .switch guard t resume caller) :
    m.view.Step .passes (m.switchTo guard t resume caller).view := by
  have hview : m.view.phase = .switch guard t resume caller := view_phase hphase
  unfold switchTo
  cases hget : (m.frames.put t.source.id ⟨m.guards, m.locks, guard, resume, caller⟩).get?
      t.target.id with
  | none =>
      have hframes : (m.view.suspended t.source ⟨m.guards, m.locks, guard, resume, caller⟩).get?
        t.target.id = none := hget
      simp only [hget]
      exact .switched hview rfl rfl hframes
  | some frame =>
      have hframes : (m.view.suspended t.source ⟨m.guards, m.locks, guard, resume, caller⟩).get?
        t.target.id = some frame := hget
      simp only [hget]
      exact .resumed hview rfl rfl hframes

theorem step_resume (w : World μ σ ν δ) (m : Machine μ σ ν δ) {guard : Guard} {resume : Resume}
    {caller : Caller σ} (hphase : m.phase = .resume guard resume caller) :
    m.view.Step .passes (m.resume w guard resume caller).view := by
  have hview : m.view.phase = .resume guard resume caller := view_phase hphase
  cases resume with
  | plain => exact .completed hview
  | never => exact .returned hview
  | collect h => exact .collected hview rfl

theorem step_start (w : World μ σ ν δ) (m : Machine μ σ ν δ) (hphase : m.phase = .start) :
    m.view.Step .starts (m.start w).view := by
  have hview : m.view.phase = .start := view_phase hphase
  have htook : ∀ body?, (m.system.start (w.supply m.stages)).value = body? →
      (m.view.perform (w.supply m.stages) .completeSwitch).answer (w.supply m.stages) .takeBody =
        .ok (.body body?) := by
    rintro _ rfl
    rfl
  unfold start
  cases hvalue : (m.system.start (w.supply m.stages)).value with
  | none =>
      simp only [hvalue]
      rw [reaches_takePending]
      exact .bodiless hview (htook none hvalue)
  | some body =>
      cases body with
      | code state =>
          simp only [hvalue]
          rw [reaches_takePending]
          exact .began hview (htook _ hvalue)
      | idle =>
          simp only [hvalue]
          rw [reaches_takePending]
          exact .began hview (htook _ hvalue)

theorem step_view (w : World μ σ ν δ) (m : Machine μ σ ν δ) :
    m.view.Step (m.occurrence w) (m.step w).view := by
  have hview : m.view.phase = m.phase.core := rfl
  unfold Machine.step occurrence
  cases hphase : m.phase with
  | code state response =>
      rw [hphase] at hview
      have hcaller : m.view.phase.caller? = some (.code state) := congrArg Phase.caller? hview
      refine (acts_takeTurn w m state response).step hcaller ?_
      intro hidle
      cases hidle
  | locking k state =>
      rw [hphase] at hview
      have hcaller : m.view.phase.caller? = some (.locking k state) := congrArg Phase.caller? hview
      refine (acts_attemptLock m k state).step hcaller ?_
      intro hidle
      cases hidle
  | idle =>
      rw [hphase] at hview
      have hcaller : m.view.phase.caller? = some .idle := congrArg Phase.caller? hview
      exact (acts_idle m).step hcaller fun _ => rfl
  | invoke c caller =>
      rw [hphase] at hview
      exact .invoked hview
  | schedule guard c caller => exact step_schedule w m hphase
  | switch guard t resume caller => exact step_switchTo m hphase
  | resume guard resume caller => exact step_resume w m hphase
  | start => exact step_start w m hphase
  | answer guard r caller =>
      rw [hphase] at hview
      show m.view.Step .passes (m.answer guard r caller).view
      rw [reaches_answer]
      exact .replied hview
  | interrupt guard mask next =>
      have hnext : (m.interrupt guard mask next).view =
          m.view.perform .ample (.interrupts mask) := by
        refine (reaches_dropGuard _ guard next).trans ?_
        rw [View.perform, hview, hphase]
        rfl
      show m.view.Step _ (m.interrupt guard mask next).view
      rw [hnext]
      exact .interrupted
  | stopped why =>
      rw [hphase] at hview
      exact .stopped hview

theorem view_arrive (m : Machine μ σ ν δ) (arrival : Option Mask) :
    (m.arrive arrival).view = m.view := by
  cases arrival with
  | none => rfl
  | some mask =>
      unfold arrive
      cases hopen : m.phase.isOpen with
      | true =>
          simp only [hopen, if_true]
          exact (reaches_takePending _ m.phase).of_view_eq rfl
      | false =>
          simp only [hopen]
          rfl

end Steps

end Machine

end Coop
