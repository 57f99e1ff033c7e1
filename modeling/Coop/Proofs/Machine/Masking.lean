import Coop.Proofs.Machine.Reclaiming

/-!
# Every thread keeps its own interrupt mask

There is one interrupt flag, and thread code changes it as it likes.  Still a call gives
its caller the flag back as it was: the guard of a call that gives up the processor is
part of the caller's frame, and nobody drops it before the caller has the processor
again.  Guards of different threads are not nested, so nothing can be said about all
guards in the order of their making; what is followed here is one call of one thread.
-/

namespace Coop

open Thread (Id)

namespace Phase

variable {σ : Type} {phase : Phase σ} {guard : Guard} {caller : Caller σ}

/-- The guard of the call that is under way, and who made the call. -/
def call? : Phase σ → Option (Guard × Caller σ)
  | .schedule guard _ caller | .switch guard _ _ caller | .resume guard _ caller
  | .answer guard _ caller => some (guard, caller)
  | _ => none

theorem isOpen_of_call? (hcall : phase.call? = some (guard, caller)) : phase.isOpen = false := by
  cases phase <;> trivial

theorem isOpen_caller (caller : Caller σ) (r : Except Error Reply) :
    (caller.phase r : Phase σ).isOpen = true := by
  cases caller <;> rfl

theorem isOpen_body (body : Body σ) : (body.phase : Phase σ).isOpen = true := by
  cases body <;> rfl

end Phase

namespace Machine

variable {μ σ ν : Type} {w : World μ σ ν} {m m' : Machine μ σ ν} {p : History σ}
  {phase next : Phase σ} {guard : Guard} {caller : Caller σ} {i : Id} {f : Bool}

/-!
# Where the flag is off
-/

/-- The flag can be turned off, and it is off wherever it has to be. -/
structure Masked (m : Machine μ σ ν) : Prop where
  maskable : m.cpu.maskable = true
  off : m.phase.isCritical = true → m.cpu.enabled = false
  taken : ∀ guard mask next, m.phase = .interrupt guard mask next →
    guard.wasEnabled = true ∧ next.isOpen = true

theorem masked_goTo (hmaskable : m.cpu.maskable = true) (hphase : phase.isCritical = false) :
    (m.goTo phase).Masked where
  maskable := hmaskable
  off := by
    intro hcritical
    cases hphase.symm.trans hcritical
  taken := by
    rintro guard mask next rfl
    cases hphase

theorem masked_critical (hmaskable : m.cpu.maskable = true) (hoff : m.cpu.enabled = false)
    (hphase : ∀ guard mask next, m.phase ≠ .interrupt guard mask next) : m.Masked where
  maskable := hmaskable
  off := fun _ => hoff
  taken := fun guard mask next htaken => absurd htaken (hphase guard mask next)

theorem masked_takePending (hmaskable : m.cpu.maskable = true) (hnext : next.isOpen = true) :
    (m.takePending next).Masked := by
  unfold takePending
  cases m.pending with
  | none => exact masked_goTo hmaskable (Phase.isCritical_of_isOpen hnext)
  | some mask =>
      cases henabled : m.cpu.enabled with
      | false => exact masked_goTo hmaskable (Phase.isCritical_of_isOpen hnext)
      | true =>
          refine ⟨hmaskable, fun _ => Cpu.enabled_disable hmaskable, ?_⟩
          intro guard mask' next' hphase
          cases hphase
          exact ⟨henabled, hnext⟩

theorem Turns.masked (hturns : m.Turns m') (hmaskable : m.cpu.maskable = true) : m'.Masked := by
  cases hturns with
  | goesOn hbefore hnext => exact masked_goTo (hbefore.maskable.trans hmaskable) hnext
  | listens hbefore hnext => exact masked_takePending (hbefore.maskable.trans hmaskable) hnext

/-!
# Every step
-/

theorem masked_schedule (w : World μ σ ν) (hm : m.Masked) {c : Call (Body σ)}
    (hphase : m.phase = .schedule guard c caller) : (m.schedule w guard c caller).Masked := by
  have hoff : m.cpu.enabled = false := hm.off (by rw [hphase]; rfl)
  unfold schedule
  cases hvalue : (m.system.begin (w.supply m.stages) c).value with
  | switch t resume =>
      simp only [hvalue]
      exact masked_critical hm.maskable hoff fun _ _ _ => nofun
  | ended e =>
      cases e with
      | answer r =>
          simp only [hvalue]
          exact masked_critical hm.maskable hoff fun _ _ _ => nofun
      | panic p =>
          simp only [hvalue]
          exact masked_goTo hm.maskable rfl

theorem masked_switchTo (hm : m.Masked) {t : Transfer} {resume : Resume}
    (hphase : m.phase = .switch guard t resume caller) :
    (m.switchTo guard t resume caller).Masked := by
  have hoff : m.cpu.enabled = false := hm.off (by rw [hphase]; rfl)
  unfold switchTo
  cases hget : (m.frames.put t.source.id ⟨m.guards, m.locks, guard, resume, caller⟩).get?
      t.target.id with
  | none =>
      simp only [hget]
      exact masked_critical hm.maskable hoff fun _ _ _ => nofun
  | some frame =>
      simp only [hget]
      exact masked_critical hm.maskable hoff fun _ _ _ => nofun

theorem masked_resume (w : World μ σ ν) (hm : m.Masked) {resume : Resume}
    (hphase : m.phase = .resume guard resume caller) :
    (m.resume w guard resume caller).Masked := by
  have hoff : m.cpu.enabled = false := hm.off (by rw [hphase]; rfl)
  unfold Machine.resume
  cases hvalue : (m.system.finish (w.supply m.stages) resume).value with
  | answer r =>
      simp only [hvalue]
      exact masked_critical hm.maskable hoff fun _ _ _ => nofun
  | panic p =>
      simp only [hvalue]
      exact masked_goTo hm.maskable rfl

theorem masked_start (w : World μ σ ν) (hm : m.Masked) : (m.start w).Masked := by
  unfold start
  cases hvalue : (m.system.start (w.supply m.stages)).value with
  | none =>
      simp only [hvalue]
      exact masked_takePending hm.maskable rfl
  | some body =>
      cases body with
      | code state =>
          simp only [hvalue]
          exact masked_takePending hm.maskable rfl
      | idle =>
          simp only [hvalue]
          exact masked_takePending hm.maskable rfl

theorem Masked.step (w : World μ σ ν) (hm : m.Masked) : (m.step w).Masked := by
  unfold Machine.step
  cases hphase : m.phase with
  | code state response => exact (turns_takeTurn w m state response).masked hm.maskable
  | locking k state => exact (turns_attemptLock m k state).masked hm.maskable
  | idle => exact (turns_idle m).masked hm.maskable
  | invoke c caller =>
      exact masked_critical hm.maskable (Cpu.enabled_disable hm.maskable) fun _ _ _ => nofun
  | schedule guard c caller => exact masked_schedule w hm hphase
  | switch guard t resume caller => exact masked_switchTo hm hphase
  | resume guard resume caller => exact masked_resume w hm hphase
  | start => exact masked_start w hm
  | answer guard r caller => exact (turns_answer m guard r caller).masked hm.maskable
  | interrupt guard mask next =>
      have hopen := (hm.taken guard mask next hphase).2
      exact (turns_dropGuard _ guard hopen).masked hm.maskable
  | stopped why => exact hm

theorem arrive_of_closed (hclosed : m.phase.isOpen = false) (arrival : Option Mask) :
    (m.arrive arrival).phase = m.phase ∧ (m.arrive arrival).cpu = m.cpu := by
  cases arrival with
  | none => exact ⟨rfl, rfl⟩
  | some mask =>
      unfold arrive
      simp only [hclosed]
      exact ⟨rfl, rfl⟩

theorem Masked.arrive (hm : m.Masked) (arrival : Option Mask) : (m.arrive arrival).Masked := by
  cases hopen : m.phase.isOpen with
  | false =>
      rcases arrive_of_closed hopen arrival with ⟨hphase, hcpu⟩
      refine ⟨?_, ?_, ?_⟩
      · rw [hcpu]
        exact hm.maskable
      · rw [hphase, hcpu]
        exact hm.off
      · rw [hphase]
        exact hm.taken
  | true =>
      cases arrival with
      | none => exact hm
      | some mask =>
          unfold Machine.arrive
          simp only [hopen, if_true]
          refine masked_takePending ?_ hopen
          exact hm.maskable

theorem masked_create (config : Config) (cpu : Cpu) (hmaskable : cpu.maskable = true)
    (upcoming : List Mask) (mutexes : List Int32) (memory : μ) (main : σ) :
    (create config cpu upcoming mutexes memory main : Machine μ σ ν).Masked where
  maskable := hmaskable
  off := nofun
  taken := nofun

theorem Masked.timeline (hm : m.Masked) (w : World μ σ ν) (arrivals : Nat → Option Mask)
    (n : Nat) : (m.timeline w arrivals n).Masked := by
  induction n with
  | zero => exact hm
  | succ n ih => exact (ih.step w).arrive (arrivals n)

theorem Masked.undisturbed_step (hm : m.Masked) (hon : m.cpu.enabled = true)
    (w : World μ σ ν) : m.Undisturbed (m.step w) := by
  have hcritical : m.phase.isCritical = false := by
    cases hcritical : m.phase.isCritical with
    | false => rfl
    | true => cases hon.symm.trans (hm.off hcritical)
  unfold Machine.step
  cases hphase : m.phase with
  | code state response => exact (turns_takeTurn w m state response).undisturbed
  | locking k state => exact (turns_attemptLock m k state).undisturbed
  | idle => exact (turns_idle m).undisturbed
  | invoke c caller => exact ⟨rfl, rfl, rfl, rfl, rfl⟩
  | stopped why => exact undisturbed_refl m
  | _ =>
      rw [hphase] at hcritical
      cases hcritical

/-!
# About to go on

When a call is answered, when an interrupt is over and when a thread begins, the flag is
set and the code goes on, after the interrupts that waited for the flag.
-/

/-- The thread goes on with this phase and this flag, perhaps after some interrupts. -/
inductive Nears (m : Machine μ σ ν) (i : Id) (next : Phase σ) (f : Bool) : Prop where
  | there : m.running = i → m.phase = next → m.cpu.enabled = f → Nears m i next f
  | taking {guard : Guard} {mask : Mask} : m.running = i → m.phase = .interrupt guard mask next →
      f = true → Nears m i next f

theorem nears_takePending (m : Machine μ σ ν) (next : Phase σ) :
    (m.takePending next).Nears m.running next m.cpu.enabled := by
  unfold takePending
  cases m.pending with
  | none => exact .there rfl rfl rfl
  | some mask =>
      cases henabled : m.cpu.enabled with
      | false => exact .there rfl rfl henabled
      | true => exact .taking rfl rfl rfl

theorem nears_dropGuard (hoff : m.cpu.enabled = false) (guard : Guard) (next : Phase σ) :
    (m.dropGuard guard next).Nears m.running next guard.wasEnabled := by
  have hflag : (guard.drop m.cpu).enabled = guard.wasEnabled := by
    rw [Guard.enabled_drop, hoff, Bool.or_false]
  rw [← hflag]
  exact nears_takePending { m with cpu := guard.drop m.cpu } next

theorem Nears.arrive (hnears : m.Nears i next f) (hopen : next.isOpen = true)
    (arrival : Option Mask) : (m.arrive arrival).Nears i next f := by
  cases hnears with
  | there hrunning hphase hflag =>
      cases arrival with
      | none => exact .there hrunning hphase hflag
      | some mask =>
          unfold Machine.arrive
          simp only [hphase, hopen, if_true]
          rw [← hrunning, ← hflag]
          exact nears_takePending { m with pending := some (mask ||| m.pending.getD 0) } next
  | taking hrunning hphase hf =>
      have hclosed : m.phase.isOpen = false := by
        rw [hphase]
        rfl
      exact .taking ((undisturbed_arrive m arrival).running.trans hrunning)
        ((arrive_of_closed hclosed arrival).1.trans hphase) hf

theorem Masked.nears_interrupt (hm : m.Masked) {mask : Mask}
    (hphase : m.phase = .interrupt guard mask next) (w : World μ σ ν) :
    (m.step w).Nears m.running next true := by
  have hoff : m.cpu.enabled = false := hm.off (by rw [hphase]; rfl)
  have hnears : (m.interrupt guard mask next).Nears m.running next guard.wasEnabled := by
    unfold interrupt
    refine nears_dropGuard ?_ guard next
    exact hoff
  rw [(hm.taken guard mask next hphase).1] at hnears
  unfold Machine.step
  rw [hphase]
  exact hnears

theorem Masked.nears_answer (hm : m.Masked) {r : Except Error Reply}
    (hphase : m.phase = .answer guard r caller) (w : World μ σ ν) :
    (m.step w).Nears m.running (caller.phase r) guard.wasEnabled := by
  have hoff : m.cpu.enabled = false := hm.off (by rw [hphase]; rfl)
  unfold Machine.step
  rw [hphase]
  cases caller with
  | code state => exact nears_dropGuard hoff guard _
  | locking k state => exact nears_dropGuard hoff guard _
  | idle =>
      cases r with
      | ok reply => exact nears_dropGuard hoff guard _
      | error e => exact nears_dropGuard (m := m.report [.idleCannotYield e]) hoff guard _

theorem nears_start {body : Body σ} (hphase : m.phase = .start)
    (hbody : (m.system.start (w.supply m.stages)).value = some body) :
    (m.step w).Nears m.running body.phase true := by
  unfold Machine.step
  rw [hphase]
  unfold start
  cases body with
  | code state =>
      simp only [hbody]
      exact nears_takePending _ _
  | idle =>
      simp only [hbody]
      exact nears_takePending _ _

/-!
# In the middle of a call
-/

/--
The thread is in the middle of a call of this caller, or the machine stopped.  The guard
of the call is with the call while the thread has the processor, and else in its frame.
-/
inductive Within (m : Machine μ σ ν) (i : Id) (caller : Caller σ) (f : Bool) : Prop where
  | calling {guard : Guard} : m.running = i → m.phase.call? = some (guard, caller) →
      guard.wasEnabled = f → Within m i caller f
  | parked {frame : Frame σ} : m.running ≠ i → m.frames.get? i = some frame →
      frame.caller = caller → frame.guard.wasEnabled = f → Within m i caller f
  | stopped {why : Ended} : m.phase = .stopped why → Within m i caller f

theorem Within.arrive (hwithin : m.Within i caller f) (arrival : Option Mask) :
    (m.arrive arrival).Within i caller f := by
  have hrunning := (undisturbed_arrive m arrival).running
  have hframes := (undisturbed_arrive m arrival).frames
  cases hwithin with
  | calling hturn hcall hguard =>
      refine .calling (hrunning.trans hturn) ?_ hguard
      rw [(arrive_of_closed (Phase.isOpen_of_call? hcall) arrival).1, hcall]
  | parked haway hget hcaller hguard =>
      refine .parked ?_ ?_ hcaller hguard
      · rw [hrunning]
        exact haway
      · rw [hframes, hget]
  | stopped hphase =>
      have hclosed : m.phase.isOpen = false := by
        rw [hphase]
        rfl
      exact .stopped ((arrive_of_closed hclosed arrival).1.trans hphase)

theorem within_invoke {c : Call (Body σ)} (hphase : m.phase = .invoke c caller)
    (w : World μ σ ν) (arrival : Option Mask) :
    ((m.step w).arrive arrival).Within m.running caller m.cpu.enabled := by
  have hstep : (m.step w).Within m.running caller m.cpu.enabled := by
    unfold Machine.step
    rw [hphase]
    exact .calling rfl rfl rfl
  exact hstep.arrive arrival

theorem within_schedule (w : World μ σ ν) (m : Machine μ σ ν) (guard : Guard)
    (c : Call (Body σ)) (caller : Caller σ) :
    (m.schedule w guard c caller).Within m.running caller guard.wasEnabled := by
  unfold schedule
  cases hvalue : (m.system.begin (w.supply m.stages) c).value with
  | switch t resume =>
      simp only [hvalue]
      exact .calling rfl rfl rfl
  | ended e =>
      cases e with
      | answer r =>
          simp only [hvalue]
          exact .calling rfl rfl rfl
      | panic p =>
          simp only [hvalue]
          exact .stopped rfl

theorem within_resume (w : World μ σ ν) (m : Machine μ σ ν) (guard : Guard) (resume : Resume)
    (caller : Caller σ) :
    (m.resume w guard resume caller).Within m.running caller guard.wasEnabled := by
  unfold Machine.resume
  cases hvalue : (m.system.finish (w.supply m.stages) resume).value with
  | answer r =>
      simp only [hvalue]
      exact .calling rfl rfl rfl
  | panic p =>
      simp only [hvalue]
      exact .stopped rfl

/-- Whoever has a frame when the processor changes hands is parked, or goes on from it. -/
theorem within_switchTo {t : Transfer} {resume : Resume} {caller' : Caller σ} {frame : Frame σ}
    (hget : (m.frames.put t.source.id ⟨m.guards, m.locks, guard, resume, caller'⟩).get? i =
      some frame) (hcaller : frame.caller = caller) (hguard : frame.guard.wasEnabled = f) :
    (m.switchTo guard t resume caller').Within i caller f := by
  unfold switchTo
  by_cases htarget : t.target.id = i
  · simp only [htarget, hget]
    refine .calling rfl ?_ hguard
    rw [← hcaller]
    rfl
  · cases hnext : (m.frames.put t.source.id ⟨m.guards, m.locks, guard, resume, caller'⟩).get?
        t.target.id with
    | none =>
        simp only [hnext]
        exact .parked htarget hget hcaller hguard
    | some next =>
        simp only [hnext]
        refine .parked htarget ?_ hcaller hguard
        rw [Frames.get?_erase, if_neg (Ne.symm htarget), hget]

theorem Sane.stays_step (hm : m.Sane p)
    (hphase : ∀ guard t resume caller, m.phase ≠ .switch guard t resume caller)
    (w : World μ σ ν) : (m.step w).frames = m.frames ∧ (m.step w).running = m.running := by
  rcases (step_view w m).stays_or_switches with hstays | ⟨guard, t, resume, caller, _, hview, _⟩
  · exact hstays
  · exact absurd (hm.honors.phase_of_view hview id) (hphase guard t resume caller)

/-- A call goes on, or is answered and gives its caller the flag back. -/
theorem Within.step (hm : m.Sane p) (hmasked : m.Masked) (hwithin : m.Within i caller f)
    (w : World μ σ ν) :
    (m.step w).Within i caller f ∨ ∃ r, (m.step w).Nears i (caller.phase r) f := by
  cases hwithin with
  | stopped hphase =>
      rw [step_of_stopped w hphase]
      exact .inl (.stopped hphase)
  | @parked frame haway hget hcaller hguard =>
      refine .inl ?_
      cases hphase : m.phase with
      | switch guard t resume caller' =>
          rcases hm.explains.leaves (view_phase hphase) with ⟨-, hsource, -⟩
          have hne : i ≠ t.source.id := fun hi => haway (hsource.symm.trans hi.symm)
          unfold Machine.step
          rw [hphase]
          refine within_switchTo ?_ hcaller hguard
          rw [Frames.get?_put, if_neg hne, hget]
      | _ =>
          rcases hm.stays_step (by simp [hphase]) w with ⟨hframes, hrunning⟩
          refine .parked ?_ ?_ hcaller hguard
          · rw [hrunning]
            exact haway
          · rw [hframes, hget]
  | @calling guard hturn hcall hguard =>
      subst hturn hguard
      cases hphase : m.phase with
      | schedule guard' c caller' =>
          rw [hphase] at hcall
          cases hcall
          unfold Machine.step
          rw [hphase]
          exact .inl (within_schedule w m guard c caller)
      | switch guard' t resume caller' =>
          rw [hphase] at hcall
          cases hcall
          rcases hm.explains.leaves (view_phase hphase) with ⟨-, hsource, -⟩
          have hleaves : m.running = t.source.id := hsource.symm
          have hget : (m.frames.put t.source.id ⟨m.guards, m.locks, guard, resume, caller⟩).get?
              m.running = some ⟨m.guards, m.locks, guard, resume, caller⟩ := by
            rw [Frames.get?_put, if_pos hleaves]
          unfold Machine.step
          rw [hphase]
          exact .inl (within_switchTo hget rfl rfl)
      | resume guard' resume caller' =>
          rw [hphase] at hcall
          cases hcall
          unfold Machine.step
          rw [hphase]
          exact .inl (within_resume w m guard resume caller)
      | answer guard' r caller' =>
          rw [hphase] at hcall
          cases hcall
          exact .inr ⟨r, hmasked.nears_answer hphase w⟩
      | _ =>
          rw [hphase] at hcall
          cases hcall

/-!
# Timelines
-/

theorem Nears.turn (hnears : m.Nears i next f) (hopen : m.phase.isOpen = true) :
    m.phase = next ∧ m.cpu.enabled = f := by
  cases hnears with
  | there _ hphase hflag => exact ⟨hphase, hflag⟩
  | taking _ hphase _ =>
      rw [hphase] at hopen
      cases hopen

theorem Nears.later (hnears : m.Nears i next f) (hm : m.Masked) (hopen : next.isOpen = true)
    (hclosed : m.running = i → m.phase.isOpen = false) (w : World μ σ ν)
    (arrival : Option Mask) : ((m.step w).arrive arrival).Nears i next f := by
  cases hnears with
  | there hrunning hphase _ =>
      have hnext := hclosed hrunning
      rw [hphase, hopen] at hnext
      cases hnext
  | taking hrunning hphase hf =>
      have hstep := hm.nears_interrupt hphase w
      rw [hrunning, ← hf] at hstep
      exact hstep.arrive hopen arrival

theorem Within.closed (hwithin : m.Within i caller f) (hrunning : m.running = i) :
    m.phase.isOpen = false := by
  cases hwithin with
  | calling _ hcall _ => exact Phase.isOpen_of_call? hcall
  | parked haway _ _ _ => exact absurd hrunning haway
  | stopped hphase =>
      rw [hphase]
      rfl

/--
The thread that has the processor at one moment goes on with its code at another one, and
did not in between.
-/
structure GoesOn (t : Nat → Machine μ σ ν) (a b : Nat) : Prop where
  later : a < b
  running : (t b).running = (t a).running
  turn : (t b).phase.isOpen = true
  first : ∀ n, a < n → n < b → (t n).running = (t a).running → (t n).phase.isOpen = false

/-- Interrupts are masked wherever they have to be, and each thread has a mask of its own. -/
structure KeepsMasks (t : Nat → Machine μ σ ν) : Prop where
  off : ∀ n, (t n).phase.isCritical = true → (t n).cpu.enabled = false
  /--
  A step with the flag on changes neither the scheduler nor any other thread, and stays
  with its own.  When the idle thread looks whether anyone is ready, it has made a guard.
  -/
  on : ∀ n, (t n).cpu.enabled = true → (t n).Undisturbed (t (n + 1))
  returns : ∀ a b c caller, (t a).phase = .invoke c caller → GoesOn t a b →
    (t b).cpu.enabled = (t a).cpu.enabled ∧ ∃ r, (t b).phase = caller.phase r
  interrupts : ∀ a b guard mask next, (t a).phase = .interrupt guard mask next → GoesOn t a b →
    guard.wasEnabled = true ∧ (t b).cpu.enabled = true ∧ (t b).phase = next
  begins : ∀ a b, (t a).phase = .start → GoesOn t a b →
    (t b).cpu.enabled = true ∧ ∃ body : Body σ, (t b).phase = body.phase

section Runs

variable {arrivals : Nat → Option Mask} {a b : Nat}

theorem Masked.nears_goesOn (hm : m.Masked) (hgoes : GoesOn (m.timeline w arrivals) a b)
    (hopen : next.isOpen = true)
    (hnears : (m.timeline w arrivals (a + 1)).Nears (m.timeline w arrivals a).running next f) :
    (m.timeline w arrivals b).cpu.enabled = f ∧ (m.timeline w arrivals b).phase = next := by
  have hnears' : ∀ n, a + 1 ≤ n → n ≤ b →
      (m.timeline w arrivals n).Nears (m.timeline w arrivals a).running next f := by
    intro n hn
    induction n, hn using Nat.le_induction with
    | base => exact fun _ => hnears
    | succ n hn ih =>
        intro hb
        have hclosed := hgoes.first n hn hb
        exact (ih (Nat.le_of_lt hb)).later (hm.timeline w arrivals n) hopen hclosed w (arrivals n)
  exact ((hnears' b hgoes.later (Nat.le_refl b)).turn hgoes.turn).symm

theorem Sane.returns (hm : m.Sane p) (hmasked : m.Masked)
    (hgoes : GoesOn (m.timeline w arrivals) a b) {c : Call (Body σ)}
    (hphase : (m.timeline w arrivals a).phase = .invoke c caller) :
    (m.timeline w arrivals b).cpu.enabled = (m.timeline w arrivals a).cpu.enabled ∧
      ∃ r, (m.timeline w arrivals b).phase = caller.phase r := by
  -- the call is under way until the flag is given back, and then its caller goes on
  have hcall : ∀ n, a + 1 ≤ n → n ≤ b →
      (m.timeline w arrivals n).Within (m.timeline w arrivals a).running caller
          (m.timeline w arrivals a).cpu.enabled ∨
        ∃ r, (m.timeline w arrivals n).Nears (m.timeline w arrivals a).running (caller.phase r)
          (m.timeline w arrivals a).cpu.enabled := by
    intro n hn
    induction n, hn using Nat.le_induction with
    | base => exact fun _ => .inl (within_invoke hphase w (arrivals a))
    | succ n hn ih =>
        intro hb
        have hn' := hmasked.timeline w arrivals n
        rcases ih (Nat.le_of_lt hb) with hwithin | ⟨r, hnears⟩
        · rcases hwithin.step (hm.timeline w arrivals n) hn' w with hwithin' | ⟨r, hnears⟩
          · exact .inl (hwithin'.arrive (arrivals n))
          · exact .inr ⟨r, hnears.arrive (Phase.isOpen_caller caller r) (arrivals n)⟩
        · have hclosed := hgoes.first n hn hb
          exact .inr ⟨r, hnears.later hn' (Phase.isOpen_caller caller r) hclosed w (arrivals n)⟩
  rcases hcall b hgoes.later (Nat.le_refl b) with hwithin | ⟨r, hnears⟩
  · cases hgoes.turn.symm.trans (hwithin.closed hgoes.running)
  · rcases hnears.turn hgoes.turn with ⟨hnext, hflag⟩
    exact ⟨hflag, r, hnext⟩

theorem Sane.keepsMasks (hm : m.Sane p) (hmasked : m.Masked) (w : World μ σ ν)
    (arrivals : Nat → Option Mask) : KeepsMasks (m.timeline w arrivals) where
  off := fun n => (hmasked.timeline w arrivals n).off
  on := by
    intro n hon
    have hstep := (hmasked.timeline w arrivals n).undisturbed_step hon w
    exact hstep.trans (undisturbed_arrive _ (arrivals n))
  returns := fun a b c caller hphase hgoes => hm.returns hmasked hgoes hphase
  interrupts := by
    intro a b guard mask next hphase hgoes
    have ha := hmasked.timeline w arrivals a
    rcases ha.taken guard mask next hphase with ⟨hwas, hopen⟩
    have hnears := (ha.nears_interrupt hphase w).arrive hopen (arrivals a)
    exact ⟨hwas, hmasked.nears_goesOn hgoes hopen hnears⟩
  begins := by
    intro a b hphase hgoes
    have ha := hm.timeline w arrivals a
    rcases (followsCode_of_explains w ha.honors ha.explains).starts hphase with ⟨-, body, -, hbody⟩
    have hnears := (nears_start hphase hbody).arrive (Phase.isOpen_body body) (arrivals a)
    rcases hmasked.nears_goesOn hgoes (Phase.isOpen_body body) hnears with ⟨hflag, hbegun⟩
    exact ⟨hflag, body, hbegun⟩

end Runs

/--
On a machine that switches threads and whose flag masks interrupts, whatever interrupts
arrive and whatever thread code does to the flag, each thread has a mask of its own.
-/
theorem keepsMasks_timeline (w : World μ σ ν) (arrivals : Nat → Option Mask) (config : Config)
    (cpu : Cpu) (upcoming : List Mask) (mutexes : List Int32) (memory : μ) (main : σ) :
    KeepsMasks
      ((create config { cpu with maskable := true } upcoming mutexes memory main :
        Machine μ σ ν).timeline w arrivals) := by
  have hmasked := masked_create (ν := ν) config { cpu with maskable := true } rfl upcoming mutexes
    memory main
  exact (sane_create config _ upcoming mutexes memory main).keepsMasks hmasked w arrivals

end Machine

def World.masksFirst : World Unit Nat Unit where
  turn := fun _ state _ =>
    { memory := ()
      state := state + 1
      ask :=
        match state with
        | 0 => .call .init
        | 1 => .call (.spawn {} (.code 10))
        | 2 => .setInterrupts false
        | 3 | 10 => .call .yield
        | _ => .pause }

/-- Thread 2 begins with interrupts on, and thread 1 has them off when it goes on. -/
example :
    let t := (Machine.create {} {} [] [] () 0).timeline World.masksFirst fun _ => none
    ((t 14).phase.caller? = some (.code 10) ∧ (t 14).cpu.enabled = true) ∧
      (t 20).phase.caller? = some (.code 4) ∧ (t 20).cpu.enabled = false := by decide

end Coop
