import Coop.Proofs.Machine.Local
import Coop.Proofs.Scheduler.Debts
import Coop.Proofs.System.Calls

/-!
# Joins on a processor that switches threads

A suspended thread whose frame says that it will collect is owed by its target.
Every step of a machine keeps that, and so does an interrupt that arrives after it.
So a join that blocked is answered with a code when its caller has the processor
again.
-/

namespace Coop

open Thread (Block Handle Id)

/-!
# Frames that wait for a code
-/

namespace Frames

variable {σ β : Type} {f : Frames σ} {s : Scheduler β} {o : Outline β} {frame : Frame σ}
  {source target : Handle}

/-- Every frame that waits for a code is that of a thread that is owed it. -/
def Owed (f : Frames σ) (s : Scheduler β) : Prop :=
  ∀ id frame h, f.get? id = some frame → frame.resume = .collect h →
    ∃ j : Handle, j.id = id ∧ s.Owes j h

/-- None of the threads that are owed a code has the processor. -/
def Parked (f : Frames σ) (s : Scheduler β) : Prop :=
  ∀ id frame h, f.get? id = some frame → frame.resume = .collect h →
    ∃ j : Handle, j.id = id ∧ s.Owes j h ∧ s.running ≠ .ok j

theorem owed_perform (hs : s.Shaped o) (hparked : f.Parked s) (supply : Supply)
    (request : Request β) : f.Owed (s.perform supply request).scheduler := by
  intro id frame h hget hresume
  rcases hparked id frame h hget hresume with ⟨j, hid, howes, haway⟩
  exact ⟨j, hid, hs.owes_perform howes haway⟩

theorem parked_perform (hs : s.Shaped o) (hparked : f.Parked s) {supply : Supply}
    {request : Request β}
    (hstays : ∀ t, (s.perform supply request).result ≠ .ok (.transfer t)) :
    f.Parked (s.perform supply request).scheduler := by
  intro id frame h hget hresume
  rcases hparked id frame h hget hresume with ⟨j, hid, howes, haway⟩
  have howes' : (s.perform supply request).scheduler.Owes j h := hs.owes_perform howes haway
  refine ⟨j, hid, howes', ?_⟩
  have hcurrent := hs.current_perform (hs.isSome_current_of_alive howes.joiner) hstays
  rw [Ne, howes'.joiner.running_iff, hcurrent, ← howes.joiner.running_iff]
  exact haway

theorem Owed.put (howed : f.Owed s) (hsource : ∀ h, frame.resume = .collect h → s.Owes source h) :
    (f.put source.id frame).Owed s := by
  intro id frame' h hget hresume
  rw [get?_put] at hget
  by_cases hid : id = source.id
  · rw [if_pos hid] at hget
    injection hget with hframe
    subst hframe
    exact ⟨source, hid.symm, hsource h hresume⟩
  · rw [if_neg hid] at hget
    exact howed id frame' h hget hresume

theorem Owed.erase (howed : f.Owed s) (id : Id) : (f.erase id).Owed s := by
  intro other frame h hget hresume
  rw [get?_erase] at hget
  by_cases hid : other = id
  · rw [if_pos hid] at hget
    cases hget
  · rw [if_neg hid] at hget
    exact howed other frame h hget hresume

theorem Owed.parked (howed : f.Owed s) (hrunning : s.running = .ok target)
    (habsent : f.get? target.id = none) : f.Parked s := by
  intro id frame h hget hresume
  rcases howed id frame h hget hresume with ⟨j, hid, howes⟩
  refine ⟨j, hid, howes, ?_⟩
  intro hjoiner
  rw [hrunning] at hjoiner
  injection hjoiner with hjoiner
  rw [hjoiner, hid, hget] at habsent
  cases habsent

end Frames

/-!
# Machines that honor joins
-/

namespace Machine

variable {μ σ ν : Type}

structure Quiet {β : Type} (f : Frames σ) (s : Scheduler β) : Prop where
  shaped : ∃ o, s.Shaped o
  parked : f.Parked s

/-- All that is owed by a machine, by what it is about to do. -/
inductive Honors (m : Machine μ σ ν) : Prop where
  | resting : Quiet m.frames m.system.scheduler → m.phase.Resting → m.Honors
  | switching {guard : Guard} {t : Transfer} {resume : Resume} {caller : Caller σ} :
      m.phase = .switch guard t resume caller → (∃ o, m.system.scheduler.Shaped o) →
        m.frames.Owed m.system.scheduler → m.system.scheduler.running = .ok t.target →
          (∀ h, resume = .collect h → m.system.scheduler.Owes t.source h) → m.Honors
  | resuming {guard : Guard} {resume : Resume} {caller : Caller σ} :
      m.phase = .resume guard resume caller → Quiet m.frames m.system.scheduler →
        (∀ h, resume = .collect h → ∃ j, m.system.scheduler.running = .ok j ∧
          m.system.scheduler.Owes j h) → m.Honors

/-- A caller that resumes after its join blocked is answered the code of its target. -/
def AnswersJoins (m : Machine μ σ ν) (w : World μ σ ν) : Prop :=
  ∀ guard h caller, m.phase = .resume guard (.collect h) caller →
    ∃ j code, m.system.scheduler.running = .ok j ∧ m.system.scheduler.Completed j h code ∧
      (m.step w).phase = .answer guard (.ok (.code code)) caller

section Steps

variable {m m' : Machine μ σ ν}

theorem Quiet.perform {β : Type} {f : Frames σ} {s : Scheduler β} (hquiet : Quiet f s)
    (supply : Supply) (request : Request β)
    (hstays : ∀ t, (s.perform supply request).result ≠ .ok (.transfer t)) :
    Quiet f (s.perform supply request).scheduler := by
  rcases hquiet.shaped with ⟨o, hs⟩
  rcases hs.perform supply request with ⟨o', -, hs'⟩
  exact ⟨⟨o', hs'⟩, Frames.parked_perform hs hquiet.parked hstays⟩

theorem Stays.honors (hstays : m.Stays m') (hquiet : Quiet m.frames m.system.scheduler) :
    m'.Honors := by
  rw [← hstays.system, ← hstays.frames] at hquiet
  exact .resting hquiet hstays.phase

theorem Quiet.ended {β : Type} {f : Frames σ} {s : System β} (hquiet : Quiet f s.scheduler)
    {supply : Supply} {c : Call β} {e : Ending} (hvalue : (s.begin supply c).value = .ended e) :
    Quiet f (s.begin supply c).system.scheduler := by
  have hfollows := s.begin_follows supply c
  cases hrequest : c.request? with
  | none =>
      rw [hrequest] at hfollows
      have hsame : (s.begin supply c).system.scheduler = s.scheduler := hfollows
      rw [hsame]
      exact hquiet
  | some request =>
      rw [hrequest] at hfollows
      have hsame : (s.begin supply c).system.scheduler =
        (s.scheduler.perform supply request).scheduler := hfollows
      rw [hsame]
      exact hquiet.perform supply request (System.begin_ended hvalue hrequest)

theorem honors_schedule (w : World μ σ ν) (hquiet : Quiet m.frames m.system.scheduler)
    (guard : Guard) (c : Call (Body σ)) (caller : Caller σ) :
    (m.schedule w guard c caller).Honors := by
  unfold schedule
  cases hvalue : (m.system.begin (w.supply m.stages) c).value with
  | ended e =>
      cases e with
      | answer r =>
          simp only [hvalue]
          exact .resting (hquiet.ended hvalue) trivial
      | panic p =>
          simp only [hvalue]
          exact .resting (hquiet.ended hvalue) trivial
  | switch t resume =>
      rcases System.begin_switch hvalue with ⟨request, hrequest, hresult, hjoin⟩
      rcases hquiet.shaped with ⟨o, hs⟩
      rcases hs.perform (w.supply m.stages) request with ⟨o', -, hs'⟩
      have hfollows := m.system.begin_follows (w.supply m.stages) c
      rw [hrequest] at hfollows
      have hsame : (m.system.begin (w.supply m.stages) c).system.scheduler =
        (m.system.scheduler.perform (w.supply m.stages) request).scheduler := hfollows
      have howed := Frames.owed_perform hs hquiet.parked (w.supply m.stages) request
      have hrunning := hs.running_of_transfer hresult
      have howes : ∀ h, resume = .collect h →
          (m.system.scheduler.perform (w.supply m.stages) request).scheduler.Owes t.source h := by
        intro h hresume
        cases hjoin h hresume
        exact hs.owes_of_join hresult
      rw [← hsame] at hs' howed hrunning howes
      simp only [hvalue]
      exact .switching rfl ⟨o', hs'⟩ howed hrunning howes

theorem honors_switchTo {guard : Guard} {t : Transfer} {resume : Resume} (caller : Caller σ)
    (hshaped : ∃ o, m.system.scheduler.Shaped o) (howed : m.frames.Owed m.system.scheduler)
    (hrunning : m.system.scheduler.running = .ok t.target)
    (hsource : ∀ h, resume = .collect h → m.system.scheduler.Owes t.source h) :
    (m.switchTo guard t resume caller).Honors := by
  have hput : (m.frames.put t.source.id ⟨m.guards, m.locks, guard, resume, caller⟩).Owed
      m.system.scheduler := howed.put hsource
  unfold switchTo
  cases hget : (m.frames.put t.source.id ⟨m.guards, m.locks, guard, resume, caller⟩).get?
      t.target.id with
  | none =>
      simp only [hget]
      exact .resting ⟨hshaped, hput.parked hrunning hget⟩ trivial
  | some frame =>
      simp only [hget]
      refine .resuming rfl ⟨hshaped, ?_⟩ ?_
      · refine (hput.erase t.target.id).parked hrunning ?_
        rw [Frames.get?_erase, if_pos rfl]
      · intro h hresume
        rcases hshaped with ⟨o, hs⟩
        rcases hput _ frame h hget hresume with ⟨j, hid, howes⟩
        -- frames are kept by identifier, and only one thread that lives has this one
        have hj := hs.eq_of_id_eq howes.joiner (hs.alive_of_running hrunning) hid
        rw [hj] at howes
        exact ⟨t.target, hrunning, howes⟩

theorem honors_resume (w : World μ σ ν) (hquiet : Quiet m.frames m.system.scheduler)
    (guard : Guard) (resume : Resume) (caller : Caller σ) :
    (m.resume w guard resume caller).Honors := by
  have hcompleted := hquiet.perform (w.supply m.stages) .completeSwitch
    (Scheduler.perform_ne_transfer rfl)
  cases resume with
  | plain => exact .resting hcompleted trivial
  | collect h =>
      have hcollected := hcompleted.perform (w.supply m.stages) (.collect h)
        (Scheduler.perform_ne_transfer rfl)
      exact .resting hcollected trivial
  | never => exact .resting hquiet trivial

theorem honors_start (w : World μ σ ν) (hquiet : Quiet m.frames m.system.scheduler) :
    (m.start w).Honors := by
  have hcompleted := hquiet.perform (w.supply m.stages) .completeSwitch
    (Scheduler.perform_ne_transfer rfl)
  have htook := hcompleted.perform (w.supply m.stages) .takeBody
    (Scheduler.perform_ne_transfer rfl)
  unfold start
  cases hvalue : (m.system.start (w.supply m.stages)).value with
  | none =>
      simp only [hvalue]
      exact Stays.honors (Stays.takePending _ trivial) htook
  | some body =>
      cases body with
      | code state =>
          simp only [hvalue]
          exact Stays.honors (Stays.takePending _ trivial) htook
      | idle =>
          simp only [hvalue]
          exact Stays.honors (Stays.takePending _ trivial) htook

theorem honors_interrupt (hquiet : Quiet m.frames m.system.scheduler) (guard : Guard)
    (mask : Mask) {next : Phase σ} (hnext : next.Plain) :
    (m.interrupt guard mask next).Honors := by
  have hwoken := hquiet.perform .ample (.interrupts mask)
    (Scheduler.perform_ne_transfer rfl)
  exact (Stays.dropGuard _ guard hnext).honors hwoken

theorem Honors.step (w : World μ σ ν) (hm : m.Honors) : (m.step w).Honors := by
  unfold Machine.step
  cases hm with
  | switching hphase hshaped howed hrunning hsource =>
      simp only [hphase]
      exact honors_switchTo _ hshaped howed hrunning hsource
  | resuming hphase hquiet _ =>
      simp only [hphase]
      exact honors_resume w hquiet _ _ _
  | resting hquiet hresting =>
      cases hphase : m.phase with
      | code state response => exact (turns_takeTurn w m state response).stays.honors hquiet
      | locking k state => exact (turns_attemptLock m k state).stays.honors hquiet
      | idle => exact (turns_idle m).stays.honors hquiet
      | invoke c caller => exact .resting hquiet trivial
      | schedule guard c caller => exact honors_schedule w hquiet guard c caller
      | switch guard t resume caller =>
          rw [hphase] at hresting
          cases hresting
      | resume guard resume caller =>
          rw [hphase] at hresting
          cases hresting
      | start => exact honors_start w hquiet
      | answer guard r caller => exact (turns_answer m guard r caller).stays.honors hquiet
      | interrupt guard mask next =>
          rw [hphase] at hresting
          exact honors_interrupt hquiet guard mask hresting
      | stopped why => exact .resting hquiet hresting

theorem Honors.arrive (hm : m.Honors) (arrival : Option Mask) : (m.arrive arrival).Honors := by
  cases arrival with
  | none => exact hm
  | some mask =>
      unfold Machine.arrive
      cases hopen : m.phase.isOpen with
      | false =>
          simp only [hopen]
          cases hm with
          | resting hquiet hresting => exact .resting hquiet hresting
          | switching hphase hshaped howed hrunning hsource =>
              exact .switching hphase hshaped howed hrunning hsource
          | resuming hphase hquiet hsource => exact .resuming hphase hquiet hsource
      | true =>
          simp only [hopen, if_true]
          have hplain := Phase.plain_of_isCritical (Phase.isCritical_of_isOpen hopen)
          cases hm with
          | resting hquiet _ => exact (Stays.takePending _ hplain).honors hquiet
          | switching hphase _ _ _ _ =>
              rw [hphase] at hopen
              cases hopen
          | resuming hphase _ _ =>
              rw [hphase] at hopen
              cases hopen

theorem Honors.timeline (w : World μ σ ν) (arrivals : Nat → Option Mask) (hm : m.Honors) (n : Nat) :
    (m.timeline w arrivals n).Honors := by
  induction n with
  | zero => exact hm
  | succ n ih => exact (ih.step w).arrive (arrivals n)

theorem honors_create (config : Config) (cpu : Cpu) (upcoming : List Mask) (mutexes : List Int32)
    (memory : μ) (main : σ) :
    (create config cpu upcoming mutexes memory main : Machine μ σ ν).Honors := by
  refine .resting ⟨?_, ?_⟩ trivial
  · exact ⟨_, Scheduler.shaped_create config⟩
  · intro id frame h hget
    cases hget

theorem Honors.answersJoins (w : World μ σ ν) (hm : m.Honors) : m.AnswersJoins w := by
  intro guard h caller hphase
  cases hm with
  | resting _ hresting =>
      rw [hphase] at hresting
      cases hresting
  | switching hswitch _ _ _ _ =>
      rw [hphase] at hswitch
      cases hswitch
  | resuming hresume hquiet hsource =>
      rw [hphase] at hresume
      injection hresume with _ hcollect _
      rcases hsource h hcollect.symm with ⟨j, hrunning, howes⟩
      rcases hquiet.shaped with ⟨o, hs⟩
      have hother : (Request.completeSwitch : Request (Body σ)) ≠ .collect h := by
        intro heq
        cases heq
      rcases hs.completed_perform (w.supply m.stages) howes hrunning
        (Scheduler.perform_ne_transfer rfl) hother with ⟨code, hcompleted, hlater⟩
      have hvalue : (m.system.finish (w.supply m.stages) (.collect h)).value =
          .answer (.ok (.code code)) := by
        rw [System.finish_collect, hlater.collects]
        rfl
      refine ⟨j, code, hrunning, hcompleted, ?_⟩
      unfold Machine.step
      simp only [hphase, Machine.resume, hvalue]
      rfl

end Steps

end Machine

/-!
# Joins complete
-/

section Completion

variable {β μ σ ν : Type}

/-- What the caller of a join that blocked can count on, whatever happens next. -/
structure Scheduler.Promises (s : Scheduler β) (j h : Handle) : Prop where
  /-- When the caller has the processor again, its target has exited, once, with the code. -/
  completed : ∀ more : List (Request β × Supply),
    (∀ e ∈ s.run more, e.earlier.running ≠ .ok j) → (s.after more).running = .ok j →
      ∃ code, (s.after more).Completed j h code ∧ (∃ e ∈ s.run more, e.Exits h code) ∧
        ∀ e ∈ s.run more, ∀ code', e.Exits h code' → code' = code
  /-- Until the caller collects, the target is kept for it. -/
  reserved : ∀ more : List (Request β × Supply),
    (∀ e ∈ s.run more, ∀ code, ¬ e.Collects j h code) → (s.after more).Reserved j h

theorem Scheduler.Shaped.promises {s : Scheduler β} {o : Outline β} (hs : s.Shaped o)
    {j h : Handle} {supply : Supply} {t : Transfer} (hrunning : s.running = .ok j)
    (hblocked : (s.perform supply (.join h)).result = .ok (.transfer t)) :
    (s.perform supply (.join h)).scheduler.Promises j h := by
  rcases hs.life?_of_join hblocked with ⟨hsource, hlife⟩
  rw [hrunning] at hsource
  injection hsource with hsource
  rw [← hsource] at hlife
  rcases hs.perform supply (.join h) with ⟨o', -, hs'⟩
  have hcurrent := hs.isSome_current_after
    (hs.isSome_current_of_alive (hs.alive_of_running hrunning)) [(.join h, supply)]
  constructor
  · intro more hwaits hlater
    apply hs'.completed_after hlife more ?_ hlater
    intro e he code hcollects
    exact hwaits e he hcollects.1
  · intro more hwaits
    exact hs'.reserved_after hcurrent hlife more hwaits

/--
A join that blocks completes: in every run of a scheduler, its caller finds the
code of its target when it has the processor again, and nobody else could take it;
and on every machine, whatever interrupts arrive, the answer to a join that blocked
is a code.
-/
theorem joins_complete :
    (∀ (s : Scheduler β) (supply : Supply) (j h : Handle) (t : Transfer), s.Reachable →
      s.running = .ok j → (s.perform supply (.join h)).result = .ok (.transfer t) →
        (s.perform supply (.join h)).scheduler.Promises j h) ∧
    (∀ (w : World μ σ ν) (config : Config) (cpu : Cpu) (upcoming : List Mask)
      (mutexes : List Int32) (memory : μ) (main : σ) (n : Nat),
        (∀ arrivals, ((Machine.create config cpu upcoming mutexes memory main).timeline w arrivals
          n).AnswersJoins w) ∧
        (Machine.run w n (.create config cpu upcoming mutexes memory main)).2.AnswersJoins w) := by
  constructor
  · intro s supply j h t hreachable hrunning hblocked
    rcases hreachable.shaped with ⟨o, hs⟩
    exact hs.promises hrunning hblocked
  · intro w config cpu upcoming mutexes memory main n
    have htimeline : ∀ arrivals, ((Machine.create config cpu upcoming mutexes memory
        main).timeline w arrivals n).AnswersJoins w := by
      intro arrivals
      have hcreated := Machine.honors_create (ν := ν) config cpu upcoming mutexes memory main
      exact (hcreated.timeline w arrivals n).answersJoins w
    constructor
    · exact htimeline
    · rw [Machine.snd_run_eq_timeline]
      exact htimeline _

end Completion

/-- Thread 1 spawns thread 2 and joins it, and thread 2 ends with code 7. -/
def World.joinsSeven : World Unit Nat Unit where
  turn := fun _ state _ =>
    { memory := ()
      state := state + 1
      ask :=
        match state with
        | 0 => .call .init
        | 1 => .call (.spawn {} (.code 4))
        | 2 => .call (.join ⟨1, 2⟩)
        | 3 => .finish 0
        | _ => .finish 7 }

def Scheduler.joinsSecond : Scheduler Unit :=
  (create {}).after [(.bootstrap, .ample), (.spawn {} (), .ample), (.join ⟨1, 2⟩, .ample)]

/-- An interrupt arrives while the processor changes hands. -/
def switchInterrupted (n : Nat) : Option Mask :=
  if n = 11 then some 1 else none

theorem joins_complete_seven :
    Scheduler.joinsSecond.Reserved ⟨0, 1⟩ ⟨1, 2⟩ ∧
      (Scheduler.joinsSecond.after [(.exit 7, .ample)]).Completed ⟨0, 1⟩ ⟨1, 2⟩ 7 ∧
        (∃ code, ((Machine.run World.joinsSeven 17 (.create {} {} [] [] () 0)).2.step
          World.joinsSeven).phase = .answer ⟨true⟩ (.ok (.code code)) (.code 3)) ∧
        ∃ code, (((Machine.create {} {} [] [] () 0).timeline World.joinsSeven switchInterrupted
          18).step World.joinsSeven).phase = .answer ⟨true⟩ (.ok (.code code)) (.code 3) := by
  rcases joins_complete (β := Unit) (μ := Unit) (σ := Nat) (ν := Unit) with ⟨hblocks, hresumes⟩
  have hpromises : Scheduler.joinsSecond.Promises ⟨0, 1⟩ ⟨1, 2⟩ :=
    hblocks ((Scheduler.create {}).after [(.bootstrap, .ample), (.spawn {} (), .ample)]) .ample
      ⟨0, 1⟩ ⟨1, 2⟩ ⟨⟨0, 1⟩, ⟨1, 2⟩⟩ ⟨{}, _, rfl⟩ rfl rfl
  refine ⟨?_, ?_, ?_, ?_⟩
  · exact hpromises.reserved [] (fun e he => absurd he List.not_mem_nil)
  · have hwaits : ∀ e ∈ Scheduler.joinsSecond.run [(.exit 7, .ample)],
        e.earlier.running ≠ .ok ⟨0, 1⟩ := by
      intro e he
      rcases List.mem_singleton.mp he with rfl
      have hrunning : Scheduler.joinsSecond.running = .ok ⟨1, 2⟩ := rfl
      rw [hrunning]
      simp
    rcases hpromises.completed [(.exit 7, .ample)] hwaits rfl with ⟨code, hcompleted, -, honce⟩
    have hcode := honce _ List.mem_cons_self 7 ⟨rfl, rfl, ⟨⟨1, 2⟩, ⟨0, 1⟩⟩, rfl⟩
    subst hcode
    exact hcompleted
  · rcases (hresumes World.joinsSeven {} {} [] [] () 0 17).2 ⟨true⟩ ⟨1, 2⟩ (.code 3) rfl with
      ⟨-, code, -, -, hanswer⟩
    exact ⟨code, hanswer⟩
  · rcases (hresumes World.joinsSeven {} {} [] [] () 0 18).1 switchInterrupted ⟨true⟩ ⟨1, 2⟩
      (.code 3) rfl with ⟨-, code, -, -, hanswer⟩
    exact ⟨code, hanswer⟩

end Coop
