import Coop.Proofs.Machine.Custody
import Mathlib.Data.Nat.Find

/-!
# How a thread gets a mutex

Code that asks for a mutex attempts to take it at each of its turns, and yields after
each attempt that fails.  Between two turns of a thread much may happen: interrupts are
taken, the thread is suspended and others run.  What the thread was told, and what it
owes the scheduler, is the same all that time.
-/

namespace Coop

open Thread (Handle Id)

/-!
# Moments
-/

/-- The first moment after another at which something is so. -/
structure First (P : Nat → Prop) (a b : Nat) : Prop where
  lt : a < b
  so : P b
  least : ∀ n, a < n → n < b → ¬ P n

def between {α : Type} (notes : Nat → List α) (a b : Nat) : List α :=
  (List.range' (a + 1) (b - (a + 1))).flatMap notes

section Moments

variable {α : Type} {notes : Nat → List α} {P : Nat → Prop} {a b : Nat}

theorem between_succ_self (notes : Nat → List α) (a : Nat) : between notes a (a + 1) = [] := by
  unfold between
  rw [Nat.sub_self]
  rfl

theorem between_succ (hlt : a < b) : between notes a (b + 1) = between notes a b ++ notes b := by
  have hlength : b + 1 - (a + 1) = b - (a + 1) + 1 := by omega
  have hlast : a + 1 + (b - (a + 1)) = b := by omega
  unfold between
  rw [hlength, List.range'_1_concat, hlast, List.flatMap_append]
  simp

theorem exists_first (hlt : a < b) (hb : P b) : ∃ n, n ≤ b ∧ First P a n := by
  classical
  have hsome : ∃ n, a < n ∧ P n := ⟨b, hlt, hb⟩
  refine ⟨Nat.find hsome, Nat.find_min' hsome ⟨hlt, hb⟩, (Nat.find_spec hsome).1,
    (Nat.find_spec hsome).2, ?_⟩
  intro n hn hlater hp
  exact Nat.find_min hsome hlater ⟨hn, hp⟩

end Moments

def Phase.made? {σ δ : Type} : Phase σ δ → Option (Call (Body σ))
  | .invoke c _ => some c
  | .schedule _ c _ => some c
  | _ => none

namespace Machine

variable {μ σ ν δ : Type} {m m' : Machine μ σ ν δ} {w : World μ σ ν δ} {i : Id} {k : Nat}
  {state : σ} {data : δ} {p : History σ}

/-- The code of a thread takes the next step, be it with an attempt to take a mutex. -/
def TakesTurn (m : Machine μ σ ν δ) (i : Id) : Prop :=
  m.running = i ∧ m.phase.caller?.isSome = true

def IsTold (m : Machine μ σ ν δ) (i : Id) (state : σ) (response : Response δ) : Prop :=
  m.running = i ∧ m.phase = .code state response

def AsksFor (w : World μ σ ν δ) (m : Machine μ σ ν δ) (i : Id) (ask : Ask σ δ) (next : σ) : Prop :=
  ∃ state response, m.IsTold i state response ∧ (w.turn m.memory state response).ask = ask ∧
    (w.turn m.memory state response).state = next

def Attempts (m : Machine μ σ ν δ) (i : Id) (k : Nat) (state : σ) : Prop :=
  m.running = i ∧ m.phase = .locking k state

def Holds (m : Machine μ σ ν δ) (i : Id) (k : Nat) : Prop :=
  k ∈ m.custody.locks i

def Guarded (m : Machine μ σ ν δ) (k : Nat) : Prop :=
  ∃ i, m.Holds i k

def datum (m : Machine μ σ ν δ) (k : Nat) : Option δ :=
  m.custody.datum k

/-- The call of a thread with which the scheduler deals in the next step. -/
def dealt (m : Machine μ σ ν δ) (i : Id) : List (Call (Body σ)) :=
  match m.phase with
  | .schedule _ c _ => if m.running = i then [c] else []
  | _ => []

/-- The call of a thread with which the scheduler has yet to deal. -/
def owed (m : Machine μ σ ν δ) (i : Id) : List (Call (Body σ)) :=
  if m.running = i then m.phase.core.made?.toList else []

/--
How a thread gets a mutex: from an attempt at one moment until its code goes on at
another, with the guard.
-/
inductive Acquires (t : Nat → Machine μ σ ν δ) (i : Id) (k : Nat) (state : σ) :
    Nat → Nat → Prop where
  /-- There is no guard, and the thread gets one without any further call. -/
  | taken {a b : Nat} {data : δ} : (t a).Attempts i k state → ¬ (t a).Guarded k →
      First (fun n => (t n).TakesTurn i) a b → between (fun n => (t n).dealt i) a b = [] →
        (t b).IsTold i state (.locked data) → (t b).datum k = some data → (t b).Holds i k →
          Acquires t i k state a b
  /-- There is a guard, so that the thread yields once and then attempts it again. -/
  | failed {a a' b : Nat} : (t a).Attempts i k state → (t a).Guarded k →
      First (fun n => (t n).TakesTurn i) a a' → between (fun n => (t n).dealt i) a a' = [.yield] →
        Acquires t i k state a' b → Acquires t i k state a b

/-!
# Attempts
-/

theorem tryLock_of_guarded (hsound : m.custody.Sound) (hdatum : m.datum k = some data)
    (hguarded : m.Guarded k) : m.tryLock k = (.busy, m) := by
  rcases Option.map_eq_some_iff.mp hdatum with ⟨mutex, hmutex, -⟩
  exact tryLock_locked hmutex ((hsound.flag k mutex hmutex).mpr hguarded)

theorem tryLock_of_not_guarded (hsound : m.custody.Sound) (hdatum : m.datum k = some data)
    (hfree : ¬ m.Guarded k) :
    (m.tryLock k).1 = .locked data ∧ (m.tryLock k).2.Holds m.running k ∧
      (m.tryLock k).2.datum k = some data := by
  rcases Option.map_eq_some_iff.mp hdatum with ⟨mutex, hmutex, rfl⟩
  have hlocked : mutex.locked = false := by
    rw [Bool.eq_false_iff]
    intro hlocked
    exact hfree ((hsound.flag k mutex hmutex).mp hlocked)
  have hcustody := custody_tryLock m k
  have htaking : m.taking k = some (.takes k) := by
    replace hmutex : m.mutexes[k]? = some mutex := hmutex
    unfold taking
    simp only [hmutex, hlocked, Bool.false_eq_true, if_false]
  rw [htaking] at hcustody
  refine ⟨?_, ?_, ?_⟩
  · rw [tryLock_free hmutex hlocked]
  · unfold Holds
    rw [hcustody]
    exact (Custody.mem_take_iff (fun j hmem => hfree ⟨j, hmem⟩) m.running).mpr rfl
  · unfold datum
    rw [hcustody]
    exact (Custody.datum_mark m.custody m.running k true _ k).trans hdatum

theorem attemptLock_of_guarded (hsound : m.custody.Sound) (hdatum : m.datum k = some data)
    (hguarded : m.Guarded k) (state : σ) :
    m.attemptLock k state = m.goTo (.invoke .yield (.locking k state)) := by
  unfold attemptLock
  rw [tryLock_of_guarded hsound hdatum hguarded]

theorem attemptLock_of_not_guarded (hsound : m.custody.Sound) (hdatum : m.datum k = some data)
    (hfree : ¬ m.Guarded k) (state : σ) :
    m.attemptLock k state = (m.tryLock k).2.goTo (.code state (.locked data)) := by
  have htold := (tryLock_of_not_guarded hsound hdatum hfree).1
  unfold attemptLock
  cases hlock : m.tryLock k with
  | mk response m' =>
      rw [hlock] at htold
      subst htold
      rfl

theorem step_of_tryLock (hasks : m.AsksFor w i (.tryLock k) state) :
    ∃ m₀ : Machine μ σ ν δ, m₀.custody = m.custody ∧ m₀.running = i ∧
      m.step w = (m₀.tryLock k).2.goTo (.code state (m₀.tryLock k).1) := by
  rcases hasks with ⟨state', response, ⟨hruns, hphase⟩, hask, rfl⟩
  have hstep : m.step w = m.takeTurn w state' response := by
    unfold step
    rw [hphase]
  let m₀ : Machine μ σ ν δ :=
    { m with
      memory := (w.turn m.memory state' response).memory
      events := m.events ++
        ((w.turn m.memory state' response).notes.map (Event.note m.thread?)).toArray }
  refine ⟨m₀, rfl, hruns, ?_⟩
  rw [hstep]
  simp only [takeTurn, hask]
  rfl

theorem told_busy (hsound : m.custody.Sound) (hasks : m.AsksFor w i (.tryLock k) state)
    (hdatum : m.datum k = some data) (hguarded : m.Guarded k) :
    (m.step w).phase.core = .code state .busy := by
  rcases step_of_tryLock hasks with ⟨m₀, hcustody, -, hstep⟩
  unfold datum Guarded Holds at *
  rw [← hcustody] at hsound hdatum hguarded
  rw [hstep, tryLock_of_guarded hsound hdatum hguarded]
  rfl

theorem told_locked (hsound : m.custody.Sound) (hasks : m.AsksFor w i (.tryLock k) state)
    (hdatum : m.datum k = some data) (hfree : ¬ m.Guarded k) :
    (m.step w).phase.core = .code state (.locked data) ∧ (m.step w).Holds i k := by
  rcases step_of_tryLock hasks with ⟨m₀, hcustody, rfl, hstep⟩
  unfold datum Guarded Holds at *
  rw [← hcustody] at hsound hdatum hfree
  rcases tryLock_of_not_guarded hsound hdatum hfree with ⟨hlocked, hholds, -⟩
  rw [hstep]
  refine ⟨?_, hholds⟩
  rw [hlocked]
  rfl

/-!
# Delays

An interrupt may come before what a thread is about to do.  It does it all the same.
-/

theorem Reaches.running_eq {phase : Phase σ δ} (hreaches : m.Reaches m' phase) :
    m'.running = m.running :=
  congrArg View.running hreaches

theorem Reaches.core_eq {phase : Phase σ δ} (hreaches : m.Reaches m' phase) :
    m'.phase.core = phase :=
  congrArg View.phase hreaches

/-- The running thread is about to do the same as before, and no guard changed hands. -/
structure Delays (m m' : Machine μ σ ν δ) : Prop where
  running : m'.running = m.running
  core : m'.phase.core = m.phase.core
  custody : m'.custody = m.custody

theorem Delays.trans {m'' : Machine μ σ ν δ} (hbefore : m.Delays m') (hlater : m'.Delays m'') :
    m.Delays m'' where
  running := hlater.running.trans hbefore.running
  core := hlater.core.trans hbefore.core
  custody := hlater.custody.trans hbefore.custody

theorem Delays.owed_eq (hdelays : m.Delays m') (i : Id) : m'.owed i = m.owed i := by
  unfold owed
  rw [hdelays.running, hdelays.core]

theorem delays_arrive (m : Machine μ σ ν δ) (arrival : Option Mask) : m.Delays (m.arrive arrival) :=
  ⟨(undisturbed_arrive m arrival).running, congrArg View.phase (view_arrive m arrival),
    custody_arrive m arrival⟩

theorem delays_interrupt (w : World μ σ ν δ) {guard : Guard} {mask : Mask} {next : Phase σ δ}
    (hphase : m.phase = .interrupt guard mask next) : m.Delays (m.step w) := by
  have hstep : m.step w = m.interrupt guard mask next := by
    unfold step
    rw [hphase]
  rw [hstep]
  refine ⟨(reaches_dropGuard _ guard next).running_eq, ?_, custody_dropGuard _ guard next⟩
  rw [hphase]
  exact (reaches_dropGuard _ guard next).core_eq

theorem core_of_caller {phase : Phase σ δ} (hcaller : phase.caller?.isSome = true) :
    phase.core = phase := by
  cases phase with
  | interrupt guard mask next => cases hcaller
  | _ => rfl

theorem made?_of_caller {phase : Phase σ δ} (hcaller : phase.caller?.isSome = true) :
    phase.made? = none := by
  cases phase <;> first | rfl | cases hcaller

theorem delays_step (w : World μ σ ν δ) (hcaller : m.phase.core.caller?.isSome = true)
    (hwaits : ¬ m.TakesTurn m.running) : m.Delays (m.step w) := by
  cases hphase : m.phase with
  | interrupt guard mask next => exact delays_interrupt w hphase
  | _ =>
      rw [hphase] at hcaller
      refine absurd ⟨rfl, ?_⟩ hwaits
      rw [hphase]
      exact hcaller

/-!
# What a thread owes

A call that a thread made stays with the thread until the scheduler deals with it.
-/

theorem owed_of_ne (hne : m.running ≠ i) : m.owed i = [] :=
  if_neg hne

theorem owed_of_made? (hcall : m.phase.core.made? = none) (i : Id) : m.owed i = [] := by
  unfold owed
  rw [hcall]
  exact ite_self _

theorem TakesTurn.owed (hturn : m.TakesTurn i) (j : Id) : m.owed j = [] := by
  refine owed_of_made? ?_ j
  rw [core_of_caller hturn.2]
  exact made?_of_caller hturn.2

theorem made?_core_schedule (w : World μ σ ν δ) (m : Machine μ σ ν δ) (guard : Guard)
    (c : Call (Body σ)) (caller : Caller σ) :
    (m.schedule w guard c caller).phase.core.made? = none := by
  unfold schedule
  cases hvalue : (m.system.begin (w.supply m.stages) c).value with
  | switch t resume =>
      simp only [hvalue]
      rfl
  | ended e =>
      simp only [hvalue]
      cases e <;> rfl

theorem made?_core_switchTo (m : Machine μ σ ν δ) (guard : Guard) (t : Transfer)
    (resume : Resume) (caller : Caller σ) :
    (m.switchTo guard t resume caller).phase.core.made? = none := by
  unfold switchTo
  cases hframe : (m.frames.put t.source.id ⟨m.guards, m.locks, guard, resume, caller⟩).get?
      t.target.id <;> simp only [hframe] <;> rfl

theorem made?_core_resume (w : World μ σ ν δ) (m : Machine μ σ ν δ) (guard : Guard)
    (resume : Resume) (caller : Caller σ) :
    (m.resume w guard resume caller).phase.core.made? = none := by
  unfold Machine.resume
  cases hvalue : (m.system.finish (w.supply m.stages) resume).value <;>
    simp only [hvalue] <;> rfl

theorem made?_core_start (w : World μ σ ν δ) (he : p.Explains m.view) (hphase : m.phase = .start) :
    (m.start w).phase.core.made? = none := by
  rcases he.takes (view_phase hphase) (w.supply m.stages) with ⟨body, -, htook⟩
  have hbody : Except.ok (Answer.body (m.system.start (w.supply m.stages)).value) =
    (.ok (.body (some body)) : Except Error (Answer (Body σ))) := htook
  injection hbody with hbody
  injection hbody with hvalue
  unfold start
  cases body with
  | code state =>
      simp only [hvalue]
      rw [(reaches_takePending _ _).core_eq]
      rfl
  | idle =>
      simp only [hvalue]
      rw [(reaches_takePending _ _).core_eq]
      rfl

theorem made?_core_answer (m : Machine μ σ ν δ) (guard : Guard) (r : Except Error Reply)
    (caller : Caller σ) : (m.answer guard r caller).phase.core.made? = none := by
  rw [(reaches_answer m guard r caller).core_eq]
  cases caller <;> rfl

theorem running_step_of_caller (w : World μ σ ν δ) (hcaller : m.phase.caller?.isSome = true) :
    (m.step w).running = m.running := by
  unfold step
  cases hphase : m.phase with
  | code state response => exact (turns_takeTurn w m state response).undisturbed.running
  | locking k state => exact (turns_attemptLock m k state).undisturbed.running
  | idle => exact (turns_idle m).undisturbed.running
  | _ => simp [hphase, Phase.caller?] at hcaller

theorem dealt_of_made? (hcall : m.phase.core.made? = none) (i : Id) : m.dealt i = [] := by
  unfold dealt
  split
  · rename_i hphase
    rw [hphase] at hcall
    cases hcall
  · rfl

/-- What a thread owes is dealt with by this step, or still owed after it. -/
theorem dealt_append_owed (w : World μ σ ν δ) (he : p.Explains m.view) (hwaits : ¬ m.TakesTurn i) :
    m.dealt i ++ (m.step w).owed i = m.owed i := by
  have hquiet : m.phase.core.made? = none → (m.step w).owed i = [] →
      m.dealt i ++ (m.step w).owed i = m.owed i := by
    intro hcall hlater
    rw [dealt_of_made? hcall, owed_of_made? hcall, hlater]
    rfl
  by_cases hcaller : m.phase.caller?.isSome = true
  · -- it is the turn of another thread
    have hne : m.running ≠ i := fun hruns => hwaits ⟨hruns, hcaller⟩
    rw [← running_step_of_caller w hcaller] at hne
    refine hquiet ?_ (owed_of_ne hne)
    rw [core_of_caller hcaller]
    exact made?_of_caller hcaller
  · cases hphase : m.phase with
    | code state response => exact absurd (by rw [hphase]; rfl) hcaller
    | locking k state => exact absurd (by rw [hphase]; rfl) hcaller
    | idle => exact absurd (by rw [hphase]; rfl) hcaller
    | invoke c caller =>
        simp only [step, dealt, owed, hphase]
        rfl
    | schedule guard c caller =>
        have hlater := owed_of_made? (made?_core_schedule w m guard c caller) i
        simp only [step, dealt, hphase]
        rw [hlater, List.append_nil]
        unfold owed
        rw [hphase]
        rfl
    | switch guard t resume caller =>
        refine hquiet (by rw [hphase]; rfl) ?_
        simp only [step, hphase]
        exact owed_of_made? (made?_core_switchTo m guard t resume caller) i
    | resume guard resume caller =>
        refine hquiet (by rw [hphase]; rfl) ?_
        simp only [step, hphase]
        exact owed_of_made? (made?_core_resume w m guard resume caller) i
    | start =>
        refine hquiet (by rw [hphase]; rfl) ?_
        simp only [step, hphase]
        exact owed_of_made? (made?_core_start w he hphase) i
    | answer guard r caller =>
        refine hquiet (by rw [hphase]; rfl) ?_
        simp only [step, hphase]
        exact owed_of_made? (made?_core_answer m guard r caller) i
    | interrupt guard mask next =>
        simp only [dealt, hphase]
        exact (delays_interrupt w hphase).owed_eq i
    | stopped why =>
        refine hquiet (by rw [hphase]; rfl) ?_
        rw [step_of_stopped w hphase]
        exact owed_of_made? (by rw [hphase]; rfl) i

/-!
# From one turn to the next
-/

theorem takesTurn_of_acts {d : Deed σ} (hacts : m.occurrence w = .acts d) :
    m.TakesTurn m.running := by
  refine ⟨rfl, ?_⟩
  unfold occurrence occurrenceIn at hacts
  cases hphase : m.phase with
  | code state response => rfl
  | locking k state => rfl
  | idle => rfl
  | schedule guard c caller =>
      rw [hphase] at hacts
      cases hrequest : c.request? <;> simp only [hrequest] at hacts <;> cases hacts
  | _ =>
      rw [hphase] at hacts
      cases hacts

theorem last_record_of_not_turn (w : World μ σ ν δ) (p : History σ) (hwaits : ¬ m.TakesTurn i) :
    (p.record m.running (m.occurrence w)).last i = p.last i := by
  cases hoccurs : m.occurrence w with
  | acts d =>
      refine History.last_act_of_ne ?_
      rintro rfl
      exact hwaits (takesTurn_of_acts hoccurs)
  | _ => rfl

section Timelines

variable {arrivals : Nat → Option Mask} {a b : Nat}

/-- Code that is to take its turn is told what it was to be told, when it does. -/
theorem delays_until_turn (hruns : (m.timeline w arrivals (a + 1)).running = i)
    (hcaller : (m.timeline w arrivals (a + 1)).phase.core.caller?.isSome = true)
    (hfirst : First (fun n => (m.timeline w arrivals n).TakesTurn i) a b) :
    (m.timeline w arrivals (a + 1)).Delays (m.timeline w arrivals b) := by
  have hall : ∀ n, a + 1 ≤ n → n ≤ b →
      (m.timeline w arrivals (a + 1)).Delays (m.timeline w arrivals n) := by
    intro n hn
    induction n, hn using Nat.le_induction with
    | base => exact fun _ => ⟨rfl, rfl, rfl⟩
    | succ n hn ih =>
        intro hb
        have hbefore := ih (Nat.le_of_succ_le hb)
        have hwaits := hfirst.least n hn hb
        rw [← hruns, ← hbefore.running] at hwaits
        rw [← hbefore.core] at hcaller
        exact hbefore.trans ((delays_step w hcaller hwaits).trans (delays_arrive _ _))
  exact hall b hfirst.lt (Nat.le_refl b)

theorem phase_of_delays (hdelays : m.Delays m') (hturn : m'.TakesTurn i) :
    m'.phase = m.phase.core :=
  (core_of_caller hturn.2).symm.trans hdelays.core

theorem last_until_turn (p : History σ) {d : Deed σ} (hruns : (m.timeline w arrivals a).running = i)
    (hacts : (m.timeline w arrivals a).occurrence w = .acts d)
    (hfirst : First (fun n => (m.timeline w arrivals n).TakesTurn i) a b) :
    (m.history w arrivals p b).last i = some d := by
  have hall : ∀ n, a + 1 ≤ n → n ≤ b → (m.history w arrivals p n).last i = some d := by
    intro n hn
    induction n, hn using Nat.le_induction with
    | base =>
        intro _
        show ((m.history w arrivals p a).record _ _).last i = some d
        rw [hacts, hruns]
        exact History.last_act_self _ i d
    | succ n hn ih =>
        intro hb
        have hwaits := hfirst.least n hn hb
        rw [← ih (Nat.le_of_succ_le hb)]
        exact last_record_of_not_turn w _ hwaits
  exact hall b hfirst.lt (Nat.le_refl b)

/-- All that the scheduler deals with until a thread takes its next turn is what the thread owes. -/
theorem dealt_until_turn (he : p.Explains m.view)
    (hfirst : First (fun n => (m.timeline w arrivals n).TakesTurn i) a b) :
    between (fun n => (m.timeline w arrivals n).dealt i) a b =
      (m.timeline w arrivals (a + 1)).owed i := by
  have hall : ∀ n, a + 1 ≤ n → n ≤ b →
      between (fun n => (m.timeline w arrivals n).dealt i) a n ++ (m.timeline w arrivals n).owed i =
        (m.timeline w arrivals (a + 1)).owed i := by
    intro n hn
    induction n, hn using Nat.le_induction with
    | base =>
        intro _
        rw [between_succ_self]
        rfl
    | succ n hn ih =>
        intro hb
        have hstep := dealt_append_owed w (explains_timeline w arrivals he n) (hfirst.least n hn hb)
        have harrive := (delays_arrive ((m.timeline w arrivals n).step w) (arrivals n)).owed_eq i
        rw [between_succ hn, List.append_assoc, ← ih (Nat.le_of_succ_le hb), ← hstep, ← harrive]
        rfl
  have hb := hall b hfirst.lt (Nat.le_refl b)
  rw [hfirst.so.owed i, List.append_nil] at hb
  exact hb

/-!
# Turns of thread code
-/

theorem caller?_eq_next {d : Deed σ} (he : p.Explains m.view) (hlast : p.last i = some d)
    (hturn : m.TakesTurn i) : m.phase.caller? = d.next := by
  rcases Option.isSome_iff_exists.mp hturn.2 with ⟨c, hcaller⟩
  have hview : m.view.phase.caller? = some c := by
    rw [← hcaller]
    exact congrArg Phase.caller? (core_of_caller hturn.2)
  have hruns : m.view.running = i := hturn.1
  have hdue := (he.story.turn hview).2
  rw [hruns] at hdue
  rw [hcaller]
  cases hdue with
  | first hnone _ _ _ =>
      rw [hlast] at hnone
      cases hnone
  | next hlast' hnext _ =>
      rw [hlast] at hlast'
      injection hlast' with hd
      rw [hd]
      exact hnext.symm

theorem phase_of_caller {phase : Phase σ δ} (hcaller : phase.caller? = some (.locking k state)) :
    phase = .locking k state := by
  cases phase <;> cases hcaller
  rfl

theorem Attempts.step_eq (hattempts : m.Attempts i k state) : m.step w = m.attemptLock k state := by
  unfold step
  rw [hattempts.2]

theorem Attempts.occurrence_eq (hattempts : m.Attempts i k state) :
    m.occurrence w = .acts (m.attempt k state) := by
  unfold occurrence
  rw [hattempts.2]
  rfl

/-- After an attempt that failed the thread yields once, and then attempts it again. -/
theorem attempts_again (he : p.Explains m.view) (hsound : m.custody.Sound)
    (hattempts : (m.timeline w arrivals a).Attempts i k state)
    (hdatum : (m.timeline w arrivals a).datum k = some data)
    (hguarded : (m.timeline w arrivals a).Guarded k)
    (hfirst : First (fun n => (m.timeline w arrivals n).TakesTurn i) a b) :
    between (fun n => (m.timeline w arrivals n).dealt i) a b = [.yield] ∧
      (m.timeline w arrivals b).Attempts i k state := by
  have hsound' : (m.timeline w arrivals a).custody.Sound := sound_timeline he hsound a
  have hstep := (hattempts.step_eq (w := w)).trans
    (attemptLock_of_guarded hsound' hdatum hguarded state)
  have hbusy := tryLock_of_guarded hsound' hdatum hguarded
  refine ⟨?_, hfirst.so.1, phase_of_caller ?_⟩
  · rw [dealt_until_turn he hfirst]
    refine ((delays_arrive _ (arrivals a)).owed_eq i).trans ?_
    rw [hstep]
    exact if_pos hattempts.1
  · have hlast := last_until_turn p hattempts.1 hattempts.occurrence_eq hfirst
    rw [caller?_eq_next (explains_timeline w arrivals he b) hlast hfirst.so]
    unfold attempt
    rw [hbusy]

theorem told_of_free (he : p.Explains m.view) (hsound : m.custody.Sound)
    (hattempts : (m.timeline w arrivals a).Attempts i k state)
    (hdatum : (m.timeline w arrivals a).datum k = some data)
    (hfree : ¬ (m.timeline w arrivals a).Guarded k)
    (hfirst : First (fun n => (m.timeline w arrivals n).TakesTurn i) a b) :
    between (fun n => (m.timeline w arrivals n).dealt i) a b = [] ∧
      (m.timeline w arrivals b).IsTold i state (.locked data) ∧
        (m.timeline w arrivals b).datum k = some data ∧ (m.timeline w arrivals b).Holds i k := by
  have hsound' : (m.timeline w arrivals a).custody.Sound := sound_timeline he hsound a
  have hstep := (hattempts.step_eq (w := w)).trans
    (attemptLock_of_not_guarded hsound' hdatum hfree state)
  rcases tryLock_of_not_guarded hsound' hdatum hfree with ⟨-, hholds, hdatum'⟩
  have harrive := delays_arrive ((m.timeline w arrivals a).step w) (arrivals a)
  have hruns : (m.timeline w arrivals (a + 1)).running = i := by
    refine harrive.running.trans ?_
    rw [hstep]
    exact (relocks_tryLock _ k).undisturbed.running.trans hattempts.1
  have hcore : (m.timeline w arrivals (a + 1)).phase.core = .code state (.locked data) := by
    refine harrive.core.trans ?_
    rw [hstep]
    rfl
  have hdelays := delays_until_turn hruns (by rw [hcore]; rfl) hfirst
  have hcustody : (m.timeline w arrivals b).custody =
      ((m.timeline w arrivals a).tryLock k).2.custody := by
    refine hdelays.custody.trans (harrive.custody.trans ?_)
    rw [hstep]
    rfl
  refine ⟨?_, ⟨hfirst.so.1, (phase_of_delays hdelays hfirst.so).trans hcore⟩, ?_, ?_⟩
  · rw [dealt_until_turn he hfirst]
    exact owed_of_made? (by rw [hcore]; rfl) i
  · unfold datum
    rw [hcustody]
    exact hdatum'
  · unfold Holds
    rw [hcustody, ← hattempts.1]
    exact hholds

theorem attempts_of_asks (he : p.Explains m.view)
    (hasks : (m.timeline w arrivals a).AsksFor w i (.lock k) state)
    (hfirst : First (fun n => (m.timeline w arrivals n).TakesTurn i) a b) :
    between (fun n => (m.timeline w arrivals n).dealt i) a b = [] ∧
      (m.timeline w arrivals b).Attempts i k state := by
  rcases hasks with ⟨state', response, ⟨hruns, hphase⟩, hask, hstate⟩
  have hstep := (turns_takeTurn w (m.timeline w arrivals a) state' response).undisturbed.running
  have harrive := delays_arrive ((m.timeline w arrivals a).step w) (arrivals a)
  have hcore : (m.timeline w arrivals (a + 1)).phase.core = .locking k state := by
    refine harrive.core.trans ?_
    unfold step
    rw [hphase]
    simp only [takeTurn, hask, hstate]
    rfl
  have hruns' : (m.timeline w arrivals (a + 1)).running = i := by
    refine harrive.running.trans ?_
    unfold step
    rw [hphase]
    exact hstep.trans hruns
  have hdelays := delays_until_turn hruns' (by rw [hcore]; rfl) hfirst
  refine ⟨?_, hfirst.so.1, (phase_of_delays hdelays hfirst.so).trans hcore⟩
  rw [dealt_until_turn he hfirst]
  exact owed_of_made? (by rw [hcore]; rfl) i

theorem isSome_datum_timeline (he : p.Explains m.view) (k : Nat) (n : Nat) :
    ((m.timeline w arrivals n).datum k).isSome = (m.datum k).isSome := by
  induction n with
  | zero => rfl
  | succ n ih =>
      unfold datum at ih ⊢
      rw [custody_succ he, Custody.isSome_datum_use]
      exact ih

theorem IsTold.takesTurn {response : Response δ} (htold : m.IsTold i state response) :
    m.TakesTurn i := by
  refine ⟨htold.1, ?_⟩
  rw [htold.2]
  rfl

theorem acquires_of_attempts (he : p.Explains m.view) (hsound : m.custody.Sound)
    (hmutex : (m.datum k).isSome = true) (hattempts : (m.timeline w arrivals a).Attempts i k state)
    (hfirst : First (fun n => ∃ state response,
      (m.timeline w arrivals n).IsTold i state response) a b) :
    Acquires (m.timeline w arrivals) i k state a b := by
  -- each turn of the thread up to `b` is another attempt, and there are only so many moments
  generalize hgap : b - a = gap
  induction gap using Nat.strong_induction_on generalizing a with
  | _ gap ih =>
      rcases hfirst.so with ⟨state', response, htold⟩
      rcases exists_first (P := fun n => (m.timeline w arrivals n).TakesTurn i) hfirst.lt
        htold.takesTurn with ⟨a', hle, hnext⟩
      have hmutex' : ((m.timeline w arrivals a).datum k).isSome = true :=
        (isSome_datum_timeline he k a).trans hmutex
      rcases Option.isSome_iff_exists.mp hmutex' with ⟨data, hdatum⟩
      by_cases hguarded : (m.timeline w arrivals a).Guarded k
      · rcases attempts_again he hsound hattempts hdatum hguarded hnext with ⟨hyields, hagain⟩
        have hlt : a' < b := by
          refine Nat.lt_of_le_of_ne hle ?_
          rintro rfl
          have hphase := htold.2
          rw [hagain.2] at hphase
          cases hphase
        have hrest : First _ a' b :=
          ⟨hlt, hfirst.so, fun n hn => hfirst.least n (Nat.lt_trans hnext.lt hn)⟩
        have hless : b - a' < gap := by
          have := hnext.lt
          omega
        exact .failed hattempts hguarded hnext hyields (ih _ hless hagain hrest rfl)
      · rcases told_of_free he hsound hattempts hdatum hguarded hnext with
          ⟨hnone, hgot, hsame, hholds⟩
        have heq : a' = b := by
          by_contra hne
          exact hfirst.least a' hnext.lt (Nat.lt_of_le_of_ne hle hne) ⟨_, _, hgot⟩
        rw [heq] at hnext hnone hgot hsame hholds
        exact .taken hattempts hguarded hnext hnone hgot hsame hholds

end Timelines

end Machine

end Coop
