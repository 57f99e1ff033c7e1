import Coop.Proofs.Machine.Timeline

/-!
# Steps that stay with the running thread

The turns of thread code, and everything around a call apart from its stages,
change neither the runtime nor the frames of suspended threads, and never lead
into the middle of a call.
-/

namespace Coop

section Phases

variable {σ δ : Type} {phase : Phase σ δ}

/-- Nothing of a call is left to do. -/
def Phase.Plain : Phase σ δ → Prop
  | .switch _ _ _ _ | .resume _ _ _ | .interrupt _ _ _ => False
  | _ => True

/-- A plain phase, or an interrupt that comes before one. -/
def Phase.Resting : Phase σ δ → Prop
  | .interrupt _ _ next => next.Plain
  | phase => phase.Plain

theorem Phase.plain_of_isCritical (hphase : phase.isCritical = false) : phase.Plain := by
  cases phase <;> trivial

theorem Phase.Plain.resting (hphase : phase.Plain) : phase.Resting := by
  cases phase with
  | interrupt guard mask next => cases hphase
  | _ => exact hphase

end Phases

namespace Machine

variable {μ σ ν δ : Type} {m m' m'' : Machine μ σ ν δ} {phase next : Phase σ δ}

/-!
# Mutexes
-/

/-- Only the mutexes may differ, and which of them the running thread's code holds. -/
def Relocks (m m' : Machine μ σ ν δ) : Prop :=
  ∃ mutexes locks, m' = { m with mutexes, locks }

theorem relocks_refl (m : Machine μ σ ν δ) : m.Relocks m :=
  ⟨m.mutexes, m.locks, rfl⟩

theorem relocks_tryLock (m : Machine μ σ ν δ) (k : Nat) : m.Relocks (m.tryLock k).2 := by
  unfold tryLock
  cases m.mutexes[k]? with
  | none => exact relocks_refl m
  | some mutex =>
      cases hlock : mutex.tryLock? with
      | none =>
          simp only [hlock]
          exact relocks_refl m
      | some locked =>
          simp only [hlock]
          exact ⟨_, _, rfl⟩

theorem relocks_unlock (m : Machine μ σ ν δ) (k : Nat) : m.Relocks (m.unlock k).2 := by
  unfold unlock
  cases m.locks.contains k with
  | true => exact ⟨_, _, rfl⟩
  | false => exact relocks_refl m

theorem relocks_update (m : Machine μ σ ν δ) (k : Nat) (f : δ → δ) :
    m.Relocks (m.update k f).2 := by
  unfold update
  cases m.locks.contains k with
  | false => exact relocks_refl m
  | true =>
      cases m.mutexes[k]? with
      | none => exact relocks_refl m
      | some mutex => exact ⟨_, _, rfl⟩

theorem relocks_freeMutexes (m : Machine μ σ ν δ) (locks : List Nat) :
    m.Relocks (locks.foldl freeMutex m) := by
  induction locks generalizing m with
  | nil => exact relocks_refl m
  | cons k rest ih =>
      rcases ih (m.freeMutex k) with ⟨mutexes, locks, hfreed⟩
      exact ⟨mutexes, locks, hfreed⟩

theorem relocks_unlockAll (m : Machine μ σ ν δ) : m.Relocks m.unlockAll := by
  rcases relocks_freeMutexes m m.locks with ⟨mutexes, locks, hfreed⟩
  unfold unlockAll
  rw [hfreed]
  exact ⟨mutexes, [], rfl⟩

/-!
# Turns of thread code

Thread code changes what is its own, and then goes on, perhaps with an interrupt first,
or stops the machine.
-/

structure Undisturbed (m m' : Machine μ σ ν δ) : Prop where
  system : m'.system = m.system
  stages : m'.stages = m.stages
  running : m'.running = m.running
  frames : m'.frames = m.frames
  maskable : m'.cpu.maskable = m.cpu.maskable

theorem undisturbed_refl (m : Machine μ σ ν δ) : m.Undisturbed m :=
  ⟨rfl, rfl, rfl, rfl, rfl⟩

theorem Undisturbed.trans (hbefore : m.Undisturbed m') (hlater : m'.Undisturbed m'') :
    m.Undisturbed m'' where
  system := hlater.system.trans hbefore.system
  stages := hlater.stages.trans hbefore.stages
  running := hlater.running.trans hbefore.running
  frames := hlater.frames.trans hbefore.frames
  maskable := hlater.maskable.trans hbefore.maskable

theorem undisturbed_takePending (m : Machine μ σ ν δ) (next : Phase σ δ) :
    m.Undisturbed (m.takePending next) := by
  unfold takePending
  cases m.pending with
  | none => exact ⟨rfl, rfl, rfl, rfl, rfl⟩
  | some mask => cases m.cpu.enabled <;> exact ⟨rfl, rfl, rfl, rfl, rfl⟩

theorem undisturbed_arrive (m : Machine μ σ ν δ) (arrival : Option Mask) :
    m.Undisturbed (m.arrive arrival) := by
  cases arrival with
  | none => exact undisturbed_refl m
  | some mask =>
      let m' : Machine μ σ ν δ := { m with pending := some (mask ||| m.pending.getD 0) }
      have hbefore : m.Undisturbed m' := ⟨rfl, rfl, rfl, rfl, rfl⟩
      unfold arrive
      cases hopen : m.phase.isOpen with
      | false =>
          simp only [hopen]
          exact hbefore
      | true =>
          simp only [hopen, if_true]
          exact hbefore.trans (undisturbed_takePending m' m.phase)

theorem Relocks.undisturbed (hrelocks : m.Relocks m') : m.Undisturbed m' := by
  rcases hrelocks with ⟨mutexes, locks, rfl⟩
  exact ⟨rfl, rfl, rfl, rfl, rfl⟩

inductive Turns (m : Machine μ σ ν δ) : Machine μ σ ν δ → Prop where
  | goesOn {m' : Machine μ σ ν δ} {next : Phase σ δ} : m.Undisturbed m' → next.isCritical = false →
      Turns m (m'.goTo next)
  | listens {m' : Machine μ σ ν δ} {next : Phase σ δ} : m.Undisturbed m' → next.isOpen = true →
      Turns m (m'.takePending next)

theorem Turns.undisturbed (hturns : m.Turns m') : m.Undisturbed m' := by
  cases hturns with
  | goesOn hbefore _ => exact hbefore.trans ⟨rfl, rfl, rfl, rfl, rfl⟩
  | listens hbefore _ => exact hbefore.trans (undisturbed_takePending _ _)

theorem Turns.after (hturns : m'.Turns m'') (hbefore : m.Undisturbed m') : m.Turns m'' := by
  cases hturns with
  | goesOn hlater hnext => exact .goesOn (hbefore.trans hlater) hnext
  | listens hlater hnext => exact .listens (hbefore.trans hlater) hnext

theorem turns_goTo (m : Machine μ σ ν δ) (hnext : next.isCritical = false) :
    m.Turns (m.goTo next) :=
  .goesOn (undisturbed_refl m) hnext

theorem turns_dropGuard (m : Machine μ σ ν δ) (guard : Guard) (hnext : next.isOpen = true) :
    m.Turns (m.dropGuard guard next) := by
  unfold dropGuard
  exact .listens ⟨rfl, rfl, rfl, rfl, guard.maskable_drop m.cpu⟩ hnext

theorem turns_awaitInterrupt (m : Machine μ σ ν δ) {after : Machine μ σ ν δ → Machine μ σ ν δ}
    (hafter : ∀ m' : Machine μ σ ν δ, m'.Turns (after m')) : m.Turns (m.awaitInterrupt after) := by
  unfold awaitInterrupt
  cases m.cpu.maskable with
  | false => exact hafter m
  | true =>
      cases m.upcoming with
      | nil => exact turns_goTo m rfl
      | cons mask rest => exact (hafter _).after ⟨rfl, rfl, rfl, rfl, rfl⟩

theorem undisturbed_unmaskAll (m : Machine μ σ ν δ) : m.Undisturbed m.unmaskAll :=
  ⟨rfl, rfl, rfl, rfl, Guard.maskable_dropAll m.guards m.cpu⟩

theorem turns_finishBody (m : Machine μ σ ν δ) (code : Int32) : m.Turns (m.finishBody code) := by
  unfold finishBody
  exact .listens ((relocks_unlockAll m).undisturbed.trans (undisturbed_unmaskAll _)) rfl

theorem turns_serve (m : Machine μ σ ν δ) (state : σ) (ask : Ask σ δ) :
    m.Turns (m.serve state ask) := by
  cases ask with
  | call c => exact turns_goTo m rfl
  | mask =>
      let masked : Machine μ σ ν δ :=
        { m with cpu := m.cpu.disable, guards := ⟨m.cpu.enabled⟩ :: m.guards }
      exact (turns_goTo masked rfl).after ⟨rfl, rfl, rfl, rfl, rfl⟩
  | unmask =>
      unfold serve
      cases m.guards with
      | nil => exact turns_goTo m rfl
      | cons guard rest => exact (turns_dropGuard _ guard rfl).after ⟨rfl, rfl, rfl, rfl, rfl⟩
  | setInterrupts on =>
      refine .listens ⟨rfl, rfl, rfl, rfl, ?_⟩ rfl
      cases on <;> rfl
  | interruptsEnabled => exact turns_goTo m rfl
  | halt =>
      unfold serve
      cases m.cpu.enabled with
      | false => exact turns_goTo m rfl
      | true =>
          simp only [if_true]
          refine (turns_awaitInterrupt _ fun m' => ?_).after ⟨rfl, rfl, rfl, rfl, rfl⟩
          exact turns_dropGuard m' _ rfl
  | lock k => exact turns_goTo m rfl
  | tryLock k => exact .goesOn (relocks_tryLock m k).undisturbed rfl
  | unlock k => exact .goesOn (relocks_unlock m k).undisturbed rfl
  | isLocked k => exact turns_goTo m rfl
  | update k f => exact .goesOn (relocks_update m k f).undisturbed rfl
  | pause => exact turns_goTo m rfl
  | finish code =>
      unfold serve
      by_cases hmain : m.running = 1
      · simp only [hmain, if_true]
        exact turns_goTo m rfl
      · simp only [hmain, if_false]
        exact turns_finishBody m code
  | panic p => exact turns_goTo m rfl

theorem turns_takeTurn (w : World μ σ ν δ) (m : Machine μ σ ν δ) (state : σ)
    (response : Response δ) : m.Turns (m.takeTurn w state response) :=
  (turns_serve _ _ _).after ⟨rfl, rfl, rfl, rfl, rfl⟩

theorem turns_attemptLock (m : Machine μ σ ν δ) (k : Nat) (state : σ) :
    m.Turns (m.attemptLock k state) := by
  have hrelocks := relocks_tryLock m k
  unfold attemptLock
  cases hlock : m.tryLock k with
  | mk response m' =>
      rw [hlock] at hrelocks
      cases response with
      | busy => exact .goesOn hrelocks.undisturbed rfl
      | _ => exact .goesOn hrelocks.undisturbed rfl

theorem turns_idle (m : Machine μ σ ν δ) : m.Turns m.idle := by
  unfold idle
  by_cases hready : m.system.scheduler.stats.readyThreads = 0
  · simp only [hready, if_true]
    refine (turns_awaitInterrupt _ fun m' => ?_).after ⟨rfl, rfl, rfl, rfl, rfl⟩
    exact turns_dropGuard m' _ rfl
  · simp only [hready, if_false]
    exact (turns_dropGuard _ _ rfl).after ⟨rfl, rfl, rfl, rfl, rfl⟩

theorem turns_answer (m : Machine μ σ ν δ) (guard : Guard) (r : Except Error Reply)
    (caller : Caller σ) : m.Turns (m.answer guard r caller) := by
  cases caller with
  | code state => exact turns_dropGuard m guard rfl
  | locking k state => exact turns_dropGuard m guard rfl
  | idle =>
      cases r with
      | ok reply => exact turns_dropGuard m guard rfl
      | error e => exact (turns_dropGuard _ guard rfl).after ⟨rfl, rfl, rfl, rfl, rfl⟩

/-!
# Where a turn leads
-/

structure Stays (m m' : Machine μ σ ν δ) : Prop where
  system : m'.system = m.system
  frames : m'.frames = m.frames
  phase : m'.phase.Resting

theorem resting_takePending (m : Machine μ σ ν δ) (hnext : next.Plain) :
    (m.takePending next).phase.Resting := by
  unfold takePending
  cases m.pending with
  | none => exact hnext.resting
  | some mask =>
      cases m.cpu.enabled with
      | true => exact hnext
      | false => exact hnext.resting

namespace Stays

theorem takePending (m : Machine μ σ ν δ) (hnext : next.Plain) : m.Stays (m.takePending next) :=
  ⟨(undisturbed_takePending m next).system, (undisturbed_takePending m next).frames,
    resting_takePending m hnext⟩

theorem dropGuard (m : Machine μ σ ν δ) (guard : Guard) (hnext : next.Plain) :
    m.Stays (m.dropGuard guard next) := by
  unfold Machine.dropGuard
  rcases takePending { m with cpu := guard.drop m.cpu } hnext with ⟨hsystem, hframes, hphase⟩
  exact ⟨hsystem, hframes, hphase⟩

end Stays

theorem Turns.stays (hturns : m.Turns m') : m.Stays m' := by
  refine ⟨hturns.undisturbed.system, hturns.undisturbed.frames, ?_⟩
  cases hturns with
  | goesOn _ hnext => exact (Phase.plain_of_isCritical hnext).resting
  | listens _ hnext =>
      exact resting_takePending _ (Phase.plain_of_isCritical (Phase.isCritical_of_isOpen hnext))

end Machine

end Coop
