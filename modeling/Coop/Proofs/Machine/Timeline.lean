import Coop.Machine.Basic

/-!
# Machines over time

Interrupts may arrive after any step of a machine.  One that arrives while the
processor masks interrupts waits, and those that wait together are taken together.
A timeline is a machine at every moment, for interrupts that arrive as they please.
-/

namespace Coop

section Phases

variable {σ δ : Type} {phase : Phase σ δ}

/-- No call is under way, so that an interrupt can be taken if the flag allows it. -/
def Phase.isOpen : Phase σ δ → Bool
  | .code _ _ | .locking _ _ | .idle | .invoke _ _ => true
  | _ => false

def Phase.isCritical : Phase σ δ → Bool
  | .schedule _ _ _ | .switch _ _ _ _ | .resume _ _ _ | .start | .answer _ _ _
  | .interrupt _ _ _ => true
  | _ => false

theorem Phase.isCritical_of_isOpen (hopen : phase.isOpen = true) : phase.isCritical = false := by
  cases phase <;> trivial

/-- What the machine goes on with once the interrupts before it are over. -/
def Phase.core : Phase σ δ → Phase σ δ
  | .interrupt _ _ next => next.core
  | phase => phase

end Phases

namespace Machine

variable {μ σ ν δ : Type}

def arrive (m : Machine μ σ ν δ) : Option Mask → Machine μ σ ν δ
  | none => m
  | some mask =>
      let m := { m with pending := some (mask ||| m.pending.getD 0) }
      if m.phase.isOpen then m.takePending m.phase else m

/-- The machine after so many steps, with the interrupts that arrive after each of them. -/
def timeline (w : World μ σ ν δ) (arrivals : Nat → Option Mask) (m : Machine μ σ ν δ) :
    Nat → Machine μ σ ν δ
  | 0 => m
  | n + 1 => ((timeline w arrivals m n).step w).arrive (arrivals n)

theorem step_of_stopped (w : World μ σ ν δ) {m : Machine μ σ ν δ} {why : Ended}
    (h : m.phase = .stopped why) : m.step w = m := by
  unfold step
  rw [h]

theorem snd_run_succ (w : World μ σ ν δ) (n : Nat) (m : Machine μ σ ν δ) :
    (run w (n + 1) m).2 = (run w n m).2.step w := by
  induction n generalizing m with
  | zero =>
      unfold run
      split
      · exact (step_of_stopped w ‹_›).symm
      · rfl
  | succ n ih =>
      unfold run
      split
      · exact (step_of_stopped w ‹_›).symm
      · exact ih (m.step w)

/-- A run is a timeline in which no interrupt arrives by itself. -/
theorem snd_run_eq_timeline (w : World μ σ ν δ) (m : Machine μ σ ν δ) (n : Nat) :
    (run w n m).2 = timeline w (fun _ => none) m n := by
  induction n with
  | zero => rfl
  | succ n ih =>
      rw [snd_run_succ, ih]
      rfl

end Machine

end Coop
