import Coop.Proofs.Machine.Views
import Coop.Proofs.Scheduler.Sequels

/-!
# What has happened to threads

A history is what an onlooker writes down while a machine runs: which body each thread
was given, which threads have begun, what each thread did last by its own code, which
lines fired since, and with which code it asked to exit.
-/

namespace Coop

open Thread (Handle Id)

structure History (σ : Type) where
  given : Id → Option (Body σ)
  /-- What each thread did last by its own code. -/
  last : Id → Option (Deed σ) := fun _ => none
  /-- Whether a line fired since a thread last did something. -/
  heard : Id → Line → Bool := fun _ _ => false
  /-- The codes with which threads asked to exit, or with which their bodies returned. -/
  said : List (Id × Int32) := []
  started : List Id := []

namespace History

variable {σ : Type}

def create (main : σ) : History σ :=
  { given := Function.update (fun _ => none) 1 (some (.code main)) }

def act (p : History σ) (i : Id) (d : Deed σ) : History σ :=
  { p with
    last := Function.update p.last i (some d)
    heard := Function.update p.heard i fun _ => false
    said :=
      match d.call? with
      | some (.exit code) => (i, code) :: p.said
      | _ => p.said }

def note (p : History σ) (request : Request (Body σ)) (result : Except Error (Answer (Body σ))) :
    History σ :=
  { p with
    given :=
      match request, result with
      | .spawn _ body, .ok (.handle h) => Function.update p.given h.id (some body)
      | _, _ => p.given
    heard := fun i line => p.heard i line || request.covers line }

def start (p : History σ) (i : Id) : History σ :=
  { p with started := i :: p.started }

def record (p : History σ) (i : Id) : Occurrence σ → History σ
  | .passes => p
  | .acts d => p.act i d
  | .asks request result => p.note request result
  | .starts => p.start i

end History

def Machine.history {μ σ ν δ : Type} (w : World μ σ ν δ) (arrivals : Nat → Option Mask)
    (m : Machine μ σ ν δ) (p : History σ) : Nat → History σ
  | 0 => p
  | n + 1 =>
      let m' := m.timeline w arrivals n
      (history w arrivals m p n).record m'.running (m'.occurrence w)

end Coop
