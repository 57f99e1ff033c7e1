import Coop.Thread.Basic

/-!
# Orders on the bench

An order is a step together with the thread it names.  Any step may name a
thread, and one that names a thread which was never issued is refused before
anything else is looked at.
-/

namespace Coop
namespace Bench

open Thread (Handle Id)

inductive Target where
  /-- The thread with this identifier, whether or not it still lives. -/
  | issued (id : Id)
  /-- A handle of the driver's own making. -/
  | forged (h : Handle)
  | nobody
  deriving DecidableEq, Repr

def Target.resolve? (issued : Array Handle) : Target → Option Handle
  | .issued id => issued.find? fun h => h.id = id
  | .forged h => some h
  | .nobody => none

inductive Refusal where
  /-- The order names no thread, or one that was never issued. -/
  | badRef
  | badLine
  | badInput
  deriving DecidableEq, Repr

structure Order (σ : Type) where
  target : Option Target := none
  step : σ
  deriving DecidableEq, Repr

namespace Order

variable {σ : Type}

def named (o : Order σ) (issued : Array Handle) : Except Refusal (Option Handle) :=
  match o.target with
  | none => .ok none
  | some target =>
      match target.resolve? issued with
      | none => .error .badRef
      | some h => .ok (some h)

end Order

end Bench
end Coop
