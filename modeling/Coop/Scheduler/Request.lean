import Coop.Scheduler.Operation

/-!
# Requests and histories

Every operation of the scheduler as one value, so that a run is a list of
requests.  A history keeps each request of a run with the state it met, what it
was answered, and the state it left.
-/

namespace Coop

open Thread (Handle Spec)

inductive Request (β : Type) where
  | bootstrap
  | spawn (spec : Spec) (body : β)
  | takeBody
  | yield
  | wait (line : Line)
  | exit (code : Int32)
  | join (target : Handle)
  | collect (target : Handle)
  | tryJoin (target : Handle)
  | detach (target : Handle)
  | interrupt (line : Line)
  | interrupts (mask : Mask)
  | completeSwitch
  deriving DecidableEq, Repr

inductive Answer (β : Type) where
  | done
  | handle (h : Handle)
  | body (body : Option β)
  | transfer (t : Transfer)
  | code (code : Int32)
  /-- How many threads were made ready. -/
  | woken (count : Nat)
  deriving DecidableEq, Repr

namespace Answer

variable {β : Type}

def transfer? : Answer β → Option Transfer
  | transfer t => some t
  | _ => none

end Answer

namespace Scheduler

variable {β : Type}

/-- Performs one operation, given what the allocator will answer. -/
def perform (s : Scheduler β) (supply : Supply) : Request β → Outcome β (Answer β)
  | .bootstrap => (s.bootstrap supply).map .handle
  | .spawn spec body => (s.spawn supply spec body).map .handle
  | .takeBody =>
      let (body, s) := s.takeBody
      s.work.succeed (.body body)
  | .yield =>
      s.yield.map fun
        | some t => .transfer t
        | none => .done
  | .wait line => (s.wait line).map .transfer
  | .exit code => (s.exit supply code).map .transfer
  | .join target =>
      (s.join supply target).map fun
        | .exited code => .code code
        | .blocked t => .transfer t
  | .collect target => (s.collect supply target).map .code
  | .tryJoin target =>
      (s.tryJoin supply target).map fun
        | some code => .code code
        | none => .done
  | .detach target => (s.detach supply target).map fun _ => .done
  | .interrupt line => (s.interrupt line).map .woken
  | .interrupts mask => (s.interrupts mask).map .woken
  | .completeSwitch => (s.completeSwitch supply).map fun _ => .done

structure Entry (β : Type) where
  earlier : Scheduler β
  request : Request β
  supply : Supply
  outcome : Outcome β (Answer β)

namespace Entry

variable {β : Type}

def later (e : Entry β) : Scheduler β :=
  e.outcome.scheduler

def answer? (e : Entry β) : Option (Answer β) :=
  e.outcome.result.toOption

end Entry

/-- Performs operations one after the other, whether or not they fail. -/
def run (s : Scheduler β) : List (Request β × Supply) → List (Entry β)
  | [] => []
  | (request, supply) :: rest =>
      let outcome := s.perform supply request
      ⟨s, request, supply, outcome⟩ :: outcome.scheduler.run rest

def after (s : Scheduler β) : List (Request β × Supply) → Scheduler β
  | [] => s
  | (request, supply) :: rest => (s.perform supply request).scheduler.after rest

/-- The states that operations can lead to, from a scheduler without threads. -/
def Reachable (s : Scheduler β) : Prop :=
  ∃ (config : Config) (requests : List (Request β × Supply)), s = (create config).after requests

@[simp] theorem after_nil (s : Scheduler β) : s.after [] = s := rfl

@[simp] theorem after_cons (s : Scheduler β) (request : Request β) (supply : Supply)
    (rest : List (Request β × Supply)) :
    s.after ((request, supply) :: rest) = (s.perform supply request).scheduler.after rest := rfl

theorem after_append (s : Scheduler β) (requests more : List (Request β × Supply)) :
    s.after (requests ++ more) = (s.after requests).after more := by
  induction requests generalizing s with
  | nil => rfl
  | cons entry rest ih => exact ih _

theorem Reachable.perform {s : Scheduler β} (h : s.Reachable) (supply : Supply)
    (request : Request β) : (s.perform supply request).scheduler.Reachable := by
  obtain ⟨config, requests, rfl⟩ := h
  exact ⟨config, requests ++ [(request, supply)], by simp [after_append]⟩

end Scheduler

end Coop
