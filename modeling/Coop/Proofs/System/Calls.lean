import Coop.Scheduler.Request
import Coop.System.Basic

/-!
# Calls as requests

A call that is not a question makes one request of the scheduler.  The processor
changes hands just when the answer is a transfer, and the caller will have
something to collect only when the call was a join.
-/

namespace Coop

open Thread (Handle)

variable {α β γ : Type}

namespace Outcome

variable {o : Outcome β α} {f : α → γ}

theorem map_eq_ok {b : γ} (hresult : (o.map f).result = .ok b) :
    ∃ a, o.result = .ok a ∧ f a = b := by
  have hmap : o.result.map f = .ok b := hresult
  cases hcases : o.result with
  | error e =>
      rw [hcases] at hmap
      cases hmap
  | ok a =>
      rw [hcases] at hmap
      injection hmap with hmap
      exact ⟨a, rfl, hmap⟩

theorem map_of_ok {a : α} (hresult : o.result = .ok a) : (o.map f).result = .ok (f a) := by
  show o.result.map f = _
  rw [hresult]
  rfl

theorem map_ne_ok {b : γ} (hf : ∀ a, f a ≠ b) : (o.map f).result ≠ .ok b := by
  intro hresult
  rcases map_eq_ok hresult with ⟨a, -, ha⟩
  exact hf a ha

end Outcome

def Request.suspends : Request β → Bool
  | .yield | .wait _ | .exit _ | .join _ => true
  | _ => false

theorem Scheduler.perform_ne_transfer {s : Scheduler β} {supply : Supply} {request : Request β}
    (hstays : request.suspends = false) (t : Transfer) :
    (s.perform supply request).result ≠ .ok (.transfer t) := by
  cases request with
  | yield => cases hstays
  | wait line => cases hstays
  | exit code => cases hstays
  | join target => cases hstays
  | takeBody =>
      intro htransfer
      cases htransfer
  | tryJoin target =>
      apply Outcome.map_ne_ok
      intro a
      cases a <;> simp
  | _ => exact Outcome.map_ne_ok (by simp)

def Call.request? : Call β → Option (Request β)
  | .init => some .bootstrap
  | .spawn spec body => some (.spawn spec body)
  | .yield => some .yield
  | .wait line => some (.wait line)
  | .exit code => some (.exit code)
  | .join target => some (.join target)
  | .tryJoin target => some (.tryJoin target)
  | .detach target => some (.detach target)
  | .interrupt line => some (.interrupt line)
  | .interrupts mask => some (.interrupts mask)
  | _ => none

/-- Whether a call can be answered. -/
def Call.returns : Call β → Bool
  | .exit _ => false
  | _ => true

/-- What is left to do for a call whose caller gave up the processor. -/
inductive Call.Pauses : Call β → Resume → Prop where
  | yield : Pauses .yield .plain
  | wait {line : Line} : Pauses (.wait line) .plain
  | join {target : Handle} : Pauses (.join target) (.collect target)
  | exit {code : Int32} : Pauses (.exit code) .never

inductive Call.Answers : Call β → Option (Except Error (Answer β)) → Except Error Reply → Prop where
  | refused {c : Call β} {result? : Option (Except Error (Answer β))} {e : Error} :
      c.returns = true → Answers c result? (.error e)
  | joined {target : Handle} {code : Int32} :
      Answers (.join target) (some (.ok (.code code))) (.ok (.code code))
  | other {c : Call β} {result? : Option (Except Error (Answer β))} {r : Except Error Reply} :
      c.returns = true → (∀ line, c ≠ .wait line) → (∀ target, c ≠ .join target) →
        Answers c result? r

theorem Call.Answers.returns {c : Call β} {result? : Option (Except Error (Answer β))}
    {r : Except Error Reply} (hanswers : c.Answers result? r) : c.returns = true := by
  cases hanswers with
  | refused hreturns => exact hreturns
  | joined => rfl
  | other hreturns _ _ => exact hreturns

/-- The scheduler after a stage is as the request left it, if there was one. -/
def Stage.Follows (stage : Stage β α) (s : System β) (supply : Supply) :
    Option (Request β) → Prop
  | none => stage.system.scheduler = s.scheduler
  | some request => stage.system.scheduler = (s.scheduler.perform supply request).scheduler

namespace System

variable {s : System β} {supply : Supply}

/-!
# The stages of a call
-/

section Stages

variable {o : Outcome β α} {f : α → Course} {t : Transfer} {resume : Resume} {e : Ending}

theorem suspending_switch (hvalue : (s.suspending o f).value = .switch t resume) :
    ∃ a, o.result = .ok a ∧ f a = .switch t resume := by
  unfold suspending stage at hvalue
  cases hresult : o.result with
  | error e =>
      rw [hresult] at hvalue
      cases hvalue
  | ok a =>
      rw [hresult] at hvalue
      exact ⟨a, rfl, hvalue⟩

theorem suspending_ended (hvalue : (s.suspending o f).value = .ended e) {a : α}
    (hresult : o.result = .ok a) : f a = .ended e := by
  unfold suspending stage at hvalue
  rw [hresult] at hvalue
  exact hvalue

theorem suspending_refused {cause : Error} (hresult : o.result = .error cause) :
    (s.suspending o f).value = .ended (.answer (.error cause)) := by
  unfold suspending stage
  rw [hresult]

end Stages

theorem init_stage (s : System β) (supply : Supply) :
    (s.init supply).system.scheduler = (s.scheduler.bootstrap supply).scheduler ∧
      (s.init supply).value =
        .ended (.answer ((s.scheduler.bootstrap supply).result.map .handle)) := by
  unfold init
  cases hresult : (s.scheduler.bootstrap supply).result with
  | error e => simp [direct, stage, hresult]
  | ok h => simp [direct, stage, hresult]

theorem begin_follows (s : System β) (supply : Supply) (c : Call β) :
    (s.begin supply c).Follows s supply c.request? := by
  cases c with
  | init => exact (s.init_stage supply).1
  | _ => rfl

theorem begin_switch {c : Call β} {t : Transfer} {resume : Resume}
    (hvalue : (s.begin supply c).value = .switch t resume) :
    ∃ request, c.request? = some request ∧
      (s.scheduler.perform supply request).result = .ok (.transfer t) ∧
        ∀ h, resume = .collect h → request = .join h := by
  cases c with
  | init =>
      have hended := (s.init_stage supply).2.symm.trans hvalue
      cases hended
  | yield =>
      rcases suspending_switch hvalue with ⟨a, hresult, ha⟩
      cases a with
      | none => cases ha
      | some t' =>
          cases ha
          refine ⟨.yield, rfl, Outcome.map_of_ok hresult, ?_⟩
          intro h hresume
          cases hresume
  | wait line =>
      rcases suspending_switch hvalue with ⟨t', hresult, ha⟩
      cases ha
      refine ⟨.wait line, rfl, Outcome.map_of_ok hresult, ?_⟩
      intro h hresume
      cases hresume
  | exit code =>
      simp only [begin, exit, stage] at hvalue
      cases hresult : (s.scheduler.exit supply code).result with
      | error e =>
          rw [hresult] at hvalue
          cases hvalue
      | ok t' =>
          rw [hresult] at hvalue
          cases hvalue
          refine ⟨.exit code, rfl, Outcome.map_of_ok hresult, ?_⟩
          intro h hresume
          cases hresume
  | join target =>
      rcases suspending_switch hvalue with ⟨a, hresult, ha⟩
      cases a with
      | exited code => cases ha
      | blocked t' =>
          cases ha
          refine ⟨.join target, rfl, Outcome.map_of_ok hresult, ?_⟩
          intro h hresume
          injection hresume with hresume
          rw [hresume]
  | _ => cases hvalue

theorem begin_ended {c : Call β} {e : Ending} (hvalue : (s.begin supply c).value = .ended e)
    {request : Request β} (hrequest : c.request? = some request) (t : Transfer) :
    (s.scheduler.perform supply request).result ≠ .ok (.transfer t) := by
  intro htransfer
  cases c with
  | yield =>
      cases hrequest
      rcases Outcome.map_eq_ok htransfer with ⟨a, hresult, ha⟩
      have hended := suspending_ended hvalue hresult
      cases a with
      | none => cases ha
      | some t' => cases hended
  | wait line =>
      cases hrequest
      rcases Outcome.map_eq_ok htransfer with ⟨a, hresult, -⟩
      cases suspending_ended hvalue hresult
  | exit code =>
      cases hrequest
      rcases Outcome.map_eq_ok htransfer with ⟨a, hresult, -⟩
      simp only [begin, exit, stage, hresult] at hvalue
      cases hvalue
  | join target =>
      cases hrequest
      rcases Outcome.map_eq_ok htransfer with ⟨a, hresult, ha⟩
      have hended := suspending_ended hvalue hresult
      cases a with
      | exited code => cases ha
      | blocked t' => cases hended
  | init | spawn _ _ | tryJoin _ | detach _ | interrupt _ | interrupts _ =>
      cases hrequest
      exact Scheduler.perform_ne_transfer rfl t htransfer
  | _ => cases hrequest

/-- What is left to do for a call that gave up the processor depends on the call alone. -/
theorem pauses_of_switch {c : Call β} {t : Transfer} {resume : Resume}
    (hvalue : (s.begin supply c).value = .switch t resume) : c.Pauses resume := by
  cases c with
  | yield =>
      rcases suspending_switch hvalue with ⟨a, -, ha⟩
      cases a with
      | none => cases ha
      | some t' =>
          cases ha
          exact .yield
  | wait line =>
      rcases suspending_switch hvalue with ⟨t', -, ha⟩
      cases ha
      exact .wait
  | exit code =>
      simp only [begin, exit, stage] at hvalue
      cases hresult : (s.scheduler.exit supply code).result with
      | error e =>
          rw [hresult] at hvalue
          cases hvalue
      | ok t' =>
          rw [hresult] at hvalue
          cases hvalue
          exact .exit
  | join target =>
      rcases suspending_switch hvalue with ⟨a, -, ha⟩
      cases a with
      | exited code => cases ha
      | blocked t' =>
          cases ha
          exact .join
  | init => cases (s.init_stage supply).2.symm.trans hvalue
  | _ => cases hvalue

theorem answers_of_ended {c : Call β} {r : Except Error Reply}
    (hvalue : (s.begin supply c).value = .ended (.answer r)) :
    c.Answers (c.request?.map fun request => (s.scheduler.perform supply request).result) r := by
  cases c with
  | exit code =>
      simp only [begin, exit, stage] at hvalue
      cases hresult : (s.scheduler.exit supply code).result with
      | ok t =>
          rw [hresult] at hvalue
          cases hvalue
      | error e =>
          rw [hresult] at hvalue
          cases hvalue
  | wait line =>
      cases hresult : (s.scheduler.wait line).result with
      | ok t => cases suspending_ended hvalue hresult
      | error e =>
          cases (suspending_refused hresult).symm.trans hvalue
          exact .refused rfl
  | join target =>
      cases hresult : (s.scheduler.join supply target).result with
      | error e =>
          cases (suspending_refused hresult).symm.trans hvalue
          exact .refused rfl
      | ok a =>
          have hended := suspending_ended hvalue hresult
          cases a with
          | blocked t => cases hended
          | exited code =>
              cases hended
              have hcode : (s.scheduler.perform supply (.join target)).result = .ok (.code code) :=
                Outcome.map_of_ok hresult
              simp only [Call.request?, Option.map_some, hcode]
              exact .joined
  | _ => exact .other rfl (by simp) (by simp)

theorem panic_of_ended {c : Call β} {p : Panic}
    (hvalue : (s.begin supply c).value = .ended (.panic p)) :
    ∃ code e, c = .exit code ∧ p = .cannotExit e ∧
      (s.scheduler.perform supply (.exit code)).result = .error e := by
  cases c with
  | exit code =>
      simp only [begin, exit, stage] at hvalue
      cases hresult : (s.scheduler.exit supply code).result with
      | ok t =>
          rw [hresult] at hvalue
          cases hvalue
      | error e =>
          rw [hresult] at hvalue
          cases hvalue
          refine ⟨code, e, rfl, rfl, ?_⟩
          show (s.scheduler.exit supply code).result.map _ = _
          rw [hresult]
          rfl
  | init => cases (s.init_stage supply).2.symm.trans hvalue
  | wait line =>
      cases hresult : (s.scheduler.wait line).result with
      | ok t => cases suspending_ended hvalue hresult
      | error e => cases (suspending_refused hresult).symm.trans hvalue
  | yield =>
      cases hresult : s.scheduler.yield.result with
      | ok t? =>
          have hended := suspending_ended hvalue hresult
          cases t? <;> cases hended
      | error e => cases (suspending_refused hresult).symm.trans hvalue
  | join target =>
      cases hresult : (s.scheduler.join supply target).result with
      | ok joined =>
          have hended := suspending_ended hvalue hresult
          cases joined <;> cases hended
      | error e => cases (suspending_refused hresult).symm.trans hvalue
  | _ => cases hvalue

theorem finish_collect (s : System β) (supply : Supply) (h : Handle) :
    (s.finish supply (.collect h)).value =
      .answer ((((s.scheduler.perform supply .completeSwitch).scheduler.collect supply
        h).result).map .code) := rfl

end System

end Coop
