import Coop.Proofs.Scheduler.Simulation

/-!
# Why operations are refused

Every refusal has a reason that can be read off the scheduler before the operation
starts.  The reasons are listed here, and they are the only ones.
-/

namespace Coop

open Thread (Block Handle Spec Table)

/-- The request is made by the running thread. -/
def Request.asks {β : Type} : Request β → Bool
  | .spawn .. | .yield | .wait _ | .exit _ | .join _ | .collect _ | .tryJoin _ | .detach _ => true
  | _ => false

namespace Scheduler

variable {β : Type}

/-- With no thread ready, the request would leave the processor without a thread. -/
inductive Strands (s : Scheduler β) (cur : Nat) : Request β → Prop where
  | wait {line : Line} : Strands s cur (.wait line)
  | exit {b : Block β} {code : Int32} : s.table.get? cur = some b → b.joiner = none →
      Strands s cur (.exit code)
  | join {h : Handle} {target : Block β} : s.joinable cur h = .ok target →
      finished? target = none → Strands s cur (.join h)

inductive Objection (s : Scheduler β) (supply : Supply) : Request β → Error → Prop where
  | deserted {request : Request β} : s.current = none → request.asks = true →
      Objection s supply request (.misuse .notInitialized)
  | initialized {cur : Nat} : s.current = some cur →
      Objection s supply .bootstrap (.misuse .alreadyInitialized)
  | noRoomFirst {cause : Shortage} : s.current = none →
      (s.table.reserve supply.slots supply.vacant).1 = .error cause →
        Objection s supply .bootstrap (.shortage cause)
  | noRoom {cur : Nat} {spec : Spec} {body : β} {cause : Shortage} : s.current = some cur →
      (s.table.reserve supply.slots supply.vacant).1 = .error cause →
        Objection s supply (.spawn spec body) (.shortage cause)
  | noStack {cur : Nat} {spec : Spec} {body : β} {cause : Shortage} : s.current = some cur →
      (s.table.reserve supply.slots supply.vacant).1 = .ok () →
        (s.pool.allocateBytes supply.stack (s.config.stackSize spec.stackSize)).1 = .error cause →
          Objection s supply (.spawn spec body) (.shortage cause)
  | stranded {cur : Nat} {request : Request β} : s.current = some cur → s.ready.isEmpty = true →
      s.Strands cur request → Objection s supply request .noRunnableThread
  | unjoinable {cur : Nat} {request : Request β} {h : Handle} {e : Error} :
      s.current = some cur → request = .join h ∨ request = .tryJoin h →
        s.joinable cur h = .error e → Objection s supply request e
  | stale {cur : Nat} {request : Request β} {h : Handle} : s.current = some cur →
      request = .collect h ∨ request = .detach h → s.table.lookup h = none →
        Objection s supply request (.misuse .invalidHandle)
  | foreign {caller h : Handle} {target : Block β} : s.running = .ok caller →
      s.table.lookup h = some target → target.joiner ≠ some caller →
        Objection s supply (.collect h) (.misuse .wrongState)
  | early {caller h : Handle} {target : Block β} : s.running = .ok caller →
      s.table.lookup h = some target → target.joiner = some caller → target.exitCode = none →
        Objection s supply (.collect h) (.misuse .stillRunning)
  | taken {cur : Nat} {h j : Handle} {target : Block β} : s.current = some cur →
      s.table.lookup h = some target → target.joiner = some j →
        Objection s supply (.detach h) (.misuse .alreadyJoined)

variable {s : Scheduler β} {o : Outline β} {supply : Supply} {e : Error} {request : Request β}
  {cur : Nat} {h : Handle}

/-!
# Requests without a caller
-/

theorem result_of_deserted (hcurrent : s.current = none) (hasks : request.asks = true) :
    (s.perform supply request).result = .error (.misuse .notInitialized) := by
  cases request with
  | bootstrap | takeBody | interrupt _ | interrupts _ | completeSwitch => cases hasks
  | spawn _ _ => simp only [Scheduler.perform, spawn, hcurrent]; rfl
  | yield => simp only [Scheduler.perform, yield, hcurrent]; rfl
  | wait _ => simp only [Scheduler.perform, wait, hcurrent]; rfl
  | exit _ => simp only [Scheduler.perform, exit, hcurrent]; rfl
  | join _ => simp only [Scheduler.perform, join, hcurrent]; rfl
  | collect _ => simp only [Scheduler.perform, collect, running, hcurrent]; rfl
  | tryJoin _ => simp only [Scheduler.perform, tryJoin, hcurrent]; rfl
  | detach _ => simp only [Scheduler.perform, detach, hcurrent]; rfl

theorem objection_bootstrap (he : (s.perform supply .bootstrap).result = .error e) :
    s.Objection supply .bootstrap e := by
  cases hcurrent : s.current with
  | some cur =>
      simp only [Scheduler.perform, bootstrap, hcurrent] at he
      injection he with he
      rw [← he]
      exact .initialized hcurrent
  | none =>
      cases hroom : (s.table.reserve supply.slots supply.vacant).1 with
      | error cause =>
          simp only [Scheduler.perform, bootstrap, hcurrent, Work.reserve, work, hroom] at he
          injection he with he
          rw [← he]
          exact .noRoomFirst hcurrent hroom
      | ok u =>
          simp only [Scheduler.perform, bootstrap, hcurrent, Work.reserve, work, hroom] at he
          cases he

/-- Of the requests that no thread has to make, only the first one is ever refused. -/
theorem objection_of_not_asks (hasks : request.asks = false)
    (he : (s.perform supply request).result = .error e) : s.Objection supply request e := by
  cases request with
  | bootstrap => exact objection_bootstrap he
  | takeBody => cases he
  | interrupt line => cases he
  | interrupts mask => cases he
  | completeSwitch =>
      unfold Scheduler.perform Scheduler.completeSwitch at he
      cases hgraveyard : s.graveyard with
      | none => simp only [hgraveyard] at he; cases he
      | some stack => simp only [hgraveyard] at he; cases he
  | _ => cases hasks

theorem objection_spawn (hcurrent : s.current = some cur) {spec : Spec} {body : β}
    (he : (s.perform supply (.spawn spec body)).result = .error e) :
    s.Objection supply (.spawn spec body) e := by
  cases hroom : (s.table.reserve supply.slots supply.vacant).1 with
  | error cause =>
      simp only [Scheduler.perform, spawn, hcurrent, Work.reserve, work, hroom] at he
      injection he with he
      rw [← he]
      exact .noRoom hcurrent hroom
  | ok u =>
      cases hstack : (s.pool.allocateBytes supply.stack (s.config.stackSize spec.stackSize)).1 with
      | error cause =>
          simp only [Scheduler.perform, spawn, hcurrent, Work.reserve, work, hroom, Work.allocate,
            Work.update, Work.expect, hstack] at he
          injection he with he
          rw [← he]
          exact .noStack hcurrent hroom hstack
      | ok stack =>
          simp only [Scheduler.perform, spawn, hcurrent, Work.reserve, work, hroom, Work.allocate,
            Work.update, Work.expect, hstack] at he
          cases he

/-!
# Requests that give up the processor
-/

theorem transfer_of_departs (hs : s.Shaped o) {caller : Handle} {w : Work β}
    (hrunning : s.running = .ok caller) (hdeparts : s.Departs supply caller request w) :
    ∃ t, (s.perform supply request).result = .ok (.transfer t) := by
  rcases hs.1.dispatch_of_departs hs.2 hrunning hdeparts with ⟨-, t, htransfer, -, -⟩
  refine ⟨t, ?_⟩
  rw [hdeparts.perform_eq hrunning]
  show (w.dispatch caller).result.map _ = _
  rw [htransfer]
  rfl

theorem Shaped.not_error_of_departs (hs : s.Shaped o) {caller : Handle} {w : Work β}
    (hrunning : s.running = .ok caller) (hdeparts : s.Departs supply caller request w) :
    (s.perform supply request).result ≠ .error e := by
  rcases transfer_of_departs hs hrunning hdeparts with ⟨t, hresult⟩
  rw [hresult]
  exact fun h => by cases h

theorem Shaped.objection_yield (hs : s.Shaped o) (hcurrent : s.current = some cur)
    (he : (s.perform supply .yield).result = .error e) : s.Objection supply .yield e := by
  rcases hs.1.running_of_current hs.2 hcurrent with ⟨b, -, hrunning⟩
  cases hempty : s.ready.isEmpty with
  | false => exact absurd he (hs.not_error_of_departs hrunning (.yields hempty))
  | true =>
      simp only [Scheduler.perform, yield, hcurrent, hempty, if_true] at he
      cases he

theorem Shaped.objection_wait (hs : s.Shaped o) (hcurrent : s.current = some cur) {line : Line}
    (he : (s.perform supply (.wait line)).result = .error e) : s.Objection supply (.wait line) e :=
      by
  rcases hs.1.running_of_current hs.2 hcurrent with ⟨b, -, hrunning⟩
  cases hempty : s.ready.isEmpty with
  | false => exact absurd he (hs.not_error_of_departs hrunning (.waits hempty))
  | true =>
      simp only [Scheduler.perform, wait, hcurrent, hempty, if_true] at he
      injection he with he
      rw [← he]
      exact .stranded hcurrent hempty .wait

theorem Shaped.objection_exit (hs : s.Shaped o) (hcurrent : s.current = some cur) {code : Int32}
    (he : (s.perform supply (.exit code)).result = .error e) : s.Objection supply (.exit code) e :=
      by
  rcases hs.1.running_of_current hs.2 hcurrent with ⟨b, hb, hrunning⟩
  cases hrefused : s.ready.isEmpty && b.joiner.isNone with
  | false => exact absurd he (hs.not_error_of_departs hrunning (.exits hb hrefused))
  | true =>
      simp only [Scheduler.perform, exit, hcurrent, hb, hrefused, if_true] at he
      injection he with he
      rcases Bool.and_eq_true_iff.mp hrefused with ⟨hempty, hjoiner⟩
      rw [← he]
      exact .stranded hcurrent hempty (.exit hb (Option.isNone_iff_eq_none.mp hjoiner))

/-!
# Requests that name a thread
-/

theorem Shaped.objection_join (hs : s.Shaped o) (hcurrent : s.current = some cur)
    (he : (s.perform supply (.join h)).result = .error e) : s.Objection supply (.join h) e := by
  rcases hs.1.running_of_current hs.2 hcurrent with ⟨b, -, hrunning⟩
  cases hjoinable : s.joinable cur h with
  | error cause =>
      simp only [Scheduler.perform, join, hcurrent, hjoinable] at he
      injection he with he
      rw [← he]
      exact .unjoinable hcurrent (Or.inl rfl) hjoinable
  | ok target =>
      cases hfinished : finished? target with
      | some code =>
          simp only [Scheduler.perform, join, hcurrent, hjoinable, hfinished] at he
          cases he
      | none =>
          cases hempty : s.ready.isEmpty with
          | false =>
              have hdeparts : s.Departs supply ⟨cur, b.id⟩ (.join h) _ :=
                .joins hjoinable hfinished hempty
              exact absurd he (hs.not_error_of_departs hrunning hdeparts)
          | true =>
              simp only [Scheduler.perform, join, hcurrent, hjoinable, hfinished, hempty, if_true]
                at he
              injection he with he
              rw [← he]
              exact .stranded hcurrent hempty (.join hjoinable hfinished)

theorem objection_tryJoin (hcurrent : s.current = some cur)
    (he : (s.perform supply (.tryJoin h)).result = .error e) : s.Objection supply (.tryJoin h) e :=
      by
  cases hjoinable : s.joinable cur h with
  | error cause =>
      simp only [Scheduler.perform, tryJoin, hcurrent, hjoinable] at he
      injection he with he
      rw [← he]
      exact .unjoinable hcurrent (Or.inr rfl) hjoinable
  | ok target =>
      cases hfinished : finished? target with
      | some code =>
          simp only [Scheduler.perform, tryJoin, hcurrent, hjoinable, hfinished] at he
          cases he
      | none =>
          simp only [Scheduler.perform, tryJoin, hcurrent, hjoinable, hfinished] at he
          cases he

theorem Shaped.objection_collect (hs : s.Shaped o) (hcurrent : s.current = some cur)
    (he : (s.perform supply (.collect h)).result = .error e) : s.Objection supply (.collect h) e :=
      by
  rcases hs.1.running_of_current hs.2 hcurrent with ⟨b, -, hrunning⟩
  cases hlookup : s.table.lookup h with
  | none =>
      simp only [Scheduler.perform, collect, hrunning, hlookup] at he
      injection he with he
      rw [← he]
      exact .stale hcurrent (Or.inl rfl) hlookup
  | some target =>
      cases hjoiner : decide (target.joiner = some ⟨cur, b.id⟩) with
      | false =>
          have hother := of_decide_eq_false hjoiner
          simp only [Scheduler.perform, collect, hrunning, hlookup, hother, if_false] at he
          injection he with he
          rw [← he]
          exact .foreign hrunning hlookup hother
      | true =>
          have hcaller := of_decide_eq_true hjoiner
          cases hcode : target.exitCode with
          | none =>
              simp only [Scheduler.perform, collect, hrunning, hlookup, hcaller, hcode, if_true]
                at he
              injection he with he
              rw [← he]
              exact .early hrunning hlookup hcaller hcode
          | some code =>
              simp only [Scheduler.perform, collect, hrunning, hlookup, hcaller, hcode, if_true]
                at he
              cases he

theorem objection_detach (hcurrent : s.current = some cur)
    (he : (s.perform supply (.detach h)).result = .error e) : s.Objection supply (.detach h) e := by
  cases hlookup : s.table.lookup h with
  | none =>
      simp only [Scheduler.perform, detach, hcurrent, hlookup] at he
      injection he with he
      rw [← he]
      exact .stale hcurrent (Or.inr rfl) hlookup
  | some target =>
      cases hjoiner : target.joiner with
      | some j =>
          simp only [Scheduler.perform, detach, hcurrent, hlookup, hjoiner, Option.isSome_some,
            if_true] at he
          injection he with he
          rw [← he]
          exact .taken hcurrent hlookup hjoiner
      | none =>
          simp only [Scheduler.perform, detach, hcurrent, hlookup, hjoiner, Option.isSome_none]
            at he
          cases he

theorem Shaped.objection_of_error (hs : s.Shaped o)
    (he : (s.perform supply request).result = .error e) : s.Objection supply request e := by
  cases hasks : request.asks with
  | false => exact objection_of_not_asks hasks he
  | true =>
      cases hcurrent : s.current with
      | none =>
          rw [result_of_deserted hcurrent hasks] at he
          injection he with he
          rw [← he]
          exact .deserted hcurrent hasks
      | some cur =>
          cases request with
          | spawn spec body => exact objection_spawn hcurrent he
          | yield => exact hs.objection_yield hcurrent he
          | wait line => exact hs.objection_wait hcurrent he
          | exit code => exact hs.objection_exit hcurrent he
          | join h => exact hs.objection_join hcurrent he
          | collect h => exact hs.objection_collect hcurrent he
          | tryJoin h => exact objection_tryJoin hcurrent he
          | detach h => exact objection_detach hcurrent he
          | _ => cases hasks

end Scheduler

end Coop
