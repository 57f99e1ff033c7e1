import Coop.Proofs.Scheduler.Simulation

/-!
# Reports of overflows

A caller's stack is looked at where the caller gives up the processor, and nowhere else.  So
an operation reports the overflow of its caller, or none: an operation that fails, or goes on
with the same thread, has not looked.
-/

namespace Coop

open Thread (Block Handle Id Spec Table)

def Request.mayLeave {β : Type} : Request β → Bool
  | .yield | .wait _ | .exit _ | .join _ => true
  | _ => false

def Notice.overflow? : Notice → Option Id
  | overflow id => some id
  | _ => none

theorem Notice.overflow?_eq_some_iff {n : Notice} {id : Id} :
    n.overflow? = some id ↔ n = .overflow id := by
  cases n <;> simp [overflow?]

namespace Work

variable {β : Type} (w : Work β)

def alarms : List Id :=
  w.notices.filterMap Notice.overflow?

theorem mem_alarms_iff {w : Work β} {id : Id} : id ∈ w.alarms ↔ .overflow id ∈ w.notices := by
  simp [alarms, Notice.overflow?_eq_some_iff]

theorem count_overflow (id : Id) : w.notices.count (.overflow id) = w.alarms.count id := by
  unfold alarms
  rw [List.count_filterMap, List.count]
  refine List.countP_congr ?_
  intro n _
  simp [Notice.overflow?_eq_some_iff]

/-!
# Steps that report no overflow
-/

@[simp] theorem alarms_work (s : Scheduler β) : s.work.alarms = [] := rfl

@[simp] theorem alarms_update (f : Scheduler β → Scheduler β) :
    (w.update f).alarms = w.alarms := rfl

@[simp] theorem alarms_count (f : Counters → Counters) : (w.count f).alarms = w.alarms := rfl

@[simp] theorem alarms_modify (slot : Nat) (f : Block β → Block β) :
    (w.modify slot f).alarms = w.alarms := rfl

@[simp] theorem alarms_notice (n : Notice) :
    (w.notice n).alarms = w.alarms ++ n.overflow?.toList := by
  unfold alarms notice
  rw [List.filterMap_append]
  cases n <;> rfl

@[simp] theorem alarms_reserve (supply : Supply) : (w.reserve supply).2.alarms = w.alarms := rfl

@[simp] theorem alarms_freshId : w.freshId.2.alarms = w.alarms := rfl

@[simp] theorem alarms_insert (b : Block β) : (w.insert b).2.alarms = w.alarms := rfl

@[simp] theorem alarms_remove (slot : Nat) : (w.remove slot).2.alarms = w.alarms := rfl

@[simp] theorem alarms_makeReady (slot : Nat) : (w.makeReady slot).alarms = w.alarms := rfl

@[simp] theorem alarms_takeReady : w.takeReady.2.alarms = w.alarms := rfl

@[simp] theorem alarms_unready (slot : Nat) : (w.unready slot).2.alarms = w.alarms := rfl

@[simp] theorem alarms_park (slot : Nat) (line : Line) : (w.park slot line).alarms = w.alarms := rfl

@[simp] theorem alarms_takeWaiter (line : Line) : (w.takeWaiter line).2.alarms = w.alarms := rfl

@[simp] theorem alarms_allocate (supply : Supply) (bytes : Nat) :
    (w.allocate supply bytes).2.alarms = w.alarms := rfl

@[simp] theorem alarms_releaseAny (supply : Supply) (stack : Option Stack) :
    (w.releaseAny supply stack).alarms = w.alarms := by
  cases stack <;> rfl

@[simp] theorem alarms_retire (supply : Supply) (stack : Stack) :
    (w.retire supply stack).alarms = w.alarms :=
  alarms_releaseAny _ supply _

@[simp] theorem alarms_reclaim (supply : Supply) (slot : Nat) :
    (w.reclaim supply slot).alarms = w.alarms := by
  have hremoved := w.alarms_remove slot
  unfold reclaim
  generalize w.remove slot = removed at hremoved ⊢
  rcases removed with ⟨_ | b, w'⟩
  · exact hremoved
  · simpa [Notice.overflow?] using hremoved

@[simp] theorem alarms_bury (supply : Supply) (slot : Nat) :
    (w.bury supply slot).alarms = w.alarms := by
  have hremoved := w.alarms_remove slot
  unfold bury
  generalize w.remove slot = removed at hremoved ⊢
  rcases removed with ⟨_ | b, w'⟩
  · exact hremoved
  · cases hstack : b.stack <;> simpa [hstack] using hremoved

@[simp] theorem alarms_wakeJoiner (id : Id) (joiner : Option Handle) :
    (w.wakeJoiner id joiner).alarms = w.alarms := by
  unfold wakeJoiner
  cases joiner with
  | none => rfl
  | some h =>
      simp only
      split
      · simp [Notice.overflow?]
      · rfl

@[simp] theorem alarms_dispatch (source : Handle) : (w.dispatch source).alarms = w.alarms := by
  have htaken := w.alarms_takeReady
  unfold dispatch
  generalize w.takeReady = taken at htaken ⊢
  rcases taken with ⟨_ | slot, w'⟩
  · exact htaken
  · simp only
    split
    · exact htaken
    · refine Eq.trans (alarms_notice _ _) ?_
      simpa [Notice.overflow?] using htaken

@[simp] theorem alarms_drain (line : Line) (fuel : Nat) :
    (w.drain line fuel).2.alarms = w.alarms := by
  induction fuel generalizing w with
  | zero => rfl
  | succ fuel ih =>
      have htaken := w.alarms_takeWaiter line
      rw [drain]
      generalize w.takeWaiter line = taken at htaken ⊢
      rcases taken with ⟨_ | slot, w'⟩
      · exact htaken
      · exact (ih _).trans htaken

theorem alarms_fire (line : Line) : (Scheduler.fire w line).2.alarms = w.alarms := by
  have hwoken : (w.wake line).2.alarms = w.alarms := w.alarms_drain line _
  unfold Scheduler.fire
  simp only
  split
  · simpa [Notice.overflow?] using hwoken
  · exact hwoken

theorem alarms_fireAll (lines : List Line) : (Scheduler.fireAll lines w).2.alarms = w.alarms := by
  induction lines generalizing w with
  | nil => rfl
  | cons line lines ih => exact (ih _).trans (w.alarms_fire line)

end Work

namespace Scheduler

variable {β : Type} {s : Scheduler β} {o : Outline β} {supply : Supply} {request : Request β}
  {caller : Handle} {w : Work β}

/-- The thread in a slot, if its canary should be there and is not. -/
def overrun? (s : Scheduler β) (slot : Nat) : Option Id :=
  ((s.table.get? slot).filter fun b => s.config.stackCanary && !b.isIntact).map Block.id

theorem alarms_checkStack (w : Work β) (slot : Nat) :
    (w.checkStack slot).alarms = w.alarms ++ (w.scheduler.overrun? slot).toList := by
  unfold Work.checkStack overrun?
  cases w.scheduler.table.get? slot with
  | none => exact (List.append_nil _).symm
  | some b =>
      cases hoverrun : w.scheduler.config.stackCanary && !b.isIntact with
      | true => simp [Option.filter, hoverrun, Notice.overflow?]
      | false => simp [Option.filter, hoverrun]

/-!
# Operations that report no overflow
-/

theorem alarms_bootstrap (s : Scheduler β) (supply : Supply) :
    (s.perform supply .bootstrap).alarms = [] := by
  have hreserved := s.work.alarms_reserve supply
  unfold Scheduler.perform Scheduler.bootstrap
  cases s.current with
  | some cur => rfl
  | none =>
      simp only
      generalize s.work.reserve supply = reserved at hreserved ⊢
      rcases reserved with ⟨cause | done, w⟩
      · exact hreserved
      · refine Eq.trans (Work.alarms_notice _ _) ?_
        simpa [Notice.overflow?] using hreserved

theorem alarms_spawn (s : Scheduler β) (supply : Supply) (spec : Spec) (body : β) :
    (s.perform supply (.spawn spec body)).alarms = [] := by
  have hreserved := s.work.alarms_reserve supply
  unfold Scheduler.perform Scheduler.spawn
  cases s.current with
  | none => rfl
  | some cur =>
      simp only
      generalize s.work.reserve supply = reserved at hreserved ⊢
      rcases reserved with ⟨cause | done, w⟩
      · exact hreserved
      · simp only
        have hallocated := w.alarms_allocate supply (s.config.stackSize spec.stackSize)
        generalize w.allocate supply (s.config.stackSize spec.stackSize) = allocated
          at hallocated ⊢
        rcases allocated with ⟨cause | stack, w'⟩
        · refine Eq.trans (Work.alarms_notice _ _) ?_
          simpa [Notice.overflow?] using hallocated.trans hreserved
        · refine Eq.trans (Work.alarms_notice _ _) ?_
          simpa [Notice.overflow?] using hallocated.trans hreserved

theorem alarms_tryJoin (s : Scheduler β) (supply : Supply) (target : Handle) :
    (s.perform supply (.tryJoin target)).alarms = [] := by
  unfold Scheduler.perform Scheduler.tryJoin
  cases s.current with
  | none => rfl
  | some cur =>
      simp only
      cases s.joinable cur target with
      | error e => rfl
      | ok c =>
          simp only
          cases finished? c with
          | none => rfl
          | some code => exact s.work.alarms_reclaim supply target.slot

theorem alarms_collect (s : Scheduler β) (supply : Supply) (target : Handle) :
    (s.perform supply (.collect target)).alarms = [] := by
  unfold Scheduler.perform Scheduler.collect
  cases s.running with
  | error e => rfl
  | ok caller =>
      simp only
      cases s.table.lookup target with
      | none => rfl
      | some c =>
          simp only
          split
          · cases c.exitCode with
            | none => rfl
            | some code => exact s.work.alarms_reclaim supply target.slot
          · rfl

theorem alarms_detach (s : Scheduler β) (supply : Supply) (target : Handle) :
    (s.perform supply (.detach target)).alarms = [] := by
  unfold Scheduler.perform Scheduler.detach
  cases s.current with
  | none => rfl
  | some cur =>
      simp only
      cases s.table.lookup target with
      | none => rfl
      | some c =>
          simp only
          split
          · rfl
          · split
            · exact (s.work.modify target.slot Block.detach).alarms_reclaim supply target.slot
            · rfl

theorem alarms_completeSwitch (s : Scheduler β) (supply : Supply) :
    (s.perform supply .completeSwitch).alarms = [] := by
  unfold Scheduler.perform Scheduler.completeSwitch
  cases s.graveyard with
  | none => rfl
  | some stack => exact Work.alarms_notice _ _

theorem alarms_of_not_mayLeave (hleave : request.mayLeave = false) :
    (s.perform supply request).alarms = [] := by
  cases request with
  | bootstrap => exact s.alarms_bootstrap supply
  | spawn spec body => exact s.alarms_spawn supply spec body
  | takeBody => rfl
  | collect target => exact s.alarms_collect supply target
  | tryJoin target => exact s.alarms_tryJoin supply target
  | detach target => exact s.alarms_detach supply target
  | interrupt line => exact s.work.alarms_fire line
  | interrupts mask => exact s.work.alarms_fireAll mask.lines
  | completeSwitch => exact s.alarms_completeSwitch supply
  | yield | wait _ | exit _ | join _ => cases hleave

/-!
# Operations that look at the stack
-/

structure Suspends (s : Scheduler β) (supply : Supply) (request : Request β) (caller : Handle) :
    Prop where
  running : s.running = .ok caller
  leaves : request.mayLeave = true
  transfers : ∃ t, (s.perform supply request).result = .ok (.transfer t)

theorem Departs.alarms (hdeparts : s.Departs supply caller request w) :
    w.alarms = (s.overrun? caller.slot).toList := by
  have hchecked : (s.work.checkStack caller.slot).alarms = (s.overrun? caller.slot).toList :=
    alarms_checkStack s.work caller.slot
  cases hdeparts with
  | yields _ => exact hchecked
  | waits _ => simpa [Notice.overflow?] using hchecked
  | @exits code b _ _ =>
      unfold ended
      simp only
      split <;> simpa [Notice.overflow?] using hchecked
  | joins _ _ _ => simpa [joined, Notice.overflow?] using hchecked

theorem Departs.mayLeave (hdeparts : s.Departs supply caller request w) :
    request.mayLeave = true := by
  cases hdeparts <;> rfl

theorem Shaped.suspends_of_departs (hs : s.Shaped o) (hrunning : s.running = .ok caller)
    (hdeparts : s.Departs supply caller request w) :
    s.Suspends supply request caller ∧
      (s.perform supply request).alarms = (s.overrun? caller.slot).toList := by
  rcases hs.1.dispatch_of_departs hs.2 hrunning hdeparts with ⟨-, t, htransfer, -, -⟩
  have hperform := hdeparts.perform_eq hrunning
  refine ⟨⟨hrunning, hdeparts.mayLeave, t, ?_⟩, ?_⟩
  · rw [hperform]
    show (w.dispatch caller).result.map Answer.transfer = _
    rw [htransfer]
    rfl
  · rw [hperform]
    exact (w.alarms_dispatch caller).trans hdeparts.alarms

/-- The caller stays, and is not looked at. -/
structure Stays (s : Scheduler β) (supply : Supply) (request : Request β) : Prop where
  alarms : (s.perform supply request).alarms = []
  result : ∀ t, (s.perform supply request).result ≠ .ok (.transfer t)

theorem stays_of_fail {e : Error} (hperform : s.perform supply request = w.fail e)
    (halarms : w.alarms = []) : s.Stays supply request := by
  constructor
  · rw [hperform]
    exact halarms
  · intro t
    rw [hperform]
    exact nofun

theorem stays_of_succeed {answer : Answer β}
    (hperform : s.perform supply request = w.succeed answer)
    (halarms : w.alarms = []) (hanswer : answer.transfer? = none) : s.Stays supply request := by
  constructor
  · rw [hperform]
    exact halarms
  · intro t
    rw [hperform]
    intro hresult
    injection hresult with hresult
    rw [hresult] at hanswer
    cases hanswer

theorem departs_yield (hrunning : s.running = .ok caller) :
    s.Stays supply .yield ∨ ∃ w, s.Departs supply caller .yield w := by
  rcases running_eq_ok_iff.mp hrunning with ⟨hcurrent, -⟩
  cases hempty : s.ready.isEmpty with
  | false => exact Or.inr ⟨_, .yields hempty⟩
  | true =>
      have hperform : s.perform supply .yield = s.work.succeed .done := by
        simp only [Scheduler.perform, Scheduler.yield, hcurrent, hempty, if_true]
        rfl
      exact Or.inl (stays_of_succeed hperform rfl rfl)

theorem departs_wait (hrunning : s.running = .ok caller) (line : Line) :
    s.Stays supply (.wait line) ∨ ∃ w, s.Departs supply caller (.wait line) w := by
  rcases running_eq_ok_iff.mp hrunning with ⟨hcurrent, -⟩
  cases hempty : s.ready.isEmpty with
  | false => exact Or.inr ⟨_, .waits hempty⟩
  | true =>
      have hperform : s.perform supply (.wait line) =
          (s.work.notice (.waitRefused line)).fail .noRunnableThread := by
        simp only [Scheduler.perform, Scheduler.wait, hcurrent, hempty, if_true]
        rfl
      exact Or.inl (stays_of_fail hperform rfl)

theorem departs_exit (hrunning : s.running = .ok caller) (code : Int32) :
    s.Stays supply (.exit code) ∨ ∃ w, s.Departs supply caller (.exit code) w := by
  rcases running_eq_ok_iff.mp hrunning with ⟨hcurrent, b, hlookup⟩
  have hget := (Table.lookup_eq_some_iff.mp hlookup).1
  cases hrefused : s.ready.isEmpty && b.joiner.isNone with
  | false => exact Or.inr ⟨_, .exits hget hrefused⟩
  | true =>
      have hperform : s.perform supply (.exit code) =
          (s.work.notice .exitRefused).fail .noRunnableThread := by
        simp only [Scheduler.perform, Scheduler.exit, hcurrent, hget, hrefused, if_true]
        rfl
      exact Or.inl (stays_of_fail hperform rfl)

theorem departs_join (hrunning : s.running = .ok caller) (target : Handle) :
    s.Stays supply (.join target) ∨ ∃ w, s.Departs supply caller (.join target) w := by
  rcases running_eq_ok_iff.mp hrunning with ⟨hcurrent, -⟩
  cases hjoinable : s.joinable caller.slot target with
  | error e =>
      have hperform : s.perform supply (.join target) = s.work.fail e := by
        simp only [Scheduler.perform, Scheduler.join, hcurrent, hjoinable]
        rfl
      exact Or.inl (stays_of_fail hperform rfl)
  | ok c =>
      cases hfinished : finished? c with
      | some code =>
          have hperform : s.perform supply (.join target) =
              (s.work.reclaim supply target.slot).succeed (.code code) := by
            simp only [Scheduler.perform, Scheduler.join, hcurrent, hjoinable, hfinished]
            rfl
          exact Or.inl (stays_of_succeed hperform (s.work.alarms_reclaim supply target.slot) rfl)
      | none =>
          cases hempty : s.ready.isEmpty with
          | false => exact Or.inr ⟨_, .joins hjoinable hfinished hempty⟩
          | true =>
              have hperform : s.perform supply (.join target) =
                  (s.work.notice .joinRefused).fail .noRunnableThread := by
                simp only [Scheduler.perform, Scheduler.join, hcurrent, hjoinable, hfinished,
                  hempty, if_true]
                rfl
              exact Or.inl (stays_of_fail hperform rfl)

theorem alarms_of_deserted (hcurrent : s.current = none) (hleave : request.mayLeave = true) :
    (s.perform supply request).alarms = [] := by
  cases request with
  | yield =>
      simp only [Scheduler.perform, Scheduler.yield, hcurrent]
      rfl
  | wait line =>
      simp only [Scheduler.perform, Scheduler.wait, hcurrent]
      rfl
  | exit code =>
      simp only [Scheduler.perform, Scheduler.exit, hcurrent]
      rfl
  | join target =>
      simp only [Scheduler.perform, Scheduler.join, hcurrent]
      rfl
  | _ => cases hleave

theorem departs_of_mayLeave (hrunning : s.running = .ok caller) (hleave : request.mayLeave = true) :
    s.Stays supply request ∨ ∃ w, s.Departs supply caller request w := by
  cases request with
  | yield => exact departs_yield hrunning
  | wait line => exact departs_wait hrunning line
  | exit code => exact departs_exit hrunning code
  | join target => exact departs_join hrunning target
  | _ => cases hleave

/-!
# Who is reported
-/

theorem Shaped.alarms_of_suspends (hs : s.Shaped o) (hsuspends : s.Suspends supply request caller) :
    (s.perform supply request).alarms = (s.overrun? caller.slot).toList := by
  rcases hsuspends.transfers with ⟨t, htransfer⟩
  rcases departs_of_mayLeave hsuspends.running hsuspends.leaves with hstays | ⟨w, hdeparts⟩
  · exact absurd htransfer (hstays.result t)
  · exact (hs.suspends_of_departs hsuspends.running hdeparts).2

theorem Shaped.alarms_of_not_suspends (hs : s.Shaped o)
    (hstays : ∀ caller, ¬ s.Suspends supply request caller) :
    (s.perform supply request).alarms = [] := by
  cases hleave : request.mayLeave with
  | false => exact alarms_of_not_mayLeave hleave
  | true =>
      cases hcurrent : s.current with
      | none => exact alarms_of_deserted hcurrent hleave
      | some cur =>
          rcases hs.1.running_of_current hs.2 hcurrent with ⟨b, -, hrunning⟩
          rcases departs_of_mayLeave hrunning hleave with hquiet | ⟨w, hdeparts⟩
          · exact hquiet.alarms
          · exact absurd (hs.suspends_of_departs hrunning hdeparts).1 (hstays _)

end Scheduler
end Coop
