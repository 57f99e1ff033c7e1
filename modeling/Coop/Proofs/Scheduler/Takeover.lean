import Coop.Proofs.Scheduler.Handles
import Coop.Proofs.Scheduler.JoinGraph
import Coop.Proofs.Scheduler.Objections
import Coop.Proofs.Scheduler.Partings
import Coop.Proofs.System.Reaping

/-!
# Who can take over

A thread can give up the processor exactly when somebody can take over: some
thread is ready, or the caller exits and its joiner becomes ready.  The scheduler
looks at the head of its ready queue and at the joiner that a block records; here
it is said by the states of threads what every request that may suspend its caller
comes to.
-/

namespace Coop

open Thread (Block Handle Id Table)

/-- The code that a join came to at once, if it did not block. -/
def Joined.code? : Joined → Option Int32
  | exited code => some code
  | blocked _ => none

namespace Scheduler

variable {β : Type}

/-!
# What is looked at
-/

def HasReady (s : Scheduler β) : Prop :=
  ∃ h, s.state h = .ok .ready

def HasWaiter (s : Scheduler β) (h : Handle) : Prop :=
  ∃ j, s.BlockedOnJoin j ∧ s.Awaits j h

def HasJoiner (s : Scheduler β) (h : Handle) : Prop :=
  ∃ b j, s.table.lookup h = some b ∧ b.joiner = some j

structure MayJoin (s : Scheduler β) (caller h : Handle) : Prop where
  other : h ≠ caller
  attached : s.isDetached h = .ok false
  unjoined : ¬ s.HasJoiner h

/--
What a join comes to: an error, the code of a target that exited, or no code yet
where the caller is suspended.
-/
inductive Prospect (s : Scheduler β) (caller h : Handle) : Except Error (Option Int32) → Prop where
  | gone : ¬ s.Resolves h → Prospect s caller h (.error (.misuse .invalidHandle))
  | itself : h = caller → Prospect s caller h (.error (.misuse .joinSelf))
  | detached : h ≠ caller → s.isDetached h = .ok true →
      Prospect s caller h (.error (.misuse .detached))
  | taken : h ≠ caller → s.isDetached h = .ok false → s.HasJoiner h →
      Prospect s caller h (.error (.misuse .alreadyJoined))
  | ended {code : Int32} : s.MayJoin caller h → s.state h = .ok .exited → s.exitCode h = .ok code →
      Prospect s caller h (.ok (some code))
  | stuck : s.MayJoin caller h → s.state h ≠ .ok .exited → ¬ s.HasReady →
      Prospect s caller h (.error .noRunnableThread)
  | suspended : s.MayJoin caller h → s.state h ≠ .ok .exited → s.HasReady →
      Prospect s caller h (.ok none)

/-- How polling a target goes, by how joining it would go. -/
structure Polls (s : Scheduler β) (join : Outcome β Joined) (poll : Outcome β (Option Int32)) :
    Prop where
  refused : ∀ e, poll.result = .error e ↔ ∃ cause, e = .misuse cause ∧ join.result = .error e
  code : ∀ code, poll.result = .ok (some code) ↔ join.result = .ok (.exited code)
  same : ∀ code, join.result = .ok (.exited code) → poll.scheduler = join.scheduler
  waits : poll.result = .ok none ↔
    (∃ t, join.result = .ok (.blocked t)) ∨ join.result = .error .noRunnableThread
  unchanged : poll.result = .ok none → poll.scheduler = s

/-- Requests that may suspend the caller succeed exactly when somebody can take over. -/
structure HandsOver (s : Scheduler β) (caller : Handle) : Prop where
  stays : s.yield.result = .ok none ↔ ¬ s.HasReady
  yields : (∃ t, s.yield.result = .ok (some t)) ↔ s.HasReady
  waits : ∀ line, (∃ t, (s.wait line).result = .ok t) ↔ s.HasReady
  waitRefused : ∀ line e, (s.wait line).result = .error e ↔ e = .noRunnableThread ∧ ¬ s.HasReady
  exits : ∀ supply code,
    (∃ t, (s.exit supply code).result = .ok t) ↔ s.HasReady ∨ s.HasWaiter caller
  exitRefused : ∀ supply code e, (s.exit supply code).result = .error e ↔
    e = .noRunnableThread ∧ ¬ s.HasReady ∧ ¬ s.HasWaiter caller
  joins : ∀ supply h verdict, (s.join supply h).result.map Joined.code? = verdict ↔
    s.Prospect caller h verdict
  polls : ∀ supply h, s.Polls (s.join supply h) (s.tryJoin supply h)

variable {s : Scheduler β} {o : Outline β} {caller h : Handle}

/-!
# What the queue and the joiner say about states
-/

theorem not_hasReady_iff (hs : s.Shaped o) : ¬ s.HasReady ↔ s.ready.isEmpty = true := by
  rw [hs.1.isEmpty_eq, List.isEmpty_iff]
  constructor
  · intro hnone
    apply List.eq_nil_iff_forall_not_mem.mpr
    intro slot hslot
    rcases (hs.mem_ready_iff slot).mp hslot with ⟨b, hget, hstate⟩
    exact hnone ⟨⟨slot, b.id⟩, state_eq_ok_iff.mpr ⟨b, Table.lookup_of_get? hget, hstate⟩⟩
  · intro hempty hready
    rcases hs.exists_ready hready with ⟨slot, rest, hqueue⟩
    rw [hempty] at hqueue
    cases hqueue

theorem hasReady_iff (hs : s.Shaped o) : s.HasReady ↔ s.ready.isEmpty = false := by
  rw [← Bool.not_eq_true, ← not_hasReady_iff hs, not_not]

theorem hasWaiter_iff (hs : s.Shaped o) {b : Block β} (hlookup : s.table.lookup h = some b)
    (hlive : b.state ≠ .exited) : s.HasWaiter h ↔ b.joiner.isSome = true := by
  constructor
  · rintro ⟨j, -, b', hlookup', -, hjoiner⟩
    rw [hlookup] at hlookup'
    injection hlookup' with hb
    rw [hb, hjoiner]
    rfl
  · intro hjoiner
    rcases Option.isSome_iff_exists.mp hjoiner with ⟨j, hj⟩
    have hawaits : s.Awaits j h := ⟨b, hlookup, hlive, hj⟩
    exact ⟨j, hs.blockedOnJoin_of_awaits hawaits, hawaits⟩

/-!
# Giving up the processor
-/

/-- An answer that there is on a condition, and one error otherwise. -/
theorem succeeds_iff {α : Type} {result : Except Error α} {p : Prop} {e : Error}
    (hok : p → ∃ a, result = .ok a) (herror : ¬ p → result = .error e) :
    ((∃ a, result = .ok a) ↔ p) ∧ ∀ e', result = .error e' ↔ e' = e ∧ ¬ p := by
  by_cases hp : p
  · rcases hok hp with ⟨a, ha⟩
    simp [ha, hp]
  · simp [herror hp, hp, eq_comm]

theorem yield_of_not_hasReady (hs : s.Shaped o) (hrunning : s.running = .ok caller)
    (hnone : ¬ s.HasReady) : s.yield.result = .ok none := by
  have hempty := (not_hasReady_iff hs).mp hnone
  simp [yield, (running_eq_ok_iff.mp hrunning).1, hempty, Work.succeed]

theorem yield_of_hasReady (hs : s.Shaped o) (hrunning : s.running = .ok caller)
    (hready : s.HasReady) : ∃ t, s.yield.result = .ok (some t) := by
  have hdeparts : s.Departs .ample caller .yield _ := .yields ((hasReady_iff hs).mp hready)
  rcases transfer_of_departs hs hrunning hdeparts with ⟨t, ht⟩
  rcases Outcome.map_eq_ok ht with ⟨answer, hanswer, hsome⟩
  cases answer with
  | none => cases hsome
  | some t' => exact ⟨t', hanswer⟩

theorem wait_succeeds_iff (hs : s.Shaped o) (hrunning : s.running = .ok caller) (line : Line) :
    ((∃ t, (s.wait line).result = .ok t) ↔ s.HasReady) ∧
      ∀ e, (s.wait line).result = .error e ↔ e = .noRunnableThread ∧ ¬ s.HasReady := by
  apply succeeds_iff
  · intro hready
    have hdeparts : s.Departs .ample caller (.wait line) _ := .waits ((hasReady_iff hs).mp hready)
    rcases transfer_of_departs hs hrunning hdeparts with ⟨t, ht⟩
    rcases Outcome.map_eq_ok ht with ⟨t', ht', -⟩
    exact ⟨t', ht'⟩
  · intro hnone
    have hempty := (not_hasReady_iff hs).mp hnone
    simp [wait, (running_eq_ok_iff.mp hrunning).1, hempty, Work.fail]

/-- With an empty queue a caller can still exit, and hand over to its own joiner. -/
theorem exit_succeeds_iff (hs : s.Shaped o) (hrunning : s.running = .ok caller) (supply : Supply)
    (code : Int32) :
    ((∃ t, (s.exit supply code).result = .ok t) ↔ s.HasReady ∨ s.HasWaiter caller) ∧
      ∀ e, (s.exit supply code).result = .error e ↔
        e = .noRunnableThread ∧ ¬ (s.HasReady ∨ s.HasWaiter caller) := by
  rcases running_eq_ok_iff.mp hrunning with ⟨hcurrent, b, hlookup⟩
  rcases Table.lookup_eq_some_iff.mp hlookup with ⟨hget, -⟩
  have hstate : b.state = .running := (hs.placed.running_iff (hs.get?_bare hget)).mp hcurrent
  have hwaiter := hasWaiter_iff hs hlookup (by simp [hstate])
  have hrefused : s.HasReady ∨ s.HasWaiter caller ↔
      (s.ready.isEmpty && b.joiner.isNone) = false := by
    rw [hasReady_iff hs, hwaiter]
    cases s.ready.isEmpty <;> cases b.joiner <;> simp
  rw [hrefused]
  apply succeeds_iff
  · intro hfree
    have hdeparts : s.Departs supply caller (.exit code) _ := .exits hget hfree
    rcases transfer_of_departs hs hrunning hdeparts with ⟨t, ht⟩
    rcases Outcome.map_eq_ok ht with ⟨t', ht', -⟩
    exact ⟨t', ht'⟩
  · intro hstuck
    have hempty := eq_true_of_ne_false hstuck
    simp [exit, hcurrent, hget, hempty, Work.fail]

/-!
# Joining
-/

section Join

variable {cur : Nat} {target : Block β}

theorem join_of_error (supply : Supply) {e : Error} (hcurrent : s.current = some cur)
    (hjoinable : s.joinable cur h = .error e) :
    (s.join supply h).result = .error e ∧ (s.tryJoin supply h).result = .error e := by
  simp [join, tryJoin, hcurrent, hjoinable, Work.fail]

/-- What is in the way of a join is found in this order. -/
theorem joinable_eq (hlookup : s.table.lookup h = some target) :
    s.joinable cur h =
      if h.slot = cur then .error (.misuse .joinSelf)
      else if target.isDetached then .error (.misuse .detached)
      else if target.joiner.isSome then .error (.misuse .alreadyJoined)
      else .ok target := by
  unfold joinable
  rw [hlookup]

theorem hasJoiner_iff (hlookup : s.table.lookup h = some target) :
    s.HasJoiner h ↔ target.joiner.isSome = true := by
  rw [HasJoiner, hlookup, Option.isSome_iff_exists]
  constructor
  · rintro ⟨b, j, hb, hj⟩
    injection hb with hb
    exact ⟨j, hb ▸ hj⟩
  · rintro ⟨j, hj⟩
    exact ⟨target, j, rfl, hj⟩

theorem joinable_of_mayJoin (hrunning : s.running = .ok caller) (hmay : s.MayJoin caller h) :
    ∃ target, s.table.lookup h = some target ∧ s.joinable caller.slot h = .ok target := by
  rcases isDetached_eq_ok_iff.mp hmay.attached with ⟨target, hlookup, hattached⟩
  have hslot : h.slot ≠ caller.slot := fun hslot =>
    hmay.other ((slot_eq_iff_of_running hrunning hlookup).mp hslot).symm
  have hjoiner := hmay.unjoined
  rw [hasJoiner_iff hlookup] at hjoiner
  exact ⟨target, hlookup, by simp [joinable_eq hlookup, hslot, hattached, hjoiner]⟩

theorem join_of_exited (supply : Supply) {code : Int32} (hcurrent : s.current = some cur)
    (hjoinable : s.joinable cur h = .ok target) (hfinished : finished? target = some code) :
    (s.join supply h).result = .ok (.exited code) ∧
      (s.tryJoin supply h).result = .ok (some code) ∧
      (s.tryJoin supply h).scheduler = (s.join supply h).scheduler := by
  simp [join, tryJoin, hcurrent, hjoinable, hfinished, Work.succeed]

theorem tryJoin_of_live (supply : Supply) (hcurrent : s.current = some cur)
    (hjoinable : s.joinable cur h = .ok target) (hfinished : finished? target = none) :
    (s.tryJoin supply h).result = .ok none ∧ (s.tryJoin supply h).scheduler = s := by
  simp [tryJoin, hcurrent, hjoinable, hfinished, Work.succeed, work]

theorem join_of_stuck (supply : Supply) (hcurrent : s.current = some cur)
    (hjoinable : s.joinable cur h = .ok target) (hfinished : finished? target = none)
    (hempty : s.ready.isEmpty = true) : (s.join supply h).result = .error .noRunnableThread := by
  simp [join, hcurrent, hjoinable, hfinished, hempty, Work.fail]

theorem join_of_departs (supply : Supply) (hs : s.Shaped o) (hrunning : s.running = .ok caller)
    (hjoinable : s.joinable caller.slot h = .ok target) (hfinished : finished? target = none)
    (hready : s.ready.isEmpty = false) :
    ∃ t, (s.join supply h).result = .ok (.blocked t) := by
  have hdeparts : s.Departs supply caller (.join h) _ := .joins hjoinable hfinished hready
  rcases transfer_of_departs hs hrunning hdeparts with ⟨t, ht⟩
  rcases Outcome.map_eq_ok ht with ⟨answer, hanswer, hblocked⟩
  cases answer with
  | exited code => cases hblocked
  | blocked t' => exact ⟨t', hanswer⟩

/-!
# Polling
-/

theorem polls_of_refused {cause : Misuse} {join : Outcome β Joined}
    {poll : Outcome β (Option Int32)} (hjoin : join.result = .error (.misuse cause))
    (hpoll : poll.result = .error (.misuse cause)) : s.Polls join poll := by
  constructor
  · intro e
    rw [hjoin, hpoll]
    constructor
    · rintro ⟨⟩
      exact ⟨cause, rfl, rfl⟩
    · rintro ⟨-, -, he⟩
      injection he with he
      rw [he]
  all_goals simp [hjoin, hpoll]

theorem polls_of_exited {code : Int32} {join : Outcome β Joined} {poll : Outcome β (Option Int32)}
    (hjoin : join.result = .ok (.exited code)) (hpoll : poll.result = .ok (some code))
    (hsame : poll.scheduler = join.scheduler) : s.Polls join poll := by
  constructor <;> simp [hjoin, hpoll, hsame]

theorem polls_of_live {join : Outcome β Joined} {poll : Outcome β (Option Int32)}
    (hpoll : poll.result = .ok none) (hsame : poll.scheduler = s)
    (hjoin : (∃ t, join.result = .ok (.blocked t)) ∨ join.result = .error .noRunnableThread) :
    s.Polls join poll := by
  rcases hjoin with ⟨t, hjoin⟩ | hjoin
  · constructor <;> simp [hjoin, hpoll, hsame]
  · constructor <;> simp [hjoin, hpoll, hsame]

/-!
# Every prospect comes true
-/

theorem finished?_of_state (hlookup : s.table.lookup h = some target)
    (hstate : s.state h ≠ .ok .exited) : finished? target = none := by
  unfold finished?
  rw [if_neg]
  exact fun hexited => hstate (state_eq_ok_iff.mpr ⟨target, hlookup, hexited⟩)

theorem Prospect.comes {verdict : Except Error (Option Int32)} (hs : s.Shaped o)
    (hrunning : s.running = .ok caller) (hp : s.Prospect caller h verdict) (supply : Supply) :
    (s.join supply h).result.map Joined.code? = verdict ∧
      s.Polls (s.join supply h) (s.tryJoin supply h) := by
  rcases running_eq_ok_iff.mp hrunning with ⟨hcurrent, b, hcaller⟩
  have hrefused : ∀ {cause : Misuse}, s.joinable caller.slot h = .error (.misuse cause) →
      (s.join supply h).result.map Joined.code? = .error (.misuse cause) ∧
        s.Polls (s.join supply h) (s.tryJoin supply h) := by
    intro cause hjoinable
    have herror := join_of_error supply hcurrent hjoinable
    exact ⟨by rw [herror.1]; rfl, polls_of_refused herror.1 herror.2⟩
  have hslot : ∀ {target}, s.table.lookup h = some target → h ≠ caller → h.slot ≠ caller.slot :=
    fun hlookup hother hslot => hother ((slot_eq_iff_of_running hrunning hlookup).mp hslot).symm
  cases hp with
  | gone hgone =>
      apply hrefused
      unfold joinable
      rw [not_resolves_iff.mp hgone]
  | itself hself =>
      subst hself
      apply hrefused
      rw [joinable_eq hcaller, if_pos rfl]
  | detached hother hdetached =>
      rcases isDetached_eq_ok_iff.mp hdetached with ⟨target, hlookup, hb⟩
      apply hrefused
      rw [joinable_eq hlookup, if_neg (hslot hlookup hother), if_pos hb]
  | taken hother hattached hjoiner =>
      rcases isDetached_eq_ok_iff.mp hattached with ⟨target, hlookup, hb⟩
      apply hrefused
      rw [joinable_eq hlookup, if_neg (hslot hlookup hother), if_neg (by simp [hb]),
        if_pos ((hasJoiner_iff hlookup).mp hjoiner)]
  | @ended code hmay hexited hcode =>
      rcases joinable_of_mayJoin hrunning hmay with ⟨target, hlookup, hjoinable⟩
      have hfinished : finished? target = some code := by
        rcases state_eq_ok_iff.mp hexited with ⟨b', hb', hstate⟩
        rw [hlookup] at hb'
        injection hb' with hb'
        subst hb'
        unfold finished?
        rw [if_pos hstate]
        simp only [exitCode, resolve, hlookup] at hcode
        cases htarget : target.exitCode with
        | none => simp [htarget] at hcode
        | some code' => simpa [htarget] using hcode
      rcases join_of_exited supply hcurrent hjoinable hfinished with
        ⟨hjoin, hpoll, hsame⟩
      exact ⟨by rw [hjoin]; rfl, polls_of_exited hjoin hpoll hsame⟩
  | stuck hmay hlive hnone =>
      rcases joinable_of_mayJoin hrunning hmay with ⟨target, hlookup, hjoinable⟩
      have hfinished := finished?_of_state hlookup hlive
      have hstuck := join_of_stuck supply hcurrent hjoinable hfinished
        ((not_hasReady_iff hs).mp hnone)
      rcases tryJoin_of_live supply hcurrent hjoinable hfinished with ⟨hpoll, hsame⟩
      exact ⟨by rw [hstuck]; rfl, polls_of_live hpoll hsame (Or.inr hstuck)⟩
  | suspended hmay hlive hready =>
      rcases joinable_of_mayJoin hrunning hmay with ⟨target, hlookup, hjoinable⟩
      have hfinished := finished?_of_state hlookup hlive
      have hblocked := join_of_departs supply hs hrunning hjoinable hfinished
        ((hasReady_iff hs).mp hready)
      rcases tryJoin_of_live supply hcurrent hjoinable hfinished with ⟨hpoll, hsame⟩
      refine ⟨?_, polls_of_live hpoll hsame (Or.inl hblocked)⟩
      rcases hblocked with ⟨t, ht⟩
      rw [ht]
      rfl

theorem exists_prospect (hs : s.Shaped o) (caller h : Handle) :
    ∃ verdict, s.Prospect caller h verdict := by
  by_cases hresolves : s.Resolves h
  · rcases hresolves with ⟨target, hlookup⟩
    by_cases hself : h = caller
    · exact ⟨_, .itself hself⟩
    cases hdetached : target.isDetached with
    | true => exact ⟨_, .detached hself (isDetached_eq_ok_iff.mpr ⟨target, hlookup, hdetached⟩)⟩
    | false =>
        have hattached := isDetached_eq_ok_iff.mpr ⟨target, hlookup, hdetached⟩
        by_cases hjoiner : s.HasJoiner h
        · exact ⟨_, .taken hself hattached hjoiner⟩
        have hmay : s.MayJoin caller h := ⟨hself, hattached, hjoiner⟩
        by_cases hexited : s.state h = .ok .exited
        · rcases state_eq_ok_iff.mp hexited with ⟨b', hb', hstate⟩
          rcases hs.finished?_of_exited hb' hstate with ⟨code, hcode, -⟩
          have hexit : s.exitCode h = .ok code := by simp [exitCode, resolve, hb', hcode]
          exact ⟨_, .ended hmay hexited hexit⟩
        · by_cases hready : s.HasReady
          · exact ⟨_, .suspended hmay hexited hready⟩
          · exact ⟨_, .stuck hmay hexited hready⟩
  · exact ⟨_, .gone hresolves⟩

theorem join_iff_prospect (hs : s.Shaped o) (hrunning : s.running = .ok caller) (supply : Supply)
    (h : Handle) (verdict : Except Error (Option Int32)) :
    (s.join supply h).result.map Joined.code? = verdict ↔ s.Prospect caller h verdict := by
  constructor
  · rintro rfl
    rcases exists_prospect hs caller h with ⟨verdict, hp⟩
    rwa [(hp.comes hs hrunning supply).1]
  · intro hp
    exact (hp.comes hs hrunning supply).1

end Join

theorem Shaped.handsOver (hs : s.Shaped o) (hrunning : s.running = .ok caller) :
    s.HandsOver caller where
  stays := by
    constructor
    · intro hnone hready
      rcases yield_of_hasReady hs hrunning hready with ⟨t, ht⟩
      rw [ht] at hnone
      cases hnone
    · exact yield_of_not_hasReady hs hrunning
  yields := by
    constructor
    · rintro ⟨t, ht⟩
      by_contra hnone
      rw [yield_of_not_hasReady hs hrunning hnone] at ht
      cases ht
    · exact yield_of_hasReady hs hrunning
  waits line := (wait_succeeds_iff hs hrunning line).1
  waitRefused line := (wait_succeeds_iff hs hrunning line).2
  exits supply code := (exit_succeeds_iff hs hrunning supply code).1
  exitRefused supply code e := by
    rw [← not_or]
    exact (exit_succeeds_iff hs hrunning supply code).2 e
  joins := join_iff_prospect hs hrunning
  polls supply h := by
    rcases exists_prospect hs caller h with ⟨verdict, hp⟩
    exact (hp.comes hs hrunning supply).2

/-- Once there is a thread, one thread runs, and its requests go as the states of threads say. -/
theorem handsOver_of_initialized (config : Config) (requests : List (Request β × Supply))
    (hinitialized : ((create config).after requests).isInitialized = true) :
    ∃ caller, ((create config).after requests).running = .ok caller ∧
      ((create config).after requests).HandsOver caller := by
  rcases (shaped_create config).after requests with ⟨o, hs⟩
  rcases Option.isSome_iff_exists.mp hinitialized with ⟨cur, hcurrent⟩
  rcases hs.1.running_of_current hs.2 hcurrent with ⟨b, -, hrunning⟩
  exact ⟨⟨cur, b.id⟩, hrunning, hs.handsOver hrunning⟩

/-- Only the target of a blocked join runs, and nobody is ready: it can exit, and no more. -/
def joinedByMain : List (Request Unit × Supply) :=
  [(.bootstrap, .ample), (.spawn {} (), .ample), (.join ⟨1, 2⟩, .ample)]

theorem handsOver_joinedByMain :
    ((create {} : Scheduler Unit).after joinedByMain).isInitialized = true ∧
      ∃ caller, ((create {} : Scheduler Unit).after joinedByMain).running = .ok caller ∧
        ((create {} : Scheduler Unit).after joinedByMain).HandsOver caller :=
  ⟨rfl, handsOver_of_initialized {} joinedByMain rfl⟩

end Scheduler

end Coop
