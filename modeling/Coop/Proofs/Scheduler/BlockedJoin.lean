import Coop.Proofs.Scheduler.JoinGraph
import Coop.Proofs.Scheduler.WellFormed

/-!
# Joins that blocked

A join that blocked reserves its target for the caller.  Until the caller collects,
the target stays, nobody else can join, detach or collect it, and it can exit only
once.  When the caller has the processor again the target has exited, and collecting
answers the code of its exit.
-/

namespace Coop

open Thread (Block Handle Id Life Spec State Table)

/-!
# Reserved targets under steps
-/

namespace Outline

variable {β : Type} {o o' : Outline β} {h j : Handle} {request : Request β}
  {result : Except Error (Answer β)} {supply : Supply}

/-- A target with a joiner goes on, or exits, or is collected by the joiner. -/
theorem Step.reserved (ho : o.Sound) (hstep : o.Step supply request result o')
    {x : Option Int32} (hlife : o.life? h = some ⟨false, some j, x⟩) :
    o'.life? h = some ⟨false, some j, x⟩ ∨
      (x = none ∧ ∃ code t, o.Runs h ∧ request = .exit code ∧ result = .ok (.transfer t) ∧
        o'.life? h = some ⟨false, some j, some code⟩) ∨
      (∃ code, x = some code ∧ o.Runs j ∧ request = .collect h ∧ result = .ok (.code code)) := by
  have hfate := hstep.fate ho h
  generalize hafter : o'.life? h = after at hfate
  rw [hlife] at hfate
  cases hfate with
  | kept => exact Or.inl rfl
  | exited hruns hrequest hresult =>
      exact Or.inr (Or.inl ⟨rfl, _, _, hruns, hrequest, hresult, rfl⟩)
  | delivered hruns hfetch hjoiner hresult =>
      cases hfetch with
      | join _ _ hnone =>
          rw [hjoiner] at hnone
          cases hnone
      | tryJoin _ _ hnone =>
          rw [hjoiner] at hnone
          cases hnone
      | collect hcaller =>
          rw [hjoiner] at hcaller
          injection hcaller with hcaller
          subst hcaller
          exact Or.inr (Or.inr ⟨_, rfl, hruns, rfl, hresult⟩)

end Outline

namespace Scheduler

variable {β : Type} {s : Scheduler β} {o : Outline β} {h j : Handle}

def Entry.Collects (e : Entry β) (j h : Handle) (code : Int32) : Prop :=
  e.earlier.running = .ok j ∧ e.request = .collect h ∧ e.answer? = some (.code code)

/-!
# What a reserved target answers
-/

/-- An operation is refused as a misuse, and leaves everything as it was. -/
def Refuses (s : Scheduler β) (supply : Supply) (request : Request β) (m : Misuse) : Prop :=
  (s.perform supply request).result = .error (.misuse m) ∧ (s.perform supply request).scheduler = s

/-- Nobody but the joiner can lay hands on a target. -/
structure Reserved (s : Scheduler β) (j h : Handle) : Prop where
  join : ∀ supply caller, s.running = .ok caller →
    s.Refuses supply (.join h) (if caller = h then .joinSelf else .alreadyJoined)
  tryJoin : ∀ supply caller, s.running = .ok caller →
    s.Refuses supply (.tryJoin h) (if caller = h then .joinSelf else .alreadyJoined)
  detach : ∀ supply, s.Refuses supply (.detach h) .alreadyJoined
  collect : ∀ supply caller, s.running = .ok caller → caller ≠ j →
    s.Refuses supply (.collect h) .wrongState

section Answers

variable {target : Block β} {caller : Handle}

theorem slot_eq_iff_of_running (hrunning : s.running = .ok caller)
    (hlookup : s.table.lookup h = some target) : h.slot = caller.slot ↔ caller = h := by
  rcases running_eq_ok_iff.mp hrunning with ⟨-, b, hcaller⟩
  constructor
  · intro hslot
    by_contra hne
    rw [Table.lookup_eq_none_of_ne hlookup hslot.symm hne] at hcaller
    cases hcaller
  · intro hcaller
    rw [hcaller]

theorem joinable_of_joined (hrunning : s.running = .ok caller)
    (hlookup : s.table.lookup h = some target) (hattached : target.isDetached = false)
    (hjoiner : target.joiner = some j) :
    s.joinable caller.slot h =
      .error (.misuse (if caller = h then .joinSelf else .alreadyJoined)) := by
  have hself := slot_eq_iff_of_running hrunning hlookup
  unfold joinable
  rw [hlookup]
  by_cases hcaller : caller = h
  · simp [hself.mpr hcaller, hcaller]
  · have hslot : h.slot ≠ caller.slot := fun hslot => hcaller (hself.mp hslot)
    simp [hslot, hcaller, hattached, hjoiner]

theorem reserved_of_joined (hinitialized : s.current.isSome = true)
    (hlookup : s.table.lookup h = some target) (hattached : target.isDetached = false)
    (hjoiner : target.joiner = some j) : s.Reserved j h where
  join := by
    intro supply caller hrunning
    have hcurrent := (running_eq_ok_iff.mp hrunning).1
    have hjoinable := joinable_of_joined hrunning hlookup hattached hjoiner
    constructor <;> simp [perform, Scheduler.join, hcurrent, hjoinable, Work.fail, Outcome.map,
      Except.map, work]
  tryJoin := by
    intro supply caller hrunning
    have hcurrent := (running_eq_ok_iff.mp hrunning).1
    have hjoinable := joinable_of_joined hrunning hlookup hattached hjoiner
    constructor <;> simp [perform, Scheduler.tryJoin, hcurrent, hjoinable, Work.fail, Outcome.map,
      Except.map, work]
  detach := by
    intro supply
    rcases Option.isSome_iff_exists.mp hinitialized with ⟨cur, hcurrent⟩
    constructor <;> simp [perform, Scheduler.detach, hcurrent, hlookup, hjoiner, Work.misuse,
      Work.fail, Outcome.map, Except.map, work]
  collect := by
    intro supply caller hrunning hne
    have hother : target.joiner ≠ some caller := by
      rw [hjoiner]
      intro heq
      injection heq with heq
      exact hne heq.symm
    constructor <;> simp [perform, Scheduler.collect, hrunning, hlookup, hother, Work.misuse,
      Work.fail, Outcome.map, Except.map, work]

theorem collect_of_joined (hrunning : s.running = .ok j) (hlookup : s.table.lookup h = some target)
    (hjoiner : target.joiner = some j) {code : Int32} (hcode : target.exitCode = some code)
    (supply : Supply) :
    s.collect supply h = (s.work.reclaim supply h.slot).succeed code := by
  simp [Scheduler.collect, hrunning, hlookup, hjoiner, hcode]

end Answers

end Scheduler

namespace Work

variable {β : Type}

theorem releaseAny_table (w : Work β) (supply : Supply) (stack : Option Stack) :
    (w.releaseAny supply stack).scheduler.table = w.scheduler.table ∧
      (w.releaseAny supply stack).scheduler.counters = w.scheduler.counters := by
  cases stack <;> exact ⟨rfl, rfl⟩

theorem reclaim_of_get? (w : Work β) (supply : Supply) {slot : Nat} {b : Block β}
    (hget : w.scheduler.table.get? slot = some b) :
    (w.reclaim supply slot).scheduler.table = (w.scheduler.table.remove slot).2 ∧
      (w.reclaim supply slot).scheduler.counters =
        { w.scheduler.counters with reclaimed := w.scheduler.counters.reclaimed + 1 } := by
  have hfirst : w.remove slot = (some b, (w.remove slot).2) := by
    have hremove := Table.fst_remove w.scheduler.table slot
    rw [hget] at hremove
    rw [← hremove]
    rfl
  unfold reclaim
  rw [hfirst]
  rcases releaseAny_table (w.remove slot).2 supply b.stack with ⟨htable, hcounters⟩
  constructor
  · exact htable
  · exact congrArg (fun c : Counters => { c with reclaimed := c.reclaimed + 1 }) hcounters

end Work

/-!
# From the block to the collection
-/

namespace Scheduler

variable {β : Type} {s : Scheduler β} {o : Outline β} {h j : Handle}

structure Completed (s : Scheduler β) (j h : Handle) (code : Int32) : Prop where
  exited : ∃ target, s.table.lookup h = some target ∧ target.state = .exited ∧
    target.joiner = some j
  collects : ∀ supply, (s.collect supply h).result = .ok code
  reclaims : ∀ supply, (s.collect supply h).scheduler.table.lookup h = none ∧
    (s.collect supply h).scheduler.counters.reclaimed = s.counters.reclaimed + 1

namespace Shaped

theorem joined_after (hs : s.Shaped o) {x : Option Int32}
    (hlife : s.life? h = some ⟨false, some j, x⟩) (requests : List (Request β × Supply))
    (hwaits : ∀ e ∈ s.run requests, ∀ code, ¬ e.Collects j h code) :
    ∃ y, (s.after requests).life? h = some ⟨false, some j, y⟩ := by
  induction requests generalizing s o x with
  | nil => exact ⟨x, hlife⟩
  | cons entry rest ih =>
      rcases entry with ⟨request, supply⟩
      rcases hs.perform supply request with ⟨o', hstep, hs'⟩
      have hwaits' : ∀ e ∈ (s.perform supply request).scheduler.run rest, ∀ code,
          ¬ e.Collects j h code := fun e he => hwaits e (List.mem_cons_of_mem _ he)
      have hlife' := hlife
      rw [← hs.life?_eq] at hlife'
      rcases hstep.reserved hs.2 hlife' with hkept | ⟨-, code, t, -, -, -, hexited⟩ |
        ⟨code, -, hruns, hrequest, hresult⟩
      · rw [hs'.life?_eq] at hkept
        exact ih hs' hkept hwaits'
      · rw [hs'.life?_eq] at hexited
        exact ih hs' hexited hwaits'
      · exact absurd
          ⟨(hs.runs_iff j).mp hruns, hrequest, Entry.answer?_eq_some_iff.mpr hresult⟩
          (hwaits ⟨s, request, supply, s.perform supply request⟩ List.mem_cons_self code)

theorem reserved_after (hs : s.Shaped o) (hcurrent : s.current.isSome = true) {x : Option Int32}
    (hlife : s.life? h = some ⟨false, some j, x⟩) (requests : List (Request β × Supply))
    (hwaits : ∀ e ∈ s.run requests, ∀ code, ¬ e.Collects j h code) :
    (s.after requests).Reserved j h := by
  rcases hs.joined_after hlife requests hwaits with ⟨y, hafter⟩
  rcases Option.map_eq_some_iff.mp hafter with ⟨target, hlookup, htarget⟩
  injection htarget with hattached hjoiner _
  exact reserved_of_joined (hs.isSome_current_after hcurrent requests) hlookup hattached hjoiner

theorem exited_of_running (hs : s.Shaped o) (hrunning : s.running = .ok j) {target : Block β}
    (hlookup : s.table.lookup h = some target) (hjoiner : target.joiner = some j) :
    target.state = .exited := by
  by_contra hlive
  rcases hs.blockedOnJoin_of_awaits ⟨target, hlookup, hlive, hjoiner⟩ with ⟨c, hc, hblocked⟩
  rcases Table.lookup_eq_some_iff.mp hc with ⟨hget, -⟩
  rcases (hs.running_iff j.slot).mpr (running_eq_ok_iff.mp hrunning).1 with ⟨c', hget', hstate⟩
  rw [hget] at hget'
  injection hget' with hcc
  rw [← hcc, hblocked] at hstate
  cases hstate

theorem completed (hs : s.Shaped o) (hrunning : s.running = .ok j) {x : Option Int32}
    (hlife : s.life? h = some ⟨false, some j, x⟩) :
    ∃ code, x = some code ∧ s.Completed j h code := by
  rcases Option.map_eq_some_iff.mp hlife with ⟨target, hlookup, htarget⟩
  injection htarget with _ hjoiner hcode
  have hexited := hs.exited_of_running hrunning hlookup hjoiner
  have hget := (Table.lookup_eq_some_iff.mp hlookup).1
  rcases Option.isSome_iff_exists.mp ((hs.coherent hget).exitCode.mpr hexited) with ⟨code, hsome⟩
  have hcollect := collect_of_joined hrunning hlookup hjoiner hsome
  refine ⟨code, by rw [← hcode, hsome], ⟨target, hlookup, hexited, hjoiner⟩, ?_, ?_⟩
  · intro supply
    rw [hcollect]
    rfl
  · intro supply
    rw [hcollect]
    rcases Work.reclaim_of_get? s.work supply hget with ⟨htable, hcounters⟩
    constructor
    · show (s.work.reclaim supply h.slot).scheduler.table.lookup h = none
      rw [htable]
      apply Table.lookup_eq_none_of_get?
      rw [Table.get?_remove, if_pos rfl]
    · show (s.work.reclaim supply h.slot).scheduler.counters.reclaimed = _
      rw [hcounters]
      rfl

/-- When the joiner runs again, its target exited once meanwhile, and that is the code. -/
theorem completed_after (hs : s.Shaped o) (hlife : s.life? h = some ⟨false, some j, none⟩)
    (requests : List (Request β × Supply))
    (hwaits : ∀ e ∈ s.run requests, ∀ code, ¬ e.Collects j h code)
    (hrunning : (s.after requests).running = .ok j) :
    ∃ code, (s.after requests).Completed j h code ∧ (∃ e ∈ s.run requests, e.Exits h code) ∧
      ∀ e ∈ s.run requests, ∀ code', e.Exits h code' → code' = code := by
  rcases hs.joined_after hlife requests hwaits with ⟨y, hafter⟩
  rcases hs.after requests with ⟨o', hs'⟩
  rcases hs'.completed hrunning hafter with ⟨code, rfl, hcompleted⟩
  refine ⟨code, hcompleted, ?_, ?_⟩
  · rcases hs.exit_of_code hafter rfl with ⟨l, hl, hcode⟩ | hexits
    · rw [hlife] at hl
      injection hl with hl
      rw [← hl] at hcode
      cases hcode
    · exact hexits
  · intro e he code' hexits
    have hcode := (hs.code_of_exits he hexits).2 _ hafter
    injection hcode with hcode
    exact hcode.symm

theorem life?_of_join (hs : s.Shaped o) {supply : Supply} {t : Transfer}
    (hblocked : (s.perform supply (.join h)).result = .ok (.transfer t)) :
    s.running = .ok t.source ∧
      (s.perform supply (.join h)).scheduler.life? h = some ⟨false, some t.source, none⟩ := by
  rcases hs.perform supply (.join h) with ⟨o', hstep, hs'⟩
  rw [hblocked] at hstep
  rcases hstep.life?_of_join hs.2 with ⟨hruns, hafter⟩
  rw [hs'.life?_eq] at hafter
  exact ⟨(hs.runs_iff t.source).mp hruns, hafter⟩

end Shaped

end Scheduler

end Coop
