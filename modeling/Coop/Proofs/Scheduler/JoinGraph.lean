import Coop.Proofs.Scheduler.Runs

/-!
# The graph of joins

A thread that is blocked on a join waits for one other thread, which has not exited
and names it as its joiner.  Whatever happens next, the two stay tied to each
other until the target exits, and the exit of the target is what makes the joiner
ready.
-/

namespace Coop

open Thread (Block Handle Id Life Spec State Table)

namespace Scheduler

variable {β : Type}

/-- The thread of handle `j` is to be woken when the thread of `h`, which goes on, exits. -/
def Awaits (s : Scheduler β) (j h : Handle) : Prop :=
  ∃ target, s.table.lookup h = some target ∧ target.state ≠ .exited ∧ target.joiner = some j

def BlockedOnJoin (s : Scheduler β) (j : Handle) : Prop :=
  ∃ b, s.table.lookup j = some b ∧ b.state = .blockedOnJoin

/-- Blocked joiners and the targets that name them are paired off. -/
structure JoinGraph (s : Scheduler β) : Prop where
  blocked_iff : ∀ j, s.BlockedOnJoin j ↔ ∃ h, s.Awaits j h
  unique : ∀ j h h', s.Awaits j h → s.Awaits j h' → h = h'
  irreflexive : ∀ j, ¬ s.Awaits j j
  attached : ∀ j h, s.Awaits j h → s.isDetached h = .ok false

inductive Tied (e : Entry β) (j h : Handle) : Prop where
  | waits : (∀ code, ¬ e.Exits h code) → e.later.Awaits j h → e.later.BlockedOnJoin j → Tied e j h
  | wakes {code : Int32} : e.Exits h code → ¬ e.later.BlockedOnJoin j →
      e.later.state j = .ok .ready ∨ e.later.running = .ok j → Tied e j h

end Scheduler

/-!
# What the exit of a target does to its joiner
-/

namespace Outline

variable {β : Type} {o o' : Outline β} {h j : Handle} {request : Request β}
  {result : Except Error (Answer β)} {supply : Supply}

def Awaits (o : Outline β) (j h : Handle) : Prop :=
  ∃ target, o.table.lookup h = some target ∧ target.state ≠ .exited ∧ target.joiner = some j

theorem Awaits.table (hawaits : o.Awaits j h) : o.table.Awaits j h.slot := by
  rcases hawaits with ⟨target, hlookup, hlive, hjoiner⟩
  exact ⟨target, (Table.lookup_eq_some_iff.mp hlookup).1, hlive, hjoiner⟩

theorem Sound.awaits_iff (ho : o.Sound) :
    o.Awaits j h ↔ o.life? h = some { detached := false, joiner := some j } := by
  constructor
  · intro hawaits
    rcases hawaits with ⟨target, hlookup, hlive, hjoiner⟩
    have hcode := ho.exitCode_eq_none hlookup hlive
    have hcoherent := ho.placed.coherent (Table.lookup_eq_some_iff.mp hlookup).1
    have hattached : target.isDetached = false := by
      rw [← Bool.not_eq_true]
      intro hdetached
      have hnone := hcoherent.unjoined hdetached
      rw [hjoiner] at hnone
      cases hnone
    rw [life?, Table.life?_of_lookup hlookup, Block.life, hattached, hjoiner, hcode]
  · intro hlife
    rcases Option.map_eq_some_iff.mp hlife with ⟨target, hlookup, htarget⟩
    injection htarget with hattached hjoiner hcode
    refine ⟨target, hlookup, ?_, hjoiner⟩
    intro hstate
    have hcoherent := ho.placed.coherent (Table.lookup_eq_some_iff.mp hlookup).1
    have hsome := hcoherent.exitCode.mpr hstate
    rw [hcode] at hsome
    cases hsome

/-- What takes over after an exit is the joiner, or some other thread while the joiner is ready. -/
theorem Step.wakes (ho : o.Sound) {code : Int32} {t : Transfer}
    (hstep : o.Step supply (.exit code) (.ok (.transfer t)) o') (hruns : o.Runs h)
    (hawaits : o.Awaits j h) :
    ∃ c, o'.table.lookup j = some c ∧
      (c.state = .ready ∨ c.state = .running ∧ o'.current = some j.slot) := by
  cases hstep with
  | idle hidle => cases hidle
  | @switched cur slot rest b c request o₁ hcurrent hget hleaves hready htarget =>
      have hcur : cur = h.slot := by
        have hslot := hruns.1
        rw [hcurrent] at hslot
        injection hslot
      subst hcur
      rcases hawaits with ⟨target, hlookup, hlive, hjoiner⟩
      have hb : target = b := by
        have hget' := (Table.lookup_eq_some_iff.mp hlookup).1
        rw [hget] at hget'
        injection hget' with hb
        exact hb.symm
      subst hb
      have hawaits' : o.table.Awaits j h.slot := ⟨target, hget, hlive, hjoiner⟩
      rcases ho.joins.blocked hawaits' with ⟨c₀, hc₀, hblocked⟩
      cases hleaves with
      | exits hattached =>
          -- the joiner stands in another slot, so what ends the target does not touch it
          have hfinished : (o.finish h.slot code target.joiner).table.lookup j = some c₀.ready := by
            have hne := ho.joins.ne_target hawaits'
            rw [hjoiner]
            show ((o.table.modify h.slot fun b => b.exit code).modify j.slot
              Block.ready).lookup j = _
            rw [Table.lookup_modify (f := Block.ready) (fun _ => rfl), if_pos rfl,
              Table.lookup_modify (f := fun b => b.exit code) (fun _ => rfl), if_neg hne, hc₀]
            rfl
          have hdispatched :
              ((o.finish h.slot code target.joiner).dispatch slot rest).table.lookup j =
                if j.slot = slot then some c₀.ready.run else some c₀.ready := by
            show ((o.finish h.slot code target.joiner).table.modify slot Block.run).lookup j = _
            rw [Table.lookup_modify (f := Block.run) (fun _ => rfl), hfinished]
            rfl
          by_cases hslot : j.slot = slot
          · rw [if_pos hslot] at hdispatched
            exact ⟨_, hdispatched, Or.inr ⟨rfl, congrArg some hslot.symm⟩⟩
          · rw [if_neg hslot] at hdispatched
            exact ⟨_, hdispatched, Or.inl rfl⟩
      | vanishes hdetached =>
          have hnone := (ho.placed.coherent hget).unjoined hdetached
          rw [hjoiner] at hnone
          cases hnone

theorem Step.awaits (ho : o.Sound) (hstep : o.Step supply request result o')
    (hawaits : o.Awaits j h) :
    o'.Awaits j h ∨
      ∃ code t, o.Runs h ∧ request = .exit code ∧ result = .ok (.transfer t) ∧
        o'.life? h = some ⟨false, some j, some code⟩ := by
  have hlife := ho.awaits_iff.mp hawaits
  have hfate := hstep.fate ho h
  generalize hafter : o'.life? h = after at hfate
  rw [hlife] at hfate
  cases hfate with
  | kept => exact Or.inl ((hstep.sound ho).awaits_iff.mpr hafter)
  | exited hruns hrequest hresult => exact Or.inr ⟨_, _, hruns, hrequest, hresult, rfl⟩

end Outline

/-!
# The graph of a reachable scheduler
-/

namespace Scheduler

variable {β : Type} {s : Scheduler β} {o : Outline β} {h j : Handle}

namespace Shaped

theorem awaits_iff (hs : s.Shaped o) (j h : Handle) : o.Awaits j h ↔ s.Awaits j h := by
  rw [Outline.Awaits, Awaits, hs.1.lookup_eq]
  simp

theorem blockedOnJoin_iff (hs : s.Shaped o) (j : Handle) :
    o.table.Blocked j ↔ s.BlockedOnJoin j := by
  rw [Table.Blocked, BlockedOnJoin, hs.1.lookup_eq]
  simp

theorem blockedOnJoin_of_awaits (hs : s.Shaped o) (hawaits : s.Awaits j h) : s.BlockedOnJoin j :=
  (hs.blockedOnJoin_iff j).mp (hs.2.joins.blocked ((hs.awaits_iff j h).mpr hawaits).table)

theorem joinGraph (hs : s.Shaped o) : s.JoinGraph where
  blocked_iff := by
    intro j
    constructor
    · intro hblocked
      rcases hs.2.joins.awaits ((hs.blockedOnJoin_iff j).mpr hblocked) with
        ⟨slot, target, hget, hlive, hjoiner⟩
      have hlookup : o.table.lookup ⟨slot, target.id⟩ = some target := Table.lookup_of_get? hget
      exact ⟨_, (hs.awaits_iff j _).mp ⟨target, hlookup, hlive, hjoiner⟩⟩
    · intro hawaits
      rcases hawaits with ⟨h, hawaits⟩
      exact hs.blockedOnJoin_of_awaits hawaits
  unique := by
    intro j h h' hawaits hawaits'
    have hslot := hs.2.joins.unique ((hs.awaits_iff j h).mpr hawaits).table
      ((hs.awaits_iff j h').mpr hawaits').table
    by_contra hne
    rcases hawaits with ⟨target, hlookup, -, -⟩
    rcases hawaits' with ⟨target', hlookup', -, -⟩
    rw [Table.lookup_eq_none_of_ne hlookup hslot.symm (Ne.symm hne)] at hlookup'
    cases hlookup'
  irreflexive := by
    intro j hawaits
    exact hs.2.joins.ne_target ((hs.awaits_iff j j).mpr hawaits).table rfl
  attached := by
    intro j h hawaits
    have hlife := hs.2.awaits_iff.mp ((hs.awaits_iff j h).mpr hawaits)
    rw [hs.life?_eq] at hlife
    rcases Option.map_eq_some_iff.mp hlife with ⟨target, hlookup, htarget⟩
    injection htarget with hattached _ _
    rw [isDetached, resolve, hlookup]
    exact congrArg Except.ok hattached

theorem wakes (hs : s.Shaped o) (hawaits : s.Awaits j h) (hrunning : s.running = .ok h)
    {supply : Supply} {code : Int32} {t : Transfer}
    (hresult : (s.perform supply (.exit code)).result = .ok (.transfer t)) :
    ¬ (s.perform supply (.exit code)).scheduler.BlockedOnJoin j ∧
      ((s.perform supply (.exit code)).scheduler.state j = .ok .ready ∨
        (s.perform supply (.exit code)).scheduler.running = .ok j) := by
  rcases hs.perform supply (.exit code) with ⟨o', hstep, hs'⟩
  rw [hresult] at hstep
  rcases hstep.wakes hs.2 ((hs.runs_iff h).mpr hrunning) ((hs.awaits_iff j h).mpr hawaits) with
    ⟨c, hc, hstate⟩
  rw [hs'.1.lookup_eq] at hc
  rcases Option.map_eq_some_iff.mp hc with ⟨b, hlookup, rfl⟩
  constructor
  · intro hblocked
    rcases hblocked with ⟨b', hlookup', hblocked⟩
    rw [hlookup] at hlookup'
    injection hlookup' with hsame
    rw [← hsame] at hblocked
    rcases hstate with hready | ⟨hrunning', -⟩
    · cases hblocked.symm.trans hready
    · cases hblocked.symm.trans hrunning'
  · rcases hstate with hready | ⟨-, hcurrent⟩
    · refine Or.inl ?_
      rw [state, resolve, hlookup]
      exact congrArg Except.ok hready
    · refine Or.inr (running_eq_ok_iff.mpr ⟨?_, b, hlookup⟩)
      rw [← hs'.1.current]
      exact hcurrent

theorem tied (hs : s.Shaped o) (hawaits : s.Awaits j h) (supply : Supply) (request : Request β) :
    Tied ⟨s, request, supply, s.perform supply request⟩ j h := by
  rcases hs.perform supply request with ⟨o', hstep, hs'⟩
  by_cases hexits : ∃ code, Entry.Exits ⟨s, request, supply, s.perform supply request⟩ h code
  · rcases hexits with ⟨code, hexit⟩
    rcases id hexit with ⟨hrunning, hrequest, t, hanswer⟩
    have hresult := Entry.answer?_eq_some_iff.mp hanswer
    cases hrequest
    rcases hs.wakes hawaits hrunning hresult with ⟨hfree, hwoken⟩
    exact .wakes hexit hfree hwoken
  · rcases hstep.awaits hs.2 ((hs.awaits_iff j h).mpr hawaits) with
      hstill | ⟨code, t, hruns, hrequest, hresult, -⟩
    · have hlater := (hs'.awaits_iff j h).mp hstill
      exact .waits (fun code hexit => hexits ⟨code, hexit⟩) hlater
        (hs'.blockedOnJoin_of_awaits hlater)
    · exact absurd ⟨code, (hs.runs_iff h).mp hruns, hrequest, t,
        Entry.answer?_eq_some_iff.mpr hresult⟩ hexits

end Shaped

/--
In every reachable scheduler the blocked joiners are paired off with the threads
they wait for.  Each operation leaves such a pair alone, unless it is the exit of
the target; then it makes the joiner ready.
-/
theorem joinGraph_and_tied (config : Config) (requests : List (Request β × Supply)) :
    ((create config).after requests).JoinGraph ∧
      ∀ j h, ((create config).after requests).Awaits j h → ∀ supply request,
        Tied ⟨(create config).after requests, request, supply,
          ((create config).after requests).perform supply request⟩ j h := by
  rcases Reachable.shaped ⟨config, requests, rfl⟩ with ⟨o, hs⟩
  constructor
  · exact hs.joinGraph
  · intro j h hawaits supply request
    exact hs.tied hawaits supply request

end Scheduler

end Coop
