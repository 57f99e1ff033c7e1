import Coop.Proofs.Scheduler.Canonical
import Coop.Proofs.Scheduler.Lifetimes
import Coop.Proofs.Scheduler.Objections

/-!
# Ways to part with a thread

A thread that nobody joins is parted with in one of several ways: it is detached and then
exits, or it exits and is detached afterwards, or it exits and its code is fetched.  The
first way takes its block away while it still runs, and keeps its stack aside; the others
take both away later, when another thread runs.  All of them end in the same scheduler.
-/

namespace Coop

open Thread (Block Handle Id Spec Table)

/-!
# A block that leaves while another one changes
-/

namespace Thread.Table

variable {β : Type} {t : Table β} {slot other : Nat}

theorem remove_modify_of_ne (t : Table β) (f : Block β → Block β) (hne : other ≠ slot) :
    ((t.modify other f).remove slot).2 = (t.remove slot).2.modify other f := by
  have hget : (t.modify other f).get? slot = t.get? slot := get?_modify_of_ne t f hne.symm
  cases hslot : t.get? slot with
  | none => simp [remove, hget, hslot]
  | some b =>
      have hslots : ((t.modify other f).remove slot).2.slots =
          ((t.remove slot).2.modify other f).slots := by
        apply slots_ext
        · simp [remove, hget, hslot, size_modify]
        · intro i
          rw [get?_remove, get?_modify, get?_modify, get?_remove, get?_remove, if_neg hne]
          by_cases hi : i = slot
          · rw [if_pos hi, if_neg (by rw [hi]; exact hne.symm), if_pos hi]
          · rw [if_neg hi, if_neg hi]
      simp only [remove, hget, hslot] at hslots ⊢
      simp only [modify] at hslots ⊢
      rw [hslots]

end Thread.Table

namespace Outline

variable {β : Type} {o o' o'' : Outline β} {supply : Supply} {request : Request β} {cur slot : Nat}
  {rest : List Nat} {h : Handle} {b c target : Block β} {code : Int32}

/-!
# Operations with a known outcome
-/

/-- On each scheduler of the first outline the request is answered so, and leaves the second one. -/
def Yields (o : Outline β) (supply : Supply) (request : Request β) (a : Answer β)
    (o' : Outline β) : Prop :=
  ∀ s : Scheduler β, s.Shaped o →
    (s.perform supply request).result = .ok a ∧ (s.perform supply request).scheduler.Shaped o'

theorem yields_of_step {a : Answer β}
    (hresult : ∀ s : Scheduler β, s.Shaped o → (s.perform supply request).result = .ok a)
    (hstep : ∀ o₁, o.Step supply request (.ok a) o₁ → o₁ = o') :
    o.Yields supply request a o' := by
  intro s hs
  rcases hs.perform supply request with ⟨o₁, hstep₁, hs₁⟩
  rw [hresult s hs] at hstep₁
  rw [hstep o₁ hstep₁] at hs₁
  exact ⟨hresult s hs, hs₁⟩

theorem exists_lookup {s : Scheduler β} (hs : s.Shaped o) (hlookup : o.table.lookup h = some b) :
    ∃ b', s.table.lookup h = some b' ∧ b'.bare = b := by
  rw [hs.1.lookup_eq] at hlookup
  exact Option.map_eq_some_iff.mp hlookup

theorem yields_completeSwitch (o : Outline β) (supply : Supply) :
    o.Yields supply .completeSwitch .done
      ({ o with graveyard := none }.release supply o.graveyard) := by
  refine yields_of_step ?_ ?_
  · intro s _
    simp only [Scheduler.perform, Scheduler.completeSwitch]
    cases s.graveyard <;> rfl
  · intro o₁ hstep
    cases hstep with
    | idle hidle =>
        cases hidle with
        | settled => rfl

theorem yields_completeSwitch_of_none (hgraveyard : o.graveyard = none) (supply : Supply) :
    o.Yields supply .completeSwitch .done o := by
  have hyields := o.yields_completeSwitch supply
  rcases o with ⟨config, table, ready, waiting, pool, current, nextId, graveyard, counters⟩
  subst hgraveyard
  exact hyields

theorem result_detach {s : Scheduler β} (hs : s.Shaped o) (hcurrent : o.current = some cur)
    (hlookup : o.table.lookup h = some target) (hjoiner : target.joiner = none) :
    (s.perform supply (.detach h)).result = .ok .done := by
  rcases exists_lookup hs hlookup with ⟨target', htarget, rfl⟩
  have hjoiner' : target'.joiner = none := hjoiner
  rw [hs.1.current] at hcurrent
  simp only [Scheduler.perform, Scheduler.detach, hcurrent, htarget, hjoiner', Option.isSome_none]
  rfl

theorem yields_detach (hcurrent : o.current = some cur) (hlookup : o.table.lookup h = some target)
    (hjoiner : target.joiner = none) (hlive : target.state ≠ .exited) :
    o.Yields supply (.detach h) .done (o.modify h.slot Block.detach) := by
  refine yields_of_step (fun s hs => result_detach hs hcurrent hlookup hjoiner) ?_
  intro o₁ hstep
  cases hstep with
  | idle hidle => cases hidle
  | detached _ _ _ _ => rfl
  | dropped _ hlookup' _ hexited =>
      rw [hlookup] at hlookup'
      injection hlookup' with heq
      rw [← heq] at hexited
      exact absurd hexited hlive

theorem yields_detach_exited (hcurrent : o.current = some cur)
    (hlookup : o.table.lookup h = some target) (hjoiner : target.joiner = none)
    (hexited : target.state = .exited) :
    o.Yields supply (.detach h) .done (o.reclaim supply h.slot target) := by
  refine yields_of_step (fun s hs => result_detach hs hcurrent hlookup hjoiner) ?_
  intro o₁ hstep
  cases hstep with
  | idle hidle => cases hidle
  | detached _ hlookup' _ hlive =>
      rw [hlookup] at hlookup'
      injection hlookup' with heq
      rw [← heq] at hlive
      exact absurd hexited hlive
  | dropped _ hlookup' _ _ =>
      rw [hlookup] at hlookup'
      injection hlookup' with heq
      rw [heq]

/-- A transfer is known when the way in which the caller leaves is, and who is next. -/
theorem Step.eq_dispatch {o₁ : Outline β} {t : Transfer} (hcurrent : o.current = some cur)
    (hget : o.table.get? cur = some b) (hleaves : ∀ o₂, Leaves supply o cur b request o₂ → o₂ = o₁)
    (hready : o₁.ready = slot :: rest) (hslot : o₁.table.get? slot = some c)
    (hstep : o.Step supply request (.ok (.transfer t)) o') :
    t = ⟨⟨cur, b.id⟩, ⟨slot, c.id⟩⟩ ∧ o' = o₁.dispatch slot rest := by
  cases hstep with
  | idle hidle => cases hidle
  | switched hcurrent' hget' hleaves' hready' hslot' =>
      rw [hcurrent] at hcurrent'
      injection hcurrent' with heq
      subst heq
      rw [hget] at hget'
      injection hget' with heq
      subst heq
      have heq := hleaves _ hleaves'
      subst heq
      rw [hready] at hready'
      injection hready' with heq heq'
      subst heq
      subst heq'
      rw [hslot] at hslot'
      injection hslot' with heq
      subst heq
      exact ⟨rfl, rfl⟩

theorem yields_of_departs {o₁ : Outline β} (hcurrent : o.current = some cur)
    (hget : o.table.get? cur = some b)
    (hdeparts : ∀ s : Scheduler β, s.Shaped o → ∃ w, s.Departs supply ⟨cur, b.id⟩ request w)
    (hleaves : ∀ o₂, Leaves supply o cur b request o₂ → o₂ = o₁)
    (hready : o₁.ready = slot :: rest) (hslot : o₁.table.get? slot = some c) :
    o.Yields supply request (.transfer ⟨⟨cur, b.id⟩, ⟨slot, c.id⟩⟩) (o₁.dispatch slot rest) := by
  intro s hs
  have hrunning : s.running = .ok ⟨cur, b.id⟩ :=
    (hs.runs_iff _).mp ⟨hcurrent, b, Table.lookup_of_get? hget⟩
  rcases hdeparts s hs with ⟨w, hdeparts⟩
  rcases Scheduler.transfer_of_departs hs hrunning hdeparts with ⟨t, hresult⟩
  rcases hs.perform supply request with ⟨o', hstep, hs'⟩
  rw [hresult] at hstep
  rcases hstep.eq_dispatch hcurrent hget hleaves hready hslot with ⟨rfl, rfl⟩
  exact ⟨hresult, hs'⟩

theorem isEmpty_eq_false {s : Scheduler β} (hs : s.Shaped o) (hfirst : o.ready ≠ []) :
    s.ready.isEmpty = false := by
  rw [hs.1.isEmpty_eq]
  exact List.isEmpty_eq_false_iff.mpr hfirst

theorem yields_exit {o₁ : Outline β} (hcurrent : o.current = some cur)
    (hget : o.table.get? cur = some b) (hfirst : o.ready ≠ [])
    (hleaves : ∀ o₂, Leaves supply o cur b (.exit code) o₂ → o₂ = o₁)
    (hready : o₁.ready = slot :: rest) (hslot : o₁.table.get? slot = some c) :
    o.Yields supply (.exit code) (.transfer ⟨⟨cur, b.id⟩, ⟨slot, c.id⟩⟩)
      (o₁.dispatch slot rest) := by
  refine yields_of_departs hcurrent hget ?_ hleaves hready hslot
  intro s hs
  have hget' := hget
  rw [hs.1.get?_eq] at hget'
  rcases Option.map_eq_some_iff.mp hget' with ⟨b', hb', -⟩
  refine ⟨_, .exits hb' ?_⟩
  rw [isEmpty_eq_false hs hfirst]
  rfl

theorem yields_yield (hcurrent : o.current = some cur) (hget : o.table.get? cur = some b)
    (hready : o.ready = slot :: rest)
    (hslot : (o.table.modify cur Block.ready).get? slot = some c) :
    o.Yields supply .yield (.transfer ⟨⟨cur, b.id⟩, ⟨slot, c.id⟩⟩)
      ((o.makeReady cur).dispatch slot (rest ++ [cur])) := by
  have hfirst : o.ready ≠ [] := by
    rw [hready]
    exact List.cons_ne_nil slot rest
  apply yields_of_departs hcurrent hget
  · intro s hs
    exact ⟨_, .yields (isEmpty_eq_false hs hfirst)⟩
  · intro o₂ hleaves
    cases hleaves with
    | yields _ => rfl
  · show o.ready ++ [cur] = _
    rw [hready]
    rfl
  · exact hslot

theorem eq_reclaim_of_code {o₁ : Outline β} (hlookup : o.table.lookup h = some target)
    (hrequest : request = .join h ∨ request = .tryJoin h)
    (hstep : o.Step supply request (.ok (.code code)) o₁) :
    o₁ = o.reclaim supply h.slot target := by
  cases hstep with
  | idle hidle => cases hidle
  | delivered _ _ hlookup' hfetch _ _ =>
      have hsame : ∀ {h' : Handle} {target' : Block β}, h' = h →
          o.table.lookup h' = some target' →
            o.reclaim supply h'.slot target' = o.reclaim supply h.slot target := by
        rintro h' target' rfl hlookup'
        rw [hlookup] at hlookup'
        injection hlookup' with heq
        rw [heq]
      rcases hrequest with rfl | rfl
      · cases hfetch with
        | join _ _ _ => exact hsame rfl hlookup'
      · cases hfetch with
        | tryJoin _ _ _ => exact hsame rfl hlookup'

section Fetch

variable (hcurrent : o.current = some cur) (hlookup : o.table.lookup h = some target)
  (hne : h.slot ≠ cur) (hattached : target.isDetached = false) (hjoiner : target.joiner = none)
  (hexited : target.state = .exited) (hcode : target.exitCode = some code)

include hlookup hne hattached hjoiner hexited hcode

theorem joinable_of_exited {s : Scheduler β} (hs : s.Shaped o) :
    ∃ target', s.joinable cur h = .ok target' ∧ Scheduler.finished? target' = some code := by
  rcases exists_lookup hs hlookup with ⟨target', htarget, rfl⟩
  have hattached' : target'.isDetached = false := hattached
  have hjoiner' : target'.joiner = none := hjoiner
  refine ⟨target', ?_, ?_⟩
  · simp [Scheduler.joinable, htarget, hne, hattached', hjoiner']
  · have hexited' : target'.state = .exited := hexited
    rw [Scheduler.finished?, if_pos hexited']
    exact hcode

include hcurrent

theorem yields_tryJoin :
    o.Yields supply (.tryJoin h) (.code code) (o.reclaim supply h.slot target) := by
  refine yields_of_step ?_ fun o₁ hstep => ?_
  · intro s hs
    rcases joinable_of_exited hlookup hne hattached hjoiner hexited hcode hs with
      ⟨target', hjoinable, hfinished⟩
    rw [hs.1.current] at hcurrent
    simp only [Scheduler.perform, Scheduler.tryJoin, hcurrent, hjoinable, hfinished]
    rfl
  · exact eq_reclaim_of_code hlookup (Or.inr rfl) hstep

theorem yields_join :
    o.Yields supply (.join h) (.code code) (o.reclaim supply h.slot target) := by
  refine yields_of_step ?_ fun o₁ hstep => ?_
  · intro s hs
    rcases joinable_of_exited hlookup hne hattached hjoiner hexited hcode hs with
      ⟨target', hjoinable, hfinished⟩
    rw [hs.1.current] at hcurrent
    simp only [Scheduler.perform, Scheduler.join, hcurrent, hjoinable, hfinished]
    rfl
  · exact eq_reclaim_of_code hlookup (Or.inl rfl) hstep

end Fetch

/-- The requests, one after the other, are answered so, and lead from one outline to another. -/
inductive Plays : Outline β → List (Request β × Supply) → List (Answer β) → Outline β → Prop where
  | nil {o : Outline β} : Plays o [] [] o
  | cons {o o' o'' : Outline β} {request : Request β} {supply : Supply} {a : Answer β}
      {requests : List (Request β × Supply)} {answers : List (Answer β)} :
      o.Yields supply request a o' → Plays o' requests answers o'' →
        Plays o ((request, supply) :: requests) (a :: answers) o''

/-!
# The outline that is left
-/

/-- The old stack goes back, the caller's block and stack too, and the next thread runs. -/
def parted (o : Outline β) (older own : Growth) (cur : Nat) (b : Block β) (slot : Nat)
    (rest : List Nat) : Outline β :=
  ((({ o with graveyard := none }.release { cache := older } o.graveyard).countExited).reclaim
    { cache := own } cur b).dispatch slot rest

def settle (o : Outline β) (supply : Supply) : Outline β :=
  { o with graveyard := none }.release supply o.graveyard

theorem parted_of_bury (hget : o.table.get? cur = some b) {stack : Stack}
    (hstack : b.stack = some stack) (second third : Supply) :
    (((o.modify cur Block.detach).bury second cur b.detach).dispatch slot rest).settle third =
      o.parted second.cache third.cache cur b slot rest := by
  have hremoved := Table.remove_modify hget Block.detach
  have hstack' : b.detach.stack = some stack := hstack
  rcases o with ⟨config, table, ready, waiting, pool, current, nextId, graveyard, counters⟩
  cases graveyard <;>
    simp [parted, settle, bury, retire, release, reclaim, countExited, countReclaimed, dispatch,
      modify, hstack, hstack', hremoved]

theorem parted_of_finish (hget : o.table.get? cur = some b) {stack : Stack}
    (hstack : b.stack = some stack) (hne : slot ≠ cur) (second third : Supply) :
    (((o.finish cur code none).dispatch slot rest).settle second).reclaim third cur (b.exit code) =
      o.parted second.cache third.cache cur b slot rest := by
  have hremoved := Table.remove_modify hget fun b => b.exit code
  have hcommutes := (o.table.modify cur fun b => b.exit code).remove_modify_of_ne Block.run hne
  rw [hremoved] at hcommutes
  have hstack' : (b.exit code).stack = some stack := hstack
  rcases o with ⟨config, table, ready, waiting, pool, current, nextId, graveyard, counters⟩
  cases graveyard <;>
    simp_all [parted, settle, finish, release, reclaim, countExited, countReclaimed, dispatch,
      modify]

/-!
# The ways to get there
-/

/-- The caller can be parted with: it is attached, nobody joins it, and another thread is next. -/
structure Parts (o : Outline β) (cur : Nat) (b : Block β) (slot : Nat) (rest : List Nat)
    (c : Block β) : Prop where
  current : o.current = some cur
  get? : o.table.get? cur = some b
  running : b.state = .running
  attached : b.isDetached = false
  joiner : b.joiner = none
  stack : ∃ stack, b.stack = some stack
  ready : o.ready = slot :: rest
  next : o.table.get? slot = some c
  ne : slot ≠ cur

namespace Parts

variable {first second third : Supply}

theorem plays_detached (hp : o.Parts cur b slot rest c) :
    o.Plays [(.detach ⟨cur, b.id⟩, first), (.exit code, second), (.completeSwitch, third)]
      [.done, .transfer ⟨⟨cur, b.id⟩, ⟨slot, c.id⟩⟩, .done]
      (o.parted second.cache third.cache cur b slot rest) := by
  rcases hp.stack with ⟨stack, hstack⟩
  have hget : (o.modify cur Block.detach).table.get? cur = some b.detach := by
    show (o.table.modify cur Block.detach).get? cur = some b.detach
    rw [Table.get?_modify_same, hp.get?]
    rfl
  have hdetach : o.Yields first (.detach ⟨cur, b.id⟩) .done (o.modify cur Block.detach) :=
    yields_detach hp.current (Table.lookup_of_get? hp.get?) hp.joiner (by simp [hp.running])
  have hexit : (o.modify cur Block.detach).Yields second (.exit code)
      (.transfer ⟨⟨cur, b.id⟩, ⟨slot, c.id⟩⟩)
      (((o.modify cur Block.detach).bury second cur b.detach).dispatch slot rest) := by
    refine Outline.yields_exit (b := b.detach) hp.current hget ?_ ?_ ?_ ?_
    · show o.ready ≠ []
      rw [hp.ready]
      exact List.cons_ne_nil slot rest
    · intro o₂ hleaves
      cases hleaves with
      | exits hattached => cases hattached
      | vanishes _ => rfl
    · rw [ready_bury]
      exact hp.ready
    · rw [table_bury, Table.get?_remove, if_neg hp.ne]
      show (o.table.modify cur Block.detach).get? slot = some c
      rw [Table.get?_modify_of_ne _ _ hp.ne, hp.next]
  rw [← parted_of_bury hp.get? hstack second third]
  exact .cons hdetach (.cons hexit (.cons (yields_completeSwitch _ third) .nil))

theorem yields_exit (hp : o.Parts cur b slot rest c) :
    o.Yields second (.exit code) (.transfer ⟨⟨cur, b.id⟩, ⟨slot, c.id⟩⟩)
      ((o.finish cur code none).dispatch slot rest) := by
  refine Outline.yields_exit hp.current hp.get? ?_ ?_ hp.ready ?_
  · rw [hp.ready]
    exact List.cons_ne_nil slot rest
  · intro o₂ hleaves
    cases hleaves with
    | exits _ => rw [hp.joiner]
    | vanishes hdetached =>
        rw [hp.attached] at hdetached
        cases hdetached
  · show (o.table.modify cur fun b => b.exit code).get? slot = some c
    rw [Table.get?_modify_of_ne _ _ hp.ne, hp.next]

theorem settled (hp : o.Parts cur b slot rest c) (code : Int32) (supply : Supply) :
    (((o.finish cur code none).dispatch slot rest).settle supply).current = some slot ∧
      (((o.finish cur code none).dispatch slot rest).settle supply).table.lookup ⟨cur, b.id⟩ =
        some (b.exit code) := by
  have halike : ((o.finish cur code none).dispatch slot rest).Alike
      (((o.finish cur code none).dispatch slot rest).settle supply) :=
    .release _ none supply _
  refine ⟨halike.current, ?_⟩
  rw [halike.lookup]
  refine Table.lookup_eq_some_iff.mpr ⟨?_, rfl⟩
  show ((o.table.modify cur fun b => b.exit code).modify slot Block.run).get? cur = _
  rw [Table.get?_modify_of_ne _ _ hp.ne.symm, Table.get?_modify_same, hp.get?]
  rfl

/-- What reclaims the caller after its exit may come from another thread in several forms. -/
theorem plays_reclaimed (hp : o.Parts cur b slot rest c) {request : Request β} {a : Answer β}
    (hyields : ∀ o₁ : Outline β, o₁.current = some slot →
      o₁.table.lookup ⟨cur, b.id⟩ = some (b.exit code) →
        o₁.Yields third request a (o₁.reclaim third cur (b.exit code))) :
    o.Plays [(.exit code, first), (.completeSwitch, second), (request, third)]
      [.transfer ⟨⟨cur, b.id⟩, ⟨slot, c.id⟩⟩, .done, a]
      (o.parted second.cache third.cache cur b slot rest) := by
  rcases hp.stack with ⟨stack, hstack⟩
  rcases hp.settled code second with ⟨hcurrent, hlookup⟩
  rw [← parted_of_finish hp.get? hstack hp.ne second third]
  exact .cons hp.yields_exit (.cons (yields_completeSwitch _ second)
    (.cons (hyields _ hcurrent hlookup) .nil))

theorem plays_dropped (hp : o.Parts cur b slot rest c) :
    o.Plays [(.exit code, first), (.completeSwitch, second), (.detach ⟨cur, b.id⟩, third)]
      [.transfer ⟨⟨cur, b.id⟩, ⟨slot, c.id⟩⟩, .done, .done]
      (o.parted second.cache third.cache cur b slot rest) :=
  hp.plays_reclaimed fun _ hcurrent hlookup => yields_detach_exited hcurrent hlookup hp.joiner rfl

theorem plays_polled (hp : o.Parts cur b slot rest c) :
    o.Plays [(.exit code, first), (.completeSwitch, second), (.tryJoin ⟨cur, b.id⟩, third)]
      [.transfer ⟨⟨cur, b.id⟩, ⟨slot, c.id⟩⟩, .done, .code code]
      (o.parted second.cache third.cache cur b slot rest) :=
  hp.plays_reclaimed fun _ hcurrent hlookup =>
    yields_tryJoin hcurrent hlookup hp.ne.symm hp.attached hp.joiner rfl rfl

theorem plays_joined (hp : o.Parts cur b slot rest c) :
    o.Plays [(.exit code, first), (.completeSwitch, second), (.join ⟨cur, b.id⟩, third)]
      [.transfer ⟨⟨cur, b.id⟩, ⟨slot, c.id⟩⟩, .done, .code code]
      (o.parted second.cache third.cache cur b slot rest) :=
  hp.plays_reclaimed fun _ hcurrent hlookup =>
    yields_join hcurrent hlookup hp.ne.symm hp.attached hp.joiner rfl rfl

theorem graveyard_parted (older own : Growth) :
    (o.parted older own cur b slot rest).graveyard = none := by
  cases hgraveyard : o.graveyard <;> cases hstack : b.stack <;>
    simp [parted, release, reclaim, countExited, countReclaimed, dispatch, hgraveyard, hstack]

end Parts

end Outline

namespace Scheduler

variable {β : Type} {s : Scheduler β} {o o' : Outline β}

def Leads (s : Scheduler β) (requests : List (Request β × Supply)) (answers : List (Answer β))
    (s' : Scheduler β) : Prop :=
  (s.run requests).map Entry.answer? = answers.map some ∧ s.after requests = s'

theorem Shaped.plays {requests : List (Request β × Supply)} {answers : List (Answer β)}
    (hs : s.Shaped o) (hplays : o.Plays requests answers o') :
    (s.run requests).map Entry.answer? = answers.map some ∧ (s.after requests).Shaped o' := by
  induction hplays generalizing s with
  | nil => exact ⟨rfl, hs⟩
  | @cons _ _ _ request supply a _ _ hyields _ ih =>
      rcases hyields s hs with ⟨hresult, hs'⟩
      rcases ih hs' with ⟨hanswers, hafter⟩
      refine ⟨?_, hafter⟩
      have hanswer : (⟨s, request, supply, s.perform supply request⟩ : Entry β).answer? = some a :=
        Entry.answer?_eq_some_iff.mpr hresult
      rw [run, List.map_cons, List.map_cons, hanswer, hanswers]

/-- However a thread is parted with, the scheduler is the same in the end. -/
structure PartsAlike (s : Scheduler β) (h : Handle) (code : Int32) (older own : Growth)
    (t : Transfer) (final : Scheduler β) : Prop where
  graveyard : final.graveyard = none
  detached : ∀ first second third : Supply, second.cache = older → third.cache = own →
    s.Leads [(.detach h, first), (.exit code, second), (.completeSwitch, third)]
      [.done, .transfer t, .done] final
  dropped : ∀ first second third : Supply, second.cache = older → third.cache = own →
    s.Leads [(.exit code, first), (.completeSwitch, second), (.detach h, third)]
      [.transfer t, .done, .done] final
  polled : ∀ first second third : Supply, second.cache = older → third.cache = own →
    s.Leads [(.exit code, first), (.completeSwitch, second), (.tryJoin h, third)]
      [.transfer t, .done, .code code] final
  joined : ∀ first second third : Supply, second.cache = older → third.cache = own →
    s.Leads [(.exit code, first), (.completeSwitch, second), (.join h, third)]
      [.transfer t, .done, .code code] final

/-- Only a detached thread runs on a stack that is not the pool's. -/
theorem Reachable.isDetached_of_stack (h : s.Reachable) {slot : Nat} {b : Block β}
    (hget : s.table.get? slot = some b) (hstack : b.stack = none) : b.isDetached = true := by
  rcases h with ⟨config, requests, rfl⟩
  refine (shaped_create config).preserved (Q := fun s : Scheduler β => ∀ slot b,
    s.table.get? slot = some b → b.stack = none → b.isDetached = true) ?_ ?_ requests slot b hget
      hstack
  · intro s o supply request hs hbefore slot b' hget' hstack'
    rcases hs.origin supply request hget' with ⟨b, hget, hestate⟩ | ⟨-, hbegins⟩
    · have hid : b'.id = b.id := congrArg Thread.Estate.id hestate
      have hstack : b.stack = none := (congrArg Thread.Estate.stack hestate).symm.trans hstack'
      have hlasts := (Shaped.treats (e := ⟨s, request, supply, s.perform supply request⟩) hs rfl
        (Table.lookup_of_get? hget) (Table.lookup_eq_some_iff.mpr ⟨hget', hid⟩)).toAlters.lasts
      exact hlasts.detached (hbefore slot b hget hstack)
    · generalize hbare : b'.bare = b₀ at hbegins
      cases hbegins with
      | main => exact congrArg Block.isDetached hbare
      | fresh _ =>
          have hsome : b'.stack = some _ := congrArg Block.stack hbare
          rw [hstack'] at hsome
          cases hsome
  · intro slot b hget
    rw [create, Table.get?_empty] at hget
    cases hget

theorem Shaped.exists_ready (hs : s.Shaped o) (hready : ∃ h, s.state h = .ok .ready) :
    ∃ slot rest, o.ready = slot :: rest := by
  rcases hready with ⟨h, hstate⟩
  rcases state_eq_ok_iff.mp hstate with ⟨b, hlookup, hb⟩
  have hmem : h.slot ∈ o.ready :=
    (hs.mem_ready_iff h.slot).mpr ⟨b, (Table.lookup_eq_some_iff.mp hlookup).1, hb⟩
  exact List.exists_cons_of_ne_nil (List.ne_nil_of_mem hmem)

theorem Reachable.parts (hreachable : s.Reachable) (hs : s.Shaped o) {cur slot : Nat}
    {rest : List Nat} {b : Block β} (hcurrent : s.current = some cur)
    (hget : s.table.get? cur = some b) (hattached : b.isDetached = false)
    (hjoiner : b.joiner = none) (hqueue : o.ready = slot :: rest) :
    ∃ c, o.Parts cur b.bare slot rest c := by
  have hstate : b.state = .running := (hs.placed.running_iff (hs.get?_bare hget)).mp hcurrent
  rcases hs.2.placed.get?_of_ready_cons hqueue with ⟨c, hc, hcready⟩
  refine ⟨c, hs.1.current.trans hcurrent, hs.get?_bare hget, hstate, hattached, hjoiner, ?_, hqueue,
    hc, ?_⟩
  · apply Option.ne_none_iff_exists'.mp
    intro hnone
    have hdetached := hreachable.isDetached_of_stack hget hnone
    rw [hattached] at hdetached
    cases hdetached
  · rintro rfl
    have hsame := hs.get?_bare hget
    rw [hc] at hsame
    injection hsame with hsame
    rw [hsame] at hcready
    have hbare : b.state = .ready := hcready
    rw [hstate] at hbare
    cases hbare

theorem Shaped.partsAlike (hs : s.Shaped o) {cur slot : Nat} {rest : List Nat} {b c : Block β}
    (hp : o.Parts cur b slot rest c) (code : Int32) (older own : Growth) :
    ∃ t final, s.PartsAlike ⟨cur, b.id⟩ code older own t final := by
  have hplays : o.Plays [(.detach ⟨cur, b.id⟩, .ample), (.exit code, { cache := older }),
      (.completeSwitch, { cache := own })] _ (o.parted older own cur b slot rest) :=
    hp.plays_detached
  rcases hs.plays hplays with ⟨-, hfinal⟩
  generalize s.after _ = final at hfinal
  have hleads : ∀ {requests : List (Request β × Supply)} {answers : List (Answer β)},
      o.Plays requests answers (o.parted older own cur b slot rest) →
        s.Leads requests answers final := by
    intro requests answers hplays
    rcases hs.plays hplays with ⟨hanswers, hafter⟩
    exact ⟨hanswers, hfinal.1.unique hafter.1⟩
  refine ⟨⟨⟨cur, b.id⟩, ⟨slot, c.id⟩⟩, final, ?_, ?_, ?_, ?_, ?_⟩
  · rw [← hfinal.1.graveyard]
    exact Outline.Parts.graveyard_parted older own
  · rintro first second third rfl rfl
    exact hleads hp.plays_detached
  · rintro first second third rfl rfl
    exact hleads hp.plays_dropped
  · rintro first second third rfl rfl
    exact hleads hp.plays_polled
  · rintro first second third rfl rfl
    exact hleads hp.plays_joined

/--
When an attached thread that nobody joins runs while another thread is ready, it makes no
difference whether it is detached before it exits, detached after it exited, or joined then.
-/
theorem partsAlike_of_running (hreachable : s.Reachable) {h : Handle} {b : Block β}
    (hrunning : s.running = .ok h) (hlookup : s.table.lookup h = some b)
    (hattached : b.isDetached = false) (hjoiner : b.joiner = none)
    (hready : ∃ other, s.state other = .ok .ready) (code : Int32) (older own : Growth) :
    ∃ t final, s.PartsAlike h code older own t final := by
  rcases hreachable.shaped with ⟨o, hs⟩
  rcases Table.lookup_eq_some_iff.mp hlookup with ⟨hget, hid⟩
  have hcurrent := (running_eq_ok_iff.mp hrunning).1
  rcases hs.exists_ready hready with ⟨slot, rest, hqueue⟩
  rcases hreachable.parts hs hcurrent hget hattached hjoiner hqueue with ⟨c, hp⟩
  have halike := hs.partsAlike hp code older own
  have hhandle : (⟨h.slot, b.bare.id⟩ : Handle) = h := by
    show (⟨h.slot, b.id⟩ : Handle) = h
    rw [hid]
  rwa [hhandle] at halike

/-- A detached thread has exited and lies aside, and an attached one runs. -/
def runsAfterExit : List (Request Unit × Supply) :=
  [(.bootstrap, .ample), (.spawn { detached := true } (), .ample), (.spawn {} (), .ample),
    (.yield, .ample), (.exit 0, .ample)]

theorem partsAlike_runsAfterExit :
    let s : Scheduler Unit := (create {}).after runsAfterExit
    s.graveyard.isSome = true ∧ s.running = .ok ⟨2, 3⟩ ∧
      ∃ t final, s.PartsAlike ⟨2, 3⟩ 7 .refused .doubling t final := by
  have hready : ((create {} : Scheduler Unit).after runsAfterExit).state ⟨0, 1⟩ = .ok .ready := rfl
  exact ⟨rfl, rfl, partsAlike_of_running ⟨{}, runsAfterExit, rfl⟩ rfl rfl rfl rfl ⟨_, hready⟩ 7
    .refused .doubling⟩

end Scheduler

end Coop
