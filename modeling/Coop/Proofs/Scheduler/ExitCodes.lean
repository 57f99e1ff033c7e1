import Coop.Proofs.Scheduler.Origins
import Coop.Proofs.Scheduler.Runs
import Coop.Proofs.Scheduler.WellFormed

/-!
# Exit codes are delivered faithfully, and once

The code of a thread is delivered to whoever joins it.  It is the code of an
exit earlier in the run, it is delivered once at most, and never for a detached
thread.  A handle whose code was delivered is stale: whatever is asked of it is
refused from then on, also when its slot is taken again.
-/

namespace Coop

open Thread (Block Handle Id Life Spec State Table)

/-- The requests that may be answered with the code of a thread, and name it. -/
def Request.joins? {β : Type} : Request β → Option Handle
  | .join h | .collect h | .tryJoin h => some h
  | _ => none

def Request.target? {β : Type} : Request β → Option Handle
  | .join h | .collect h | .tryJoin h | .detach h => some h
  | _ => none

/-!
# What steps do to the lives they name
-/

namespace Outline

variable {β : Type} {o o' : Outline β} {h : Handle} {request : Request β} {supply : Supply}

theorem Fetches.joins?_eq {caller : Handle} {target : Block β}
    (hfetch : Fetches caller h target request) : request.joins? = some h := by
  cases hfetch <;> rfl

theorem Step.life?_of_delivers (ho : o.Sound) {code : Int32}
    (hstep : o.Step supply request (.ok (.code code)) o') (hrequest : request.joins? = some h) :
    (∃ joiner, o.life? h = some ⟨false, joiner, some code⟩) ∧ o'.life? h = none := by
  cases hstep with
  | idle hidle => cases hidle
  | @delivered cur b target handle code request hcurrent hget hlookup hfetch hstate hcode =>
      have hhandle : h = handle := Option.some.inj (hrequest.symm.trans hfetch.joins?_eq)
      subst hhandle
      constructor
      · refine ⟨target.joiner, ?_⟩
        have hlife : o.life? h = some target.life := Table.life?_of_lookup hlookup
        rw [hlife, Block.life, ho.attached_of_exited hlookup hstate, hcode]
      · rw [life?_remove hlookup (table_reclaim o supply h.slot target), if_pos rfl]

theorem Step.life?_of_detach (hstep : o.Step supply (.detach h) (.ok .done) o') :
    (∃ l, o.life? h = some l) ∧ ∀ l, o'.life? h = some l → l.detached = true := by
  cases hstep with
  | idle hidle => cases hidle
  | detached hcurrent hlookup hjoiner hstate =>
      have hdetached : (o.modify h.slot Block.detach).life? h = _ :=
        Table.life?_modify_same (f := Block.detach) (fun _ => rfl) hlookup
      constructor
      · exact ⟨_, Table.life?_of_lookup hlookup⟩
      · intro l hlife
        rw [hdetached] at hlife
        injection hlife with hlife
        rw [← hlife]
        rfl
  | @dropped cur target handle hcurrent hlookup hjoiner hstate =>
      constructor
      · exact ⟨_, Table.life?_of_lookup hlookup⟩
      · intro l hlife
        rw [life?_remove hlookup (table_reclaim o supply h.slot target), if_pos rfl] at hlife
        cases hlife

theorem Step.life?_of_drop {b : Block β} (hstep : o.Step supply (.detach h) (.ok .done) o')
    (hlookup : o.table.lookup h = some b) (hexited : b.state = .exited) : o'.life? h = none := by
  cases hstep with
  | idle hidle => cases hidle
  | detached _ hlookup' _ hstate =>
      rw [hlookup] at hlookup'
      injection hlookup' with hb
      rw [← hb] at hstate
      exact absurd hexited hstate
  | @dropped cur target handle _ hlookup' _ _ =>
      rw [life?_remove hlookup' (table_reclaim o supply h.slot target), if_pos rfl]

theorem Step.life?_of_spawn (ho : o.Sound) {spec : Spec} {body : β}
    (hstep : o.Step supply (.spawn spec body) (.ok (.handle h)) o') :
    h.id = o.nextId ∧ o'.life? h = some { detached := spec.detached } := by
  rcases hstep.lookup_of_handle ho with ⟨b, hbegins, hlookup⟩
  refine ⟨by rw [(hstep.begins ho).1], ?_⟩
  cases hbegins with
  | fresh _ => exact Table.life?_of_lookup hlookup

end Outline

namespace Scheduler

variable {β : Type} {s : Scheduler β} {o : Outline β} {h : Handle}

namespace Entry

variable {e : Entry β}

def Delivers (e : Entry β) (h : Handle) (code : Int32) : Prop :=
  e.request.joins? = some h ∧ e.answer? = some (.code code)

def Detaches (e : Entry β) (h : Handle) : Prop :=
  e.request = .detach h ∧ e.answer? = some .done

def SpawnsDetached (e : Entry β) (h : Handle) : Prop :=
  ∃ spec body, e.request = .spawn spec body ∧ spec.detached = true ∧ e.answer? = some (.handle h)

end Entry

/-- Whatever is asked about a handle, or of its thread, is refused. -/
structure Stale (s : Scheduler β) (h : Handle) : Prop where
  perform : ∀ supply request, request.target? = some h →
    (s.perform supply request).result = .error (.misuse .invalidHandle)
  state : s.state h = .error (.misuse .invalidHandle)
  isDetached : s.isDetached h = .error (.misuse .invalidHandle)
  name : s.name h = .error (.misuse .invalidHandle)
  exitCode : s.exitCode h = .error (.misuse .invalidHandle)
  stack? : s.stack? h = .error (.misuse .invalidHandle)

theorem perform_of_lookup (hinitialized : s.current.isSome = true)
    (hlookup : s.table.lookup h = none) (supply : Supply) {request : Request β}
    (htarget : request.target? = some h) :
    s.perform supply request = s.work.misuse .invalidHandle := by
  have hjoinable : ∀ cur, s.joinable cur h = .error (.misuse .invalidHandle) := by
    intro cur
    rw [joinable, hlookup]
  rcases Option.isSome_iff_exists.mp hinitialized with ⟨cur, hcurrent⟩
  cases request with
  | join handle =>
      cases htarget
      simp only [Scheduler.perform, join, hcurrent, hjoinable]
      rfl
  | tryJoin handle =>
      cases htarget
      simp only [Scheduler.perform, tryJoin, hcurrent, hjoinable]
      rfl
  | detach handle =>
      cases htarget
      simp only [Scheduler.perform, detach, hcurrent, hlookup]
      rfl
  | collect handle =>
      cases htarget
      cases hhandle : s.table.handle? cur with
      | none =>
          simp only [Scheduler.perform, collect, running, hcurrent, hhandle]
          rfl
      | some caller =>
          simp only [Scheduler.perform, collect, running, hcurrent, hhandle, hlookup]
          rfl
  | _ => cases htarget

theorem stale_of_lookup (hinitialized : s.current.isSome = true)
    (hlookup : s.table.lookup h = none) : s.Stale h := by
  have hresolve : s.resolve h = .error (.misuse .invalidHandle) := by
    rw [resolve, hlookup]
  constructor
  · intro supply request htarget
    rw [perform_of_lookup hinitialized hlookup supply htarget]
    rfl
  · rw [Scheduler.state, hresolve]
    rfl
  · rw [Scheduler.isDetached, hresolve]
    rfl
  · rw [Scheduler.name, hresolve]
    rfl
  · rw [Scheduler.exitCode, hresolve]
  · rw [Scheduler.stack?, hresolve]
    rfl

/-!
# Handles that are gone, and handles that are barred
-/

def Gone (s : Scheduler β) (h : Handle) : Prop :=
  s.current.isSome = true ∧ h.id < s.nextId ∧ s.life? h = none

/-- A handle that was given out, and whose thread is detached if it lives. -/
def Barred (s : Scheduler β) (h : Handle) : Prop :=
  h.id < s.nextId ∧ ∀ l, s.life? h = some l → l.detached = true

theorem Gone.barred (hgone : s.Gone h) : s.Barred h := by
  refine ⟨hgone.2.1, ?_⟩
  intro l hlife
  rw [hgone.2.2] at hlife
  cases hlife

theorem Gone.stale (hgone : s.Gone h) : s.Stale h :=
  stale_of_lookup hgone.1 (Option.map_eq_none_iff.mp hgone.2.2)

namespace Shaped

theorem gone (hs : s.Shaped o) (hgone : s.Gone h) (supply : Supply) (request : Request β) :
    (s.perform supply request).scheduler.Gone h := by
  rcases hs.perform supply request with ⟨o', hstep, hs'⟩
  rcases hgone with ⟨hcurrent, hid, hlife⟩
  have hnext := hstep.nextId_le
  rw [hs.1.nextId, hs'.1.nextId] at hnext
  refine ⟨?_, Nat.lt_of_lt_of_le hid hnext, ?_⟩
  · exact hs.isSome_current_after hcurrent [(request, supply)]
  · have hfate := hs.fate supply request h
    rw [hlife] at hfate
    generalize hafter : (s.perform supply request).scheduler.life? h = after at hfate
    cases hfate with
    | absent => rfl
    | born hborn _ _ =>
        rw [hs.1.nextId] at hborn
        exact absurd hid (by rw [hborn]; exact Nat.lt_irrefl _)

theorem barred (hs : s.Shaped o) (hbarred : s.Barred h) (supply : Supply) (request : Request β) :
    (s.perform supply request).scheduler.Barred h := by
  rcases hs.perform supply request with ⟨o', hstep, hs'⟩
  have hnext := hstep.nextId_le
  rw [hs.1.nextId, hs'.1.nextId] at hnext
  refine ⟨Nat.lt_of_lt_of_le hbarred.1 hnext, ?_⟩
  intro l hlife
  have hfate := hs.fate supply request h
  rw [hlife] at hfate
  generalize hbefore : s.life? h = before at hfate
  cases hfate with
  | kept => exact hbarred.2 l hbefore
  | born hborn _ _ =>
      rw [hs.1.nextId] at hborn
      exact absurd hbarred.1 (by rw [hborn]; exact Nat.lt_irrefl _)
  | joined _ _ _ _ _ => cases hbarred.2 _ hbefore
  | exited _ _ _ => cases hbarred.2 _ hbefore
  | detached _ _ => rfl

end Shaped

/-!
# What deliveries and detaching leave behind
-/

section Entries

variable {requests : List (Request β × Supply)} {e : Entry β} {code : Int32}

theorem Shaped.life?_of_delivers (hs : s.Shaped o) (he : e ∈ s.run requests)
    (hdelivers : e.Delivers h code) :
    (∃ joiner, e.earlier.life? h = some ⟨false, joiner, some code⟩) ∧ e.later.life? h = none := by
  rcases hs.step_of_mem_run he with ⟨o₁, o₂, hs₁, hs₂, hstep⟩
  rw [Entry.answer?_eq_some_iff.mp hdelivers.2] at hstep
  have hlives := hstep.life?_of_delivers hs₁.2 hdelivers.1
  rw [hs₁.life?_eq, hs₂.life?_eq] at hlives
  exact hlives

theorem Shaped.gone_of_delivers (hs : s.Shaped o) (he : e ∈ s.run requests)
    (hdelivers : e.Delivers h code) : e.later.Gone h := by
  rcases hs.life?_of_delivers he hdelivers with ⟨⟨joiner, hbefore⟩, hafter⟩
  rcases hs.step_of_mem_run he with ⟨o₁, o₂, hs₁, hs₂, hstep⟩
  have hinitialized : e.earlier.current.isSome = true := by
    rcases Option.map_eq_some_iff.mp hbefore with ⟨b, hlookup, -⟩
    exact hs₁.isSome_current_of_get? (Table.lookup_eq_some_iff.mp hlookup).1
  have hnext := hstep.nextId_le
  rw [← hs₁.life?_eq] at hbefore
  refine ⟨?_, ?_, hafter⟩
  · rw [← hs₂.1.current, hstep.current_isSome_iff, hs₁.1.current]
    exact Or.inr hinitialized
  · rw [← hs₂.1.nextId]
    exact Nat.lt_of_lt_of_le (hs₁.2.id_lt_of_life? hbefore) hnext

theorem Shaped.barred_of_detaches (hs : s.Shaped o) (he : e ∈ s.run requests)
    (hdetaches : e.Detaches h) : e.later.Barred h := by
  rcases hs.step_of_mem_run he with ⟨o₁, o₂, hs₁, hs₂, hstep⟩
  rw [Entry.answer?_eq_some_iff.mp hdetaches.2, hdetaches.1] at hstep
  rcases hstep.life?_of_detach with ⟨⟨l, hbefore⟩, hafter⟩
  have hid := Nat.lt_of_lt_of_le (hs₁.2.id_lt_of_life? hbefore) hstep.nextId_le
  rw [hs₂.1.nextId] at hid
  rw [hs₂.life?_eq] at hafter
  exact ⟨hid, hafter⟩

theorem Shaped.barred_of_spawnsDetached (hs : s.Shaped o) (he : e ∈ s.run requests)
    (hspawns : e.SpawnsDetached h) : e.later.Barred h := by
  rcases hspawns with ⟨spec, body, hrequest, hdetached, hanswer⟩
  rcases hs.step_of_mem_run he with ⟨o₁, o₂, hs₁, hs₂, hstep⟩
  rw [Entry.answer?_eq_some_iff.mp hanswer, hrequest] at hstep
  have hafter := (hstep.life?_of_spawn hs₁.2).2
  constructor
  · rw [← hs₂.1.nextId]
    exact hs₂.2.id_lt_of_life? hafter
  · intro l hlife
    rw [← hs₂.life?_eq, hafter] at hlife
    injection hlife with hlife
    rw [← hlife]
    exact hdetached

theorem Shaped.not_delivers_of_barred (hs : s.Shaped o) (he : e ∈ s.run requests)
    (hbarred : e.earlier.Barred h) : ¬ e.Delivers h code := by
  intro hdelivers
  rcases (hs.life?_of_delivers he hdelivers).1 with ⟨joiner, hlife⟩
  cases hbarred.2 _ hlife

theorem Shaped.not_spawnsDetached_of_gone (hs : s.Shaped o) (he : e ∈ s.run requests)
    (hgone : e.earlier.Gone h) : ¬ e.SpawnsDetached h := by
  intro hspawns
  rcases hspawns with ⟨spec, body, hrequest, -, hanswer⟩
  rcases hs.step_of_mem_run he with ⟨o₁, o₂, hs₁, -, hstep⟩
  rw [Entry.answer?_eq_some_iff.mp hanswer, hrequest] at hstep
  have hid := hgone.2.1
  rw [(hstep.life?_of_spawn hs₁.2).1, hs₁.1.nextId] at hid
  exact Nat.lt_irrefl _ hid

end Entries

/-!
# Exit codes along a run
-/

/-- How the exit code of a thread gets to the others in a run. -/
structure DeliversFaithfully (s : Scheduler β) (requests : List (Request β × Supply))
    (h : Handle) : Prop where
  delivered : ∀ before e after code, s.run requests = before ++ e :: after →
    e.Delivers h code → ∃ e' ∈ before, e'.Exits h code
  reported : ∀ code, (s.after requests).exitCode h = .ok code →
    ∃ e ∈ s.run requests, e.Exits h code
  once : (s.run requests).Pairwise fun e e' =>
    ∀ code code', e.Delivers h code → ¬ e'.Delivers h code'
  detached : (s.run requests).Pairwise fun e e' => e.Detaches h → ∀ code, ¬ e'.Delivers h code
  spawnedDetached : ∀ e ∈ s.run requests, e.SpawnsDetached h →
    ∀ e' ∈ s.run requests, ∀ code, ¬ e'.Delivers h code
  /-- After a delivery the handle is refused, whoever has its slot. -/
  stale : ∀ e ∈ s.run requests, ∀ code, e.Delivers h code → (s.after requests).Stale h

section Runs

variable {requests : List (Request β × Supply)}

theorem Shaped.exits_of_delivers (hs : s.Shaped o) (hunborn : s.life? h = none)
    {before after : List (Entry β)} {e : Entry β} {code : Int32}
    (hrun : s.run requests = before ++ e :: after) (hdelivers : e.Delivers h code) :
    ∃ e' ∈ before, e'.Exits h code := by
  have he : e ∈ s.run requests := by
    rw [hrun]
    exact List.mem_append_right _ List.mem_cons_self
  rcases (hs.life?_of_delivers he hdelivers).1 with ⟨joiner, hlife⟩
  rcases run_eq_append_cons hrun with ⟨earlier, later, -, hbefore, -, hearlier, -⟩
  rw [hearlier] at hlife
  rw [hbefore]
  exact hs.exits_of_code hunborn hlife rfl

theorem Shaped.exits_of_exitCode (hs : s.Shaped o) (hunborn : s.life? h = none) {code : Int32}
    (hreported : (s.after requests).exitCode h = .ok code) :
    ∃ e ∈ s.run requests, e.Exits h code := by
  unfold exitCode resolve at hreported
  cases hlookup : (s.after requests).table.lookup h with
  | none =>
      rw [hlookup] at hreported
      cases hreported
  | some b =>
      rw [hlookup] at hreported
      have hlife : (s.after requests).life? h = some b.life := Table.life?_of_lookup hlookup
      cases hcode : b.exitCode with
      | none => simp [hcode] at hreported
      | some c =>
          simp only [hcode] at hreported
          injection hreported with hreported
          subst hreported
          exact hs.exits_of_code hunborn hlife hcode

theorem Shaped.never_delivers {A : Entry β → Prop} (hs : s.Shaped o)
    (hbars : ∀ e ∈ s.run requests, A e → e.later.Barred h) :
    (s.run requests).Pairwise fun e e' => A e → ∀ code, ¬ e'.Delivers h code := by
  have hpairwise := hs.pairwise_run (Q := fun s => s.Barred h)
    (fun _ _ supply request hs hbarred => hs.barred hbarred supply request) hbars
    (B := fun e => ∃ code, e.Delivers h code) ?_
  · refine hpairwise.imp ?_
    intro e e' hnever hfirst code hdelivers
    exact hnever hfirst ⟨code, hdelivers⟩
  · intro e he hbarred hdelivers
    rcases hdelivers with ⟨code, hdelivers⟩
    exact hs.not_delivers_of_barred he hbarred hdelivers

/-- Deliveries of a thread and its creation as a detached one never meet in a run. -/
theorem Shaped.not_delivers_of_spawnsDetached (hs : s.Shaped o) {e e' : Entry β}
    (he : e ∈ s.run requests) (hspawns : e.SpawnsDetached h) (he' : e' ∈ s.run requests)
    (code : Int32) : ¬ e'.Delivers h code := by
  -- a delivery may come after the creation or before it, and each order has its own invariant
  have hfollow : (s.run requests).Pairwise fun e e' =>
      e.SpawnsDetached h → ∀ code, ¬ e'.Delivers h code :=
    hs.never_delivers fun e he => hs.barred_of_spawnsDetached he
  have hprecede : (s.run requests).Pairwise fun e e' =>
      e.Delivers h code → ¬ e'.SpawnsDetached h :=
    hs.pairwise_run (Q := fun s => s.Gone h)
      (fun _ _ supply request hs hgone => hs.gone hgone supply request)
      (fun e he hdelivers => hs.gone_of_delivers he hdelivers)
      (fun e he hgone => hs.not_spawnsDetached_of_gone he hgone)
  have hapart : ∀ e ∈ s.run requests, e.SpawnsDetached h → ¬ e.Delivers h code := by
    intro e _ hspawns hdelivers
    rcases hspawns with ⟨spec, body, hrequest, -, -⟩
    have hjoins := hdelivers.1
    rw [hrequest] at hjoins
    cases hjoins
  refine List.Pairwise.forall_of_forall_of_flip
    (R := fun e e' => e.SpawnsDetached h → ¬ e'.Delivers h code) hapart ?_ ?_ he he' hspawns
  · exact hfollow.imp fun hnever hspawns => hnever hspawns code
  · exact hprecede.imp fun hnever hspawns hdelivers => hnever hdelivers hspawns

theorem Shaped.deliversFaithfully (hs : s.Shaped o) (hunborn : s.life? h = none) :
    s.DeliversFaithfully requests h where
  delivered := fun _ _ _ _ hrun hdelivers => hs.exits_of_delivers hunborn hrun hdelivers
  reported := fun _ hreported => hs.exits_of_exitCode hunborn hreported
  once := by
    have honce : (s.run requests).Pairwise fun e e' =>
        (∃ code, e.Delivers h code) → ∀ code, ¬ e'.Delivers h code := by
      apply hs.never_delivers
      intro e he hdelivers
      rcases hdelivers with ⟨code, hdelivers⟩
      exact (hs.gone_of_delivers he hdelivers).barred
    refine honce.imp ?_
    intro e e' hnever code code' hdelivers
    exact hnever ⟨code, hdelivers⟩ code'
  detached := hs.never_delivers fun e he => hs.barred_of_detaches he
  spawnedDetached := fun e he hspawns e' he' code =>
    hs.not_delivers_of_spawnsDetached he hspawns he' code
  stale := by
    intro e he code hdelivers
    exact (hs.preserved_of_mem_run (fun _ _ supply request hs hgone => hs.gone hgone supply request)
      he (hs.gone_of_delivers he hdelivers)).stale

end Runs

/--
In every run from the start, the exit code of a thread is delivered as the thread
left it, to one caller at most, and to none when the thread is detached.
-/
theorem deliversFaithfully_create (config : Config) (requests : List (Request β × Supply))
    (h : Handle) : (create config).DeliversFaithfully requests h := by
  have hcreated : (create config : Scheduler β).Shaped _ :=
    ⟨Represents.create config, Outline.sound_create config⟩
  exact hcreated.deliversFaithfully rfl

end Scheduler

end Coop
