import Coop.Proofs.Scheduler.ExitCodes
import Coop.Proofs.Thread.Totals
import Mathlib.Data.List.Induction

/-!
# Handles never come back to life

A handle resolves from the operation that gave it out to the one that reclaims its
thread, and never before or after.  Its slot may be taken again, most often by the
very next thread, but identifiers count up and none is given out twice.
-/

namespace Coop

open Thread (Block Handle Id Life Table)

namespace Scheduler

variable {β : Type}

def Resolves (s : Scheduler β) (h : Handle) : Prop :=
  ∃ b, s.table.lookup h = some b

namespace Entry

def created? (e : Entry β) : Option Handle :=
  match e.request, e.answer? with
  | .bootstrap, some (.handle h) => some h
  | .spawn _ _, some (.handle h) => some h
  | _, _ => none

/--
The operation reclaimed a thread: it delivered its code, detached it after its exit, or
was its own exit after it had been detached.
-/
inductive Reclaims (e : Entry β) (h : Handle) : Prop where
  | delivered {code : Int32} : e.Delivers h code → Reclaims e h
  | dropped : e.Detaches h → e.earlier.state h = .ok .exited → Reclaims e h
  | vanished {code : Int32} : e.Exits h code → e.earlier.isDetached h = .ok true → Reclaims e h

end Entry

def created (history : List (Entry β)) : List Handle :=
  history.filterMap Entry.created?

/-- The handle was given out in a run, and its thread was not reclaimed since. -/
def Outstanding (history : List (Entry β)) (h : Handle) : Prop :=
  ∃ before e after, history = before ++ e :: after ∧ e.created? = some h ∧
    ∀ e' ∈ after, ¬ e'.Reclaims h

structure ResolvesFaithfully (s : Scheduler β) (requests : List (Request β × Supply)) : Prop where
  /-- Identifiers count from one; operations that fail use none up. -/
  ids : (created (s.run requests)).map Handle.id =
    List.range' 1 (created (s.run requests)).length
  distinctIds : ((s.after requests).table.toList.map fun entry => entry.2.id).Nodup
  distinctHandles :
    ((s.after requests).table.toList.map fun entry => (⟨entry.1, entry.2.id⟩ : Handle)).Nodup
  resolves : ∀ h, (s.after requests).Resolves h ↔ Outstanding (s.run requests) h
  final : ∀ h first next rest, requests = first ++ next ++ rest →
    (s.after first).Resolves h → ¬ (s.after (first ++ next)).Resolves h →
      ¬ (s.after requests).Resolves h
  /-- Once there is a main thread, a handle that does not resolve is refused everywhere. -/
  refused : (∃ e ∈ s.run requests, e.Adopts) → ∀ h, ¬ (s.after requests).Resolves h →
    (s.after requests).Stale h ∧ ∀ supply request, request.target? = some h →
      ((s.after requests).perform supply request).scheduler = s.after requests

section Steps

variable {s : Scheduler β} {o : Outline β} {h : Handle} {e : Entry β}

theorem resolves_iff_life? : s.Resolves h ↔ (s.life? h).isSome = true := by
  rw [life?, Table.life?, Option.isSome_map, Option.isSome_iff_exists]
  rfl

theorem not_resolves_iff : ¬ s.Resolves h ↔ s.table.lookup h = none := by
  rw [Option.eq_none_iff_forall_ne_some]
  exact not_exists

theorem map_resolve_eq_ok_iff {α : Type} {f : Block β → α} {a : α} :
    (s.resolve h).map f = .ok a ↔ ∃ b, s.table.lookup h = some b ∧ f b = a := by
  unfold resolve
  cases s.table.lookup h <;> simp [Except.map]

theorem state_eq_ok_iff {state : Thread.State} :
    s.state h = .ok state ↔ ∃ b, s.table.lookup h = some b ∧ b.state = state :=
  map_resolve_eq_ok_iff

theorem isDetached_eq_ok_iff {detached : Bool} :
    s.isDetached h = .ok detached ↔ ∃ b, s.table.lookup h = some b ∧ b.isDetached = detached :=
  map_resolve_eq_ok_iff

theorem stack?_eq_ok_iff {stack : Option Stack} :
    s.stack? h = .ok stack ↔ ∃ b, s.table.lookup h = some b ∧ b.stack = stack :=
  map_resolve_eq_ok_iff

theorem Shaped.origin (hs : s.Shaped o) (supply : Supply) (request : Request β) {slot : Nat}
    {b' : Block β} (hget : (s.perform supply request).scheduler.table.get? slot = some b') :
    (∃ b, s.table.get? slot = some b ∧ b'.estate = b.estate) ∨
      (s.perform supply request).result = .ok (.handle ⟨slot, b'.id⟩) ∧
        o.Begins supply request b'.bare := by
  rcases hs.perform supply request with ⟨o', hstep, hs'⟩
  rcases hstep.origin hs.2 (hs'.get?_bare hget) with ⟨b, hb, hestate⟩ | hbegun
  · rw [hs.1.get?_eq] at hb
    rcases Option.map_eq_some_iff.mp hb with ⟨b₀, hb₀, rfl⟩
    exact Or.inl ⟨b₀, hb₀, hestate⟩
  · exact Or.inr hbegun

/-!
# Identifiers
-/

theorem Shaped.created?_eq_some_iff (hs : e.earlier.Shaped o)
    (houtcome : e.outcome = e.earlier.perform e.supply e.request) :
    e.created? = some h ↔ e.outcome.result = .ok (.handle h) := by
  rw [← Entry.answer?_eq_some_iff]
  constructor
  · intro hcreated
    unfold Entry.created? at hcreated
    split at hcreated
    · injection hcreated with heq
      rw [← heq]
      assumption
    · injection hcreated with heq
      rw [← heq]
      assumption
    · cases hcreated
  · intro hanswer
    rcases hs.perform e.supply e.request with ⟨o', hstep, -⟩
    rw [← houtcome, Entry.answer?_eq_some_iff.mp hanswer] at hstep
    rcases hstep.begins hs.2 with ⟨-, b, hbegins, -⟩
    unfold Entry.created?
    generalize e.request = request at hbegins
    cases hbegins with
    | main => rw [hanswer]
    | fresh _ => rw [hanswer]

theorem Shaped.numbers (hs : e.earlier.Shaped o)
    (houtcome : e.outcome = e.earlier.perform e.supply e.request) :
    (∃ h, e.created? = some h ∧ h.id = e.earlier.nextId ∧
        e.later.nextId = e.earlier.nextId + 1) ∨
      e.created? = none ∧ e.later.nextId = e.earlier.nextId := by
  rcases hs.perform e.supply e.request with ⟨o', hstep, hs'⟩
  rw [← houtcome] at hstep hs'
  have hnext : e.later.nextId = e.earlier.nextId + Outline.arrivals e.outcome.result := by
    have hnext' := hstep.nextId_eq
    rwa [hs.1.nextId, hs'.1.nextId] at hnext'
  cases hcreated : e.created? with
  | some h =>
      have hresult := (hs.created?_eq_some_iff houtcome).mp hcreated
      rw [hresult] at hstep hnext
      refine Or.inl ⟨h, rfl, ?_, hnext⟩
      rw [(hstep.begins hs.2).1, hs.1.nextId]
  | none =>
      refine Or.inr ⟨rfl, ?_⟩
      rw [hnext]
      unfold Outline.arrivals
      split
      · rename_i h hresult
        rw [(hs.created?_eq_some_iff houtcome).mpr hresult] at hcreated
        cases hcreated
      · rfl

theorem Shaped.ids (hs : s.Shaped o) (requests : List (Request β × Supply)) :
    (created (s.run requests)).map Handle.id =
      List.range' s.nextId (created (s.run requests)).length := by
  induction requests generalizing s o with
  | nil => rfl
  | cons entry rest ih =>
      rcases entry with ⟨request, supply⟩
      rcases hs.perform supply request with ⟨o', -, hs'⟩
      have hrest := ih hs'
      unfold created at hrest ⊢
      rw [run]
      rcases numbers (e := ⟨s, request, supply, s.perform supply request⟩) hs rfl with
        ⟨h, hcreated, hid, hnext⟩ | ⟨hcreated, hnext⟩
      · change (s.perform supply request).scheduler.nextId = s.nextId + 1 at hnext
        rw [hnext] at hrest
        rw [List.filterMap_cons_some hcreated, List.map_cons, List.length_cons, List.range'_succ,
          hid, hrest]
      · change (s.perform supply request).scheduler.nextId = s.nextId at hnext
        rw [hnext] at hrest
        rw [List.filterMap_cons_none hcreated]
        exact hrest

theorem Shaped.id_inj (hs : s.Shaped o) {entry entry' : Nat × Block β}
    (hentry : entry ∈ s.table.toList) (hentry' : entry' ∈ s.table.toList)
    (hid : entry.2.id = entry'.2.id) : entry = entry' := by
  rcases entry with ⟨slot, b⟩
  rcases entry' with ⟨slot', b'⟩
  have hget := Table.mem_toList.mp hentry
  have hget' := Table.mem_toList.mp hentry'
  have hslot : slot = slot' :=
    hs.2.numbered.unique (hs.get?_bare hget) (hs.get?_bare hget') hid
  subst hslot
  rw [hget] at hget'
  injection hget' with hb
  rw [hb]

/-!
# Beginnings and ends
-/

theorem Shaped.created?_iff (hs : e.earlier.Shaped o)
    (houtcome : e.outcome = e.earlier.perform e.supply e.request) :
    e.created? = some h ↔ ¬ e.earlier.Resolves h ∧ e.later.Resolves h := by
  rcases hs.perform e.supply e.request with ⟨o', hstep, hs'⟩
  rw [created?_eq_some_iff hs houtcome, resolves_iff_life?, resolves_iff_life?]
  have hfate := hs.fate e.supply e.request h
  rw [← houtcome] at hstep hs' hfate
  constructor
  · intro hresult
    rw [hresult] at hstep
    rcases hstep.lookup_of_handle hs.2 with ⟨b, hbegins, hlookup⟩
    have hafter : e.later.life? h = some b.life :=
      (hs'.life?_eq h).symm.trans (Table.life?_of_lookup hlookup)
    refine ⟨?_, by rw [hafter]; rfl⟩
    intro hbefore
    rcases Option.isSome_iff_exists.mp hbefore with ⟨l, hlife⟩
    rw [← hs.life?_eq] at hlife
    have hlt := hs.2.id_lt_of_life? hlife
    rw [(hstep.begins hs.2).1] at hlt
    exact Nat.lt_irrefl _ hlt
  · rintro ⟨hbefore, hafter⟩
    change Outline.Fate o h e.request e.outcome.result _ (e.later.life? h) at hfate
    generalize e.earlier.life? h = before at hbefore hfate
    generalize e.later.life? h = after at hafter hfate
    cases hfate with
    | born _ hresult _ => exact hresult
    | absent => cases hafter
    | kept => exact absurd rfl hbefore
    | joined _ _ _ _ _ => exact absurd rfl hbefore
    | exited _ _ _ => exact absurd rfl hbefore
    | vanished _ _ _ => cases hafter
    | detached _ _ => exact absurd rfl hbefore
    | dropped _ _ => cases hafter
    | delivered _ _ _ _ => cases hafter

theorem Shaped.ends_of_reclaims (hs : e.earlier.Shaped o)
    (houtcome : e.outcome = e.earlier.perform e.supply e.request) (hreclaims : e.Reclaims h) :
    e.earlier.Resolves h ∧ e.later.life? h = none := by
  rcases hs.perform e.supply e.request with ⟨o', hstep, hs'⟩
  rw [← houtcome] at hstep hs'
  have hlater : o'.life? h = none → e.later.life? h = none := (hs'.life?_eq h).symm.trans
  have hearlier : ∀ {l}, o.life? h = some l → e.earlier.Resolves h := by
    intro l hlife
    rw [resolves_iff_life?, ← hs.life?_eq, hlife]
    rfl
  cases hreclaims with
  | delivered hdelivers =>
      rw [Entry.answer?_eq_some_iff.mp hdelivers.2] at hstep
      rcases hstep.life?_of_delivers hs.2 hdelivers.1 with ⟨⟨joiner, hbefore⟩, hafter⟩
      exact ⟨hearlier hbefore, hlater hafter⟩
  | dropped hdetaches hexited =>
      rcases state_eq_ok_iff.mp hexited with ⟨b, hlookup, hstate⟩
      rw [hdetaches.1, Entry.answer?_eq_some_iff.mp hdetaches.2] at hstep
      exact ⟨⟨b, hlookup⟩, hlater (hstep.life?_of_drop (hs.1.lookup_of_lookup hlookup) hstate)⟩
  | vanished hexits hdetached =>
      rcases hexits with ⟨hrunning, hrequest, t, hanswer⟩
      rcases isDetached_eq_ok_iff.mp hdetached with ⟨b, hlookup, hb⟩
      have hlife : o.life? h = some b.life :=
        (hs.life?_eq h).trans (Table.life?_of_lookup hlookup)
      rw [hrequest, Entry.answer?_eq_some_iff.mp hanswer] at hstep
      refine ⟨⟨b, hlookup⟩, hlater ?_⟩
      rcases hstep.life?_of_exit hs.2 ((hs.runs_iff h).mpr hrunning) with
        ⟨joiner, hbefore, -⟩ | ⟨-, hafter⟩
      · rw [hlife] at hbefore
        injection hbefore with hbefore
        have hattached : b.isDetached = false := congrArg Life.detached hbefore
        rw [hb] at hattached
        cases hattached
      · exact hafter

theorem Shaped.reclaims_of_ends (hs : e.earlier.Shaped o)
    (houtcome : e.outcome = e.earlier.perform e.supply e.request) {l : Life}
    (hbefore : e.earlier.life? h = some l) (hafter : e.later.life? h = none) : e.Reclaims h := by
  have hfate := hs.fate e.supply e.request h
  rw [← houtcome] at hfate
  change Outline.Fate o h e.request e.outcome.result _ (e.later.life? h) at hfate
  rcases Option.map_eq_some_iff.mp hbefore with ⟨b, hlookup, hlife⟩
  rw [hbefore, hafter] at hfate
  generalize hb : b.life = life at hlife
  cases hfate with
  | @vanished code t hruns hrequest hresult =>
      refine .vanished ⟨(hs.runs_iff h).mp hruns, hrequest, t,
        Entry.answer?_eq_some_iff.mpr hresult⟩ (isDetached_eq_ok_iff.mpr ⟨b, hlookup, ?_⟩)
      exact congrArg Life.detached (hb.trans hlife)
  | @dropped code hrequest hresult =>
      have hcode : b.exitCode = some code := congrArg Life.exitCode (hb.trans hlife)
      have hexited := (hs.coherent (Table.lookup_eq_some_iff.mp hlookup).1).exitCode.mp
        (by rw [hcode]; rfl)
      exact .dropped ⟨hrequest, Entry.answer?_eq_some_iff.mpr hresult⟩
        (state_eq_ok_iff.mpr ⟨b, hlookup, hexited⟩)
  | @delivered caller target joiner code hruns hfetch hjoiner hresult =>
      exact .delivered ⟨hfetch.joins?_eq, Entry.answer?_eq_some_iff.mpr hresult⟩

/-- A handle resolves if it was just given out, or if its thread was there and was not reclaimed. -/
theorem Shaped.resolves_later_iff (hs : e.earlier.Shaped o)
    (houtcome : e.outcome = e.earlier.perform e.supply e.request) :
    e.later.Resolves h ↔ e.created? = some h ∨ e.earlier.Resolves h ∧ ¬ e.Reclaims h := by
  have hends := hs.ends_of_reclaims (h := h) houtcome
  have hreclaims : ∀ l, e.earlier.life? h = some l → e.later.life? h = none → e.Reclaims h :=
    fun _ => hs.reclaims_of_ends houtcome
  rw [hs.created?_iff houtcome, resolves_iff_life?, resolves_iff_life?]
  cases hbefore : e.earlier.life? h with
  | none => simp
  | some l =>
      cases hafter : e.later.life? h with
      | none => simp [hreclaims l hbefore hafter]
      | some l' =>
          have hkept : ¬ e.Reclaims h := by
            intro hreclaimed
            rw [(hends hreclaimed).2] at hafter
            cases hafter
          simp [hkept]

end Steps

/-!
# Handles along a run
-/

theorem not_outstanding_nil (h : Handle) : ¬ Outstanding ([] : List (Entry β)) h := by
  rintro ⟨before, e, after, hsplit, -⟩
  exact List.append_ne_nil_of_right_ne_nil before (List.cons_ne_nil e after) hsplit.symm

theorem outstanding_concat_iff (history : List (Entry β)) (e : Entry β) (h : Handle) :
    Outstanding (history ++ [e]) h ↔
      e.created? = some h ∨ Outstanding history h ∧ ¬ e.Reclaims h := by
  constructor
  · rintro ⟨before, e', after, hsplit, hcreated, hkept⟩
    rcases List.eq_nil_or_concat after with rfl | ⟨after, last, rfl⟩
    · rcases List.append_inj' hsplit rfl with ⟨-, hlast⟩
      injection hlast with hlast
      rw [hlast]
      exact Or.inl hcreated
    · rw [List.concat_eq_append, ← List.cons_append, ← List.append_assoc] at hsplit
      rcases List.append_inj' hsplit rfl with ⟨hhistory, hlast⟩
      injection hlast with hlast
      rw [List.concat_eq_append] at hkept
      refine Or.inr ⟨⟨before, e', after, hhistory, hcreated, ?_⟩, ?_⟩
      · exact fun e'' he'' => hkept e'' (List.mem_append_left _ he'')
      · rw [hlast]
        exact hkept last (List.mem_append_right _ List.mem_cons_self)
  · rintro (hcreated | ⟨⟨before, e', after, rfl, hcreated, hkept⟩, hlast⟩)
    · exact ⟨history, e, [], rfl, hcreated, fun _ hmem => absurd hmem List.not_mem_nil⟩
    · refine ⟨before, e', after ++ [e], by simp, hcreated, ?_⟩
      intro e'' he''
      rcases List.mem_append.mp he'' with hmem | hmem
      · exact hkept e'' hmem
      · rwa [List.mem_singleton.mp hmem]

section Runs

variable {s : Scheduler β} {o : Outline β} {h : Handle}

theorem Shaped.resolves_iff (hs : s.Shaped o) (hunborn : ∀ h, ¬ s.Resolves h)
    (requests : List (Request β × Supply)) (h : Handle) :
    (s.after requests).Resolves h ↔ Outstanding (s.run requests) h := by
  induction requests using List.reverseRecOn with
  | nil => exact iff_of_false (hunborn h) (not_outstanding_nil h)
  | append_singleton requests entry ih =>
      rcases entry with ⟨request, supply⟩
      rcases hs.after requests with ⟨o', hs'⟩
      rw [run_concat, outstanding_concat_iff, ← ih, after_append]
      exact hs'.resolves_later_iff
        (e := ⟨s.after requests, request, supply, (s.after requests).perform supply request⟩) rfl

theorem Shaped.isSome_current_of_resolves (hs : s.Shaped o) (h' : s.Resolves h) :
    s.current.isSome = true := by
  rcases h' with ⟨b, hlookup⟩
  exact hs.isSome_current_of_get? (Table.lookup_eq_some_iff.mp hlookup).1

theorem Shaped.nextId_le_after (hs : s.Shaped o) (requests : List (Request β × Supply)) :
    s.nextId ≤ (s.after requests).nextId := by
  refine hs.preserved (Q := fun s' => s.nextId ≤ s'.nextId) ?_ (Nat.le_refl _) requests
  intro s' o' supply request hs' hle
  rcases hs'.perform supply request with ⟨o₁, hstep, hs₁⟩
  have hnext := hstep.nextId_le
  rw [hs'.1.nextId, hs₁.1.nextId] at hnext
  exact Nat.le_trans hle hnext

theorem Shaped.gone_of_ends (hs : s.Shaped o) (hbefore : s.Resolves h)
    {requests : List (Request β × Supply)} (hafter : ¬ (s.after requests).Resolves h) :
    (s.after requests).Gone h := by
  rcases Option.isSome_iff_exists.mp (resolves_iff_life?.mp hbefore) with ⟨l, hlife⟩
  rw [← hs.life?_eq] at hlife
  have hid := hs.2.id_lt_of_life? hlife
  rw [hs.1.nextId] at hid
  exact ⟨hs.isSome_current_after (hs.isSome_current_of_resolves hbefore) requests,
    Nat.lt_of_lt_of_le hid (hs.nextId_le_after requests),
    Option.map_eq_none_iff.mpr (not_resolves_iff.mp hafter)⟩

theorem Shaped.not_resolves_again (hs : s.Shaped o) {first next rest : List (Request β × Supply)}
    (hbefore : (s.after first).Resolves h) (hafter : ¬ (s.after (first ++ next)).Resolves h) :
    ¬ (s.after (first ++ next ++ rest)).Resolves h := by
  rcases hs.after first with ⟨o₁, hs₁⟩
  rcases hs.after (first ++ next) with ⟨o₂, hs₂⟩
  rw [after_append] at hafter
  have hgone := hs₁.gone_of_ends hbefore hafter
  rw [← after_append] at hgone
  have hlater := hs₂.preserved
    (fun _ _ supply request hs hgone => hs.gone hgone supply request) hgone rest
  rw [after_append, not_resolves_iff]
  exact Option.map_eq_none_iff.mp hlater.2.2

theorem Shaped.resolvesFaithfully (hs : s.Shaped o) (hunborn : ∀ h, ¬ s.Resolves h)
    (hnext : s.nextId = 1) (requests : List (Request β × Supply)) :
    s.ResolvesFaithfully requests where
  ids := by rw [hs.ids, hnext]
  distinctIds := by
    rcases hs.after requests with ⟨o', hs'⟩
    exact (Table.nodup_toList _).map_on fun _ hentry _ hentry' hid =>
      hs'.id_inj hentry hentry' hid
  distinctHandles := by
    rcases hs.after requests with ⟨o', hs'⟩
    exact (Table.nodup_toList _).map_on fun _ hentry _ hentry' hhandle =>
      hs'.id_inj hentry hentry' (congrArg Handle.id hhandle)
  resolves := hs.resolves_iff hunborn requests
  final := by
    rintro h first next rest rfl hbefore hafter
    exact hs.not_resolves_again hbefore hafter
  refused := by
    intro hadopted h hresolves
    have hinitialized := (hs.current_isSome_iff requests).mpr (Or.inl hadopted)
    have hlookup := not_resolves_iff.mp hresolves
    refine ⟨stale_of_lookup hinitialized hlookup, ?_⟩
    intro supply request htarget
    rw [perform_of_lookup hinitialized hlookup supply htarget]
    rfl

end Runs

/--
Identifiers are given out in order, and a handle stands for its thread as long as
that thread is in the table.  What is asked of a handle afterwards is refused and
changes nothing, whoever has its slot.
-/
theorem resolvesFaithfully_create (config : Config) (requests : List (Request β × Supply)) :
    (create config).ResolvesFaithfully requests := by
  have hcreated : (create config : Scheduler β).Shaped _ := shaped_create config
  refine hcreated.resolvesFaithfully ?_ rfl requests
  intro h hresolves
  cases hcreated.isSome_current_of_resolves hresolves

end Scheduler

end Coop
