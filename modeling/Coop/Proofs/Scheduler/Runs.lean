import Coop.Proofs.Scheduler.Fates

/-!
# Runs

A run keeps every operation with the state it met and the answer it got.  Each
entry of a run from a shaped scheduler is one step, and what every step preserves
holds all along the run.
-/

namespace Coop

open Thread (Block Handle Id Life Spec State Table)

namespace Scheduler

variable {β : Type} {s : Scheduler β} {o : Outline β} {h : Handle}

namespace Entry

variable {e : Entry β}

theorem answer?_eq_some_iff {a : Answer β} : e.answer? = some a ↔ e.outcome.result = .ok a := by
  unfold answer?
  cases e.outcome.result with
  | error cause => simp [Except.toOption]
  | ok a' => simp [Except.toOption]

def Exits (e : Entry β) (h : Handle) (code : Int32) : Prop :=
  e.earlier.running = .ok h ∧ e.request = .exit code ∧ ∃ t, e.answer? = some (.transfer t)

end Entry

theorem run_append (s : Scheduler β) (earlier later : List (Request β × Supply)) :
    s.run (earlier ++ later) = s.run earlier ++ (s.after earlier).run later := by
  induction earlier generalizing s with
  | nil => rfl
  | cons entry rest ih => exact congrArg (List.cons _) (ih _)

theorem run_concat (s : Scheduler β) (requests : List (Request β × Supply)) (request : Request β)
    (supply : Supply) :
    s.run (requests ++ [(request, supply)]) =
      s.run requests ++ [⟨s.after requests, request, supply,
        (s.after requests).perform supply request⟩] :=
  run_append s requests [(request, supply)]

/-- What is before an entry of a run is a run, and so is what is after it. -/
theorem run_eq_append_cons {requests : List (Request β × Supply)} {before after : List (Entry β)}
    {e : Entry β} (hrun : s.run requests = before ++ e :: after) :
    ∃ earlier later, requests = earlier ++ (e.request, e.supply) :: later ∧
      before = s.run earlier ∧ after = e.later.run later ∧ e.earlier = s.after earlier ∧
        e.outcome = e.earlier.perform e.supply e.request := by
  induction before generalizing s requests with
  | nil =>
      cases requests with
      | nil => cases hrun
      | cons entry rest =>
          rcases entry with ⟨request, supply⟩
          injection hrun with hfirst hrest
          subst hfirst
          exact ⟨[], rest, rfl, rfl, hrest.symm, rfl, rfl⟩
  | cons first before ih =>
      cases requests with
      | nil => cases hrun
      | cons entry rest =>
          rcases entry with ⟨request, supply⟩
          injection hrun with hfirst hrest
          rcases ih hrest with ⟨earlier, later, hsplit, hbefore, hafter, hearlier, houtcome⟩
          refine ⟨(request, supply) :: earlier, later, ?_, ?_, hafter, hearlier, houtcome⟩
          · rw [hsplit]
            rfl
          · rw [hbefore, ← hfirst]
            rfl

theorem exists_of_mem_run {requests : List (Request β × Supply)} {e : Entry β}
    (he : e ∈ s.run requests) :
    ∃ before rest, requests = before ++ (e.request, e.supply) :: rest ∧
      e.earlier = s.after before ∧ e.outcome = e.earlier.perform e.supply e.request := by
  rcases List.append_of_mem he with ⟨before, after, hrun⟩
  rcases run_eq_append_cons hrun with ⟨earlier, later, hsplit, -, -, hearlier, houtcome⟩
  exact ⟨earlier, later, hsplit, hearlier, houtcome⟩

theorem reachable_of_mem_run {config : Config} {requests : List (Request β × Supply)} {e : Entry β}
    (he : e ∈ (create config).run requests) :
    e.earlier.Reachable ∧ e.later.Reachable ∧
      e.outcome = e.earlier.perform e.supply e.request := by
  rcases exists_of_mem_run he with ⟨before, rest, -, hearlier, houtcome⟩
  have hreachable : e.earlier.Reachable := ⟨config, before, hearlier⟩
  refine ⟨hreachable, ?_, houtcome⟩
  show e.outcome.scheduler.Reachable
  rw [houtcome]
  exact hreachable.perform e.supply e.request

theorem Shaped.step_of_mem_run (hs : s.Shaped o) {requests : List (Request β × Supply)}
    {e : Entry β} (he : e ∈ s.run requests) :
    ∃ o₁ o₂, e.earlier.Shaped o₁ ∧ e.later.Shaped o₂ ∧
      o₁.Step e.supply e.request e.outcome.result o₂ := by
  rcases exists_of_mem_run he with ⟨before, rest, -, hearlier, houtcome⟩
  rcases hs.after before with ⟨o₁, hs₁⟩
  rw [← hearlier] at hs₁
  rcases hs₁.perform e.supply e.request with ⟨o₂, hstep, hs₂⟩
  rw [← houtcome] at hstep hs₂
  exact ⟨o₁, o₂, hs₁, hs₂, hstep⟩

/-!
# What steps preserve, runs preserve
-/

section Preserved

variable {Q : Scheduler β → Prop}

theorem Shaped.preserved (hQ : ∀ (s : Scheduler β) o supply request, s.Shaped o → Q s →
      Q (s.perform supply request).scheduler)
    (hs : s.Shaped o) (h : Q s) (requests : List (Request β × Supply)) : Q (s.after requests) := by
  induction requests generalizing s o with
  | nil => exact h
  | cons entry rest ih =>
      rcases hs.perform entry.2 entry.1 with ⟨o', -, hs'⟩
      exact ih hs' (hQ s o entry.2 entry.1 hs h)

theorem Shaped.preserved_of_mem_run (hQ : ∀ (s : Scheduler β) o supply request, s.Shaped o → Q s →
      Q (s.perform supply request).scheduler)
    (hs : s.Shaped o) {requests : List (Request β × Supply)} {e : Entry β}
    (he : e ∈ s.run requests) (h : Q e.later) : Q (s.after requests) := by
  rcases exists_of_mem_run he with ⟨before, rest, hsplit, hearlier, houtcome⟩
  rcases hs.step_of_mem_run he with ⟨-, o', -, hs', -⟩
  have hafter : s.after requests = e.later.after rest := by
    rw [hsplit, after_append, after_cons, ← hearlier, ← houtcome]
    rfl
  rw [hafter]
  exact hs'.preserved hQ h rest

theorem Shaped.preserved_earlier (hQ : ∀ (s : Scheduler β) o supply request, s.Shaped o → Q s →
      Q (s.perform supply request).scheduler)
    (hs : s.Shaped o) (h : Q s) {requests : List (Request β × Supply)} {e : Entry β}
    (he : e ∈ s.run requests) : Q e.earlier := by
  rcases exists_of_mem_run he with ⟨before, rest, -, hearlier, -⟩
  rw [hearlier]
  exact hs.preserved hQ h before

/-- When one kind of entry sets up what is preserved, the kind that it excludes never follows. -/
theorem Shaped.pairwise_run (hQ : ∀ (s : Scheduler β) o supply request, s.Shaped o → Q s →
      Q (s.perform supply request).scheduler) {A B : Entry β → Prop}
    (hs : s.Shaped o) {requests : List (Request β × Supply)}
    (hsets : ∀ e ∈ s.run requests, A e → Q e.later)
    (hexcludes : ∀ e ∈ s.run requests, Q e.earlier → ¬ B e) :
    (s.run requests).Pairwise fun e e' => A e → ¬ B e' := by
  induction requests generalizing s o with
  | nil => exact List.Pairwise.nil
  | cons entry rest ih =>
      rcases entry with ⟨request, supply⟩
      rcases hs.perform supply request with ⟨o', -, hs'⟩
      constructor
      · intro e he hfirst
        have hset := hsets _ List.mem_cons_self hfirst
        exact hexcludes e (List.mem_cons_of_mem _ he) (hs'.preserved_earlier hQ hset he)
      · exact ih hs' (fun e he => hsets e (List.mem_cons_of_mem _ he))
          (fun e he => hexcludes e (List.mem_cons_of_mem _ he))

end Preserved

/-- What holds of the first outline and is preserved by steps holds in every reachable state. -/
theorem Reachable.exists_outline {P : Outline β → Prop} (hcreate : ∀ config, P (.create config))
    (hsteps : ∀ {o o' supply request result}, o.Sound → o.Step supply request result o' →
      P o → P o')
    (h : s.Reachable) : ∃ o, s.Shaped o ∧ P o := by
  rcases h with ⟨config, requests, rfl⟩
  refine (shaped_create config).preserved (Q := fun s => ∃ o, s.Shaped o ∧ P o) ?_
    ⟨_, shaped_create config, hcreate config⟩ requests
  rintro s - supply request - ⟨o, hs, ho⟩
  rcases hs.perform supply request with ⟨o', hstep, hs'⟩
  exact ⟨o', hs', hsteps hs.2 hstep ho⟩

/-!
# Exit codes have a history
-/

theorem Shaped.fate (hs : s.Shaped o) (supply : Supply) (request : Request β) (h : Handle) :
    o.Fate h request (s.perform supply request).result (s.life? h)
      ((s.perform supply request).scheduler.life? h) := by
  rcases hs.perform supply request with ⟨o', hstep, hs'⟩
  have hfate := hstep.fate hs.2 h
  rw [hs.life?_eq, hs'.life?_eq] at hfate
  exact hfate

theorem Shaped.exit_of_code (hs : s.Shaped o) {requests : List (Request β × Supply)} {l : Life}
    {code : Int32} (hlife : (s.after requests).life? h = some l) (hcode : l.exitCode = some code) :
    (∃ l₀, s.life? h = some l₀ ∧ l₀.exitCode = some code) ∨
      ∃ e ∈ s.run requests, e.Exits h code := by
  induction requests generalizing s o with
  | nil => exact Or.inl ⟨l, hlife, hcode⟩
  | cons entry rest ih =>
      rcases entry with ⟨request, supply⟩
      rcases hs.perform supply request with ⟨o', hstep, hs'⟩
      rcases ih hs' hlife with hearlier | hlater
      · rcases hearlier with ⟨l₁, hl₁, hcode₁⟩
        have hfate := hs.fate supply request h
        rw [hl₁] at hfate
        generalize hbefore : s.life? h = before at hfate
        generalize hresult : (s.perform supply request).result = result at hfate
        cases hfate with
        | kept => exact Or.inl ⟨l₁, rfl, hcode₁⟩
        | born _ _ _ => cases hcode₁
        | joined _ _ _ _ _ => cases hcode₁
        | @exited joiner code' t hruns hrequest hok =>
            injection hcode₁ with hcode₁
            subst hcode₁
            refine Or.inr ⟨⟨s, request, supply, s.perform supply request⟩, List.mem_cons_self, ?_⟩
            exact ⟨(hs.runs_iff h).mp hruns, hrequest, t,
              Entry.answer?_eq_some_iff.mpr (hresult.trans hok)⟩
        | detached _ _ => cases hcode₁
      · rcases hlater with ⟨e, he, hexits⟩
        exact Or.inr ⟨e, List.mem_cons_of_mem _ he, hexits⟩

theorem Shaped.exits_of_code (hs : s.Shaped o) (hunborn : s.life? h = none)
    {requests : List (Request β × Supply)} {l : Life} {code : Int32}
    (hlife : (s.after requests).life? h = some l) (hcode : l.exitCode = some code) :
    ∃ e ∈ s.run requests, e.Exits h code := by
  rcases hs.exit_of_code hlife hcode with ⟨l₀, hbefore, -⟩ | hexits
  · rw [hunborn] at hbefore
    cases hbefore
  · exact hexits

/-- A handle that was given out and has exited with a code, or is gone. -/
def Spent (s : Scheduler β) (h : Handle) (code : Int32) : Prop :=
  h.id < s.nextId ∧ ∀ l, s.life? h = some l → l.exitCode = some code

theorem Shaped.spent (hs : s.Shaped o) {code : Int32} (hspent : s.Spent h code) (supply : Supply)
    (request : Request β) : (s.perform supply request).scheduler.Spent h code := by
  rcases hs.perform supply request with ⟨o', hstep, hs'⟩
  have hnext := hstep.nextId_le
  rw [hs.1.nextId, hs'.1.nextId] at hnext
  refine ⟨Nat.lt_of_lt_of_le hspent.1 hnext, ?_⟩
  intro l hlife
  have hfate := hs.fate supply request h
  rw [hlife] at hfate
  generalize hbefore : s.life? h = before at hfate
  cases hfate with
  | kept => exact hspent.2 l hbefore
  | born hid _ _ =>
      rw [hs.1.nextId] at hid
      exact absurd hspent.1 (by rw [hid]; exact Nat.lt_irrefl _)
  | joined _ _ _ _ _ => cases hspent.2 _ hbefore
  | exited _ _ _ => cases hspent.2 _ hbefore
  | detached _ _ => cases hspent.2 _ hbefore

theorem Shaped.spent_of_exits (hs : s.Shaped o) {requests : List (Request β × Supply)} {e : Entry β}
    (he : e ∈ s.run requests) {code : Int32} (hexits : e.Exits h code) : e.later.Spent h code := by
  rcases hs.step_of_mem_run he with ⟨o₁, o₂, hs₁, hs₂, hstep⟩
  rcases hexits with ⟨hrunning, hrequest, t, hanswer⟩
  rw [hrequest, Entry.answer?_eq_some_iff.mp hanswer] at hstep
  have hruns := (hs₁.runs_iff h).mpr hrunning
  have hid : h.id < e.later.nextId := by
    rcases hruns with ⟨-, b, hlookup⟩
    have hlife : o₁.life? h = some b.life := Table.life?_of_lookup hlookup
    rw [← hs₂.1.nextId]
    exact Nat.lt_of_lt_of_le (hs₁.2.id_lt_of_life? hlife) hstep.nextId_le
  refine ⟨hid, ?_⟩
  intro l hlife
  rw [← hs₂.life?_eq] at hlife
  rcases hstep.life?_of_exit hs₁.2 hruns with ⟨joiner, -, hafter⟩ | ⟨-, hafter⟩
  · rw [hafter] at hlife
    injection hlife with hlife
    rw [← hlife]
  · rw [hafter] at hlife
    cases hlife

theorem Shaped.code_of_exits (hs : s.Shaped o) {requests : List (Request β × Supply)} {e : Entry β}
    (he : e ∈ s.run requests) {code : Int32} (hexits : e.Exits h code) :
    (s.after requests).Spent h code :=
  hs.preserved_of_mem_run (fun _ _ supply request hs hspent => hs.spent hspent supply request) he
    (hs.spent_of_exits he hexits)

end Scheduler

end Coop
