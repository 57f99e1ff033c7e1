import Coop.Proofs.Scheduler.Lineups

/-!
# First come, first served

Threads get the processor in the order in which they became ready, over every run:
nobody is overtaken or passed over, and nobody gets the processor twice for having
become ready once.
-/

namespace Coop

open Thread (Block Handle)

namespace Outline

variable {β : Type} {o o' : Outline β} {request : Request β} {supply : Supply} {t : Transfer}

theorem Step.runs_source (hstep : o.Step supply request (.ok (.transfer t)) o') :
    o.Runs t.source := by
  cases hstep with
  | idle hidle => cases hidle
  | @switched cur slot rest b c request o₁ hcurrent hget _ _ _ =>
      exact ⟨hcurrent, b, Thread.Table.lookup_of_get? hget⟩

theorem Step.ready_ne_nil_of_yield (hstep : o.Step supply .yield (.ok (.transfer t)) o') :
    o.ready ≠ [] := by
  cases hstep with
  | idle hidle => cases hidle
  | switched _ _ hleaves _ _ =>
      cases hleaves with
      | yields hready => exact hready

end Outline

namespace Scheduler

variable {β : Type}

structure Entry.Transfers (e : Entry β) (t : Transfer) : Prop where
  source : e.earlier.running = .ok t.source
  target : e.later.running = .ok t.target
  ne : t.target ≠ t.source

/-- All threads that became ready got the processor in that order, but for those still ready. -/
structure FirstInFirstOut (s : Scheduler β) (history : List (Entry β)) : Prop where
  order : ∃ ready, s.ready.Serves s.table ready ∧
    readied [] history = dispatched history ++ ready
  transfers : ∀ e ∈ history, ∀ t, e.answer? = some (.transfer t) → e.Transfers t

variable {e : Entry β} {o : Outline β} {ready : List Handle} {waiting : Line → List Handle}
  {t : Transfer}

theorem target?_of_transfer (hresult : e.outcome.result = .ok (.transfer t)) :
    e.target? = some t.target := by
  rw [Entry.target?, Entry.answer?_eq_some_iff.mpr hresult]
  rfl

theorem Lineup.target_away (hl : e.earlier.Lineup o ready waiting)
    (houtcome : e.outcome = e.earlier.perform e.supply e.request)
    (hresult : e.outcome.result = .ok (.transfer t)) : e.earlier.running ≠ .ok t.target := by
  rcases hl.perform houtcome with ⟨o', ready', hsplit, -⟩
  rw [target?_of_transfer hresult] at hsplit
  cases hready : ready with
  | cons first rest =>
      rw [hready] at hsplit
      injection hsplit with hfirst
      rw [← hfirst]
      exact hl.ready_away (by simp [hready])
  | nil =>
      -- with an empty queue, only a joiner can be next
      have hnext : t.target ∈ e.readied waiting := by
        rw [hready] at hsplit
        simp only [List.nil_append] at hsplit
        simp [hsplit]
      have hjoiner := hl.shaped.alive_of_joiner? (h := t.target)
      rcases hl.shaped.perform e.supply e.request with ⟨o₁, hstep, -⟩
      have hempty : o.ready = [] := by rw [hl.ready, hready, List.map_nil]
      rw [← houtcome] at hstep
      rcases e with ⟨s, request, supply, w, result⟩
      simp only at hresult hstep
      subst hresult
      cases request with
      | yield => exact absurd hempty hstep.ready_ne_nil_of_yield
      | exit code => exact (hjoiner (Option.mem_toList.mp hnext)).2
      | _ => cases hnext

theorem Lineup.transfers (hl : e.earlier.Lineup o ready waiting)
    (houtcome : e.outcome = e.earlier.perform e.supply e.request)
    (hanswer : e.answer? = some (.transfer t)) : e.Transfers t := by
  have hresult := Entry.answer?_eq_some_iff.mp hanswer
  rcases hl.shaped.perform e.supply e.request with ⟨o', hstep, -⟩
  rw [← houtcome, hresult] at hstep
  have hsource := (hl.shaped.runs_iff t.source).mp hstep.runs_source
  constructor
  · exact hsource
  · exact hl.shaped.running_later houtcome hresult
  · intro heq
    have haway := hl.target_away houtcome hresult
    rw [heq] at haway
    exact haway hsource

/-- Every run from a scheduler without threads is first come, first served. -/
theorem firstInFirstOut_create (config : Config) (requests : List (Request β × Supply)) :
    FirstInFirstOut ((create config).after requests) ((create config).run requests) := by
  rcases lineup_create config requests with ⟨o, ready, hreadied, hl⟩
  constructor
  · exact ⟨ready, hl.ready_serves, hreadied⟩
  · intro e he t hanswer
    rcases exists_of_mem_run he with ⟨before, rest, -, hearlier, houtcome⟩
    rcases lineup_create config before with ⟨o', ready', -, hl'⟩
    rw [← hearlier] at hl'
    exact hl'.transfers houtcome hanswer

end Scheduler

end Coop
