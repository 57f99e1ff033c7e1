import Coop.Proofs.Scheduler.Lifetimes
import Coop.Proofs.Scheduler.Objections

/-!
# A thread that never leaves

A thread that only yields is ready whenever it does not run: nobody else can block it,
end it or take its block away.  As long as there is such a thread the processor can
always be handed on.
-/

namespace Coop

open Thread (Block Handle Spec State Table)

namespace Scheduler

variable {β : Type} {s : Scheduler β} {o : Outline β} {e : Entry β} {h : Handle}

/-- The thread gave up the processor and is not ready. -/
inductive Entry.Quits (e : Entry β) (h : Handle) : Prop where
  | waits {line : Line} : e.Gives h (.wait line) → Quits e h
  | joins {target : Handle} : e.Gives h (.join target) → Quits e h
  | exits {code : Int32} : e.Exits h code → Quits e h

def Upright (s : Scheduler β) (h : Handle) : Prop :=
  s.state h = .ok .ready ∨ s.state h = .ok .running

/-- What a thread that never leaves does for the others. -/
structure Standby (s : Scheduler β) (h : Handle) : Prop where
  upright : s.Upright h
  ready : s.running ≠ .ok h → s.ready.isEmpty = false
  runnable : s.running ≠ .ok h → ∀ supply request,
    (s.perform supply request).result ≠ .error .noRunnableThread

theorem upright_iff : s.Upright h ↔
    ∃ b, s.table.lookup h = some b ∧ (b.state = .ready ∨ b.state = .running) := by
  rw [Upright, state_eq_ok_iff, state_eq_ok_iff]
  constructor
  · rintro (⟨b, hlookup, hstate⟩ | ⟨b, hlookup, hstate⟩)
    · exact ⟨b, hlookup, .inl hstate⟩
    · exact ⟨b, hlookup, .inr hstate⟩
  · rintro ⟨b, hlookup, hstate | hstate⟩
    · exact .inl ⟨b, hlookup, hstate⟩
    · exact .inr ⟨b, hlookup, hstate⟩

theorem Shaped.alive_of_upright (hs : s.Shaped o) (hupright : s.Upright h) : s.Alive h := by
  rcases upright_iff.mp hupright with ⟨b, hlookup, hstate⟩
  apply hs.alive_of_state hlookup
  rcases hstate with hstate | hstate <;> rw [hstate] <;> decide

theorem Shaped.state_eq_running_iff (hs : s.Shaped o) :
    s.state h = .ok .running ↔ s.running = .ok h := by
  rw [state_eq_ok_iff, running_eq_ok_iff, ← hs.running_iff h.slot]
  constructor
  · rintro ⟨b, hlookup, hstate⟩
    exact ⟨⟨b, (Table.lookup_eq_some_iff.mp hlookup).1, hstate⟩, b, hlookup⟩
  · rintro ⟨⟨c, hget, hstate⟩, b, hlookup⟩
    have hget' := (Table.lookup_eq_some_iff.mp hlookup).1
    rw [hget] at hget'
    injection hget' with hsame
    rw [hsame] at hstate
    exact ⟨b, hlookup, hstate⟩

theorem Shaped.ready_of_upright (hs : s.Shaped o) (hupright : s.Upright h)
    (haway : s.running ≠ .ok h) : s.state h = .ok .ready := by
  rcases hupright with hready | hrunning
  · exact hready
  · exact absurd (hs.state_eq_running_iff.mp hrunning) haway

theorem Shaped.upright_of_handle (hs : s.Shaped o) {supply : Supply} {request : Request β}
    (hresult : (s.perform supply request).result = .ok (.handle h)) :
    (s.perform supply request).scheduler.Upright h := by
  rcases hs.perform supply request with ⟨o', hstep, hs'⟩
  rw [hresult] at hstep
  rcases hstep.lookup_of_handle hs.2 with ⟨c, hbegins, hlookup⟩
  have hstate : c.state = .ready ∨ c.state = .running := by
    cases hbegins with
    | main => exact .inr rfl
    | fresh _ => exact .inl rfl
  rw [hs'.1.lookup_eq] at hlookup
  rcases Option.map_eq_some_iff.mp hlookup with ⟨b, hb, rfl⟩
  exact upright_iff.mpr ⟨b, hb, hstate⟩

theorem Entry.Moves.upright {state state' : State} (hmoves : e.Moves h state state')
    (hstays : ¬ e.Quits h) (hstate : state = .ready ∨ state = .running) :
    state' = .ready ∨ state' = .running := by
  cases hmoves with
  | stays => exact hstate
  | yields _ => exact .inl rfl
  | waits hgives => exact absurd (.waits hgives) hstays
  | joins hgives => exact absurd (.joins hgives) hstays
  | exits hexits => exact absurd (.exits hexits) hstays
  | dispatched _ _ _ => exact .inr rfl
  | woken _ _ => exact .inl rfl
  | released _ _ => exact .inl rfl
  | passed _ _ _ _ _ => exact .inr rfl

/-- No operation takes a thread away that does not leave by itself. -/
theorem Shaped.upright_later (hs : e.earlier.Shaped o)
    (houtcome : e.outcome = e.earlier.perform e.supply e.request) (hstays : ¬ e.Quits h)
    (hupright : e.earlier.Upright h) : e.later.Upright h := by
  rcases upright_iff.mp hupright with ⟨b, hlookup, hstate⟩
  have halive : e.later.Alive h := by
    show e.outcome.scheduler.Alive h
    rw [houtcome]
    apply hs.alive_perform (hs.alive_of_upright hupright)
    intro hrunning code hrequest t htransfer
    rw [← houtcome] at htransfer
    exact hstays (.exits ⟨hrunning, hrequest, t, Entry.answer?_eq_some_iff.mpr htransfer⟩)
  rcases halive.exists_lookup with ⟨b', hlater⟩
  have htreats := hs.treats houtcome hlookup hlater
  exact upright_iff.mpr ⟨b', hlater, htreats.state.upright hstays hstate⟩

theorem Shaped.upright_perform (hs : s.Shaped o) (hupright : s.Upright h) {supply : Supply}
    {request : Request β}
    (hstays : s.running = .ok h → ∀ t, (s.perform supply request).result ≠ .ok (.transfer t)) :
    (s.perform supply request).scheduler.Upright h := by
  have hleft : s.running = .ok h →
      (∃ t, Entry.answer? ⟨s, request, supply, s.perform supply request⟩ = some (.transfer t)) →
        False := by
    rintro hrunning ⟨t, hanswer⟩
    exact hstays hrunning t (Entry.answer?_eq_some_iff.mp hanswer)
  refine upright_later (e := ⟨s, request, supply, s.perform supply request⟩) hs rfl ?_ hupright
  intro hquits
  cases hquits with
  | waits hgives => exact hleft hgives.1 hgives.2.2
  | joins hgives => exact hleft hgives.1 hgives.2.2
  | exits hexits => exact hleft hexits.1 hexits.2.2

theorem Shaped.upright_of_exit (hs : s.Shaped o) {supply : Supply} {j : Handle} {code : Int32}
    {t : Transfer} (hrunning : s.running = .ok h) (hlife : s.life? h = some ⟨false, some j, none⟩)
    (hresult : (s.perform supply (.exit code)).result = .ok (.transfer t)) :
    (s.perform supply (.exit code)).scheduler.Upright j := by
  have hawaits : s.Awaits j h := by
    rw [← hs.life?_eq] at hlife
    exact (hs.awaits_iff j h).mp (hs.2.awaits_iff.mpr hlife)
  rcases hs.perform supply (.exit code) with ⟨o', -, hs'⟩
  rcases (hs.wakes hawaits hrunning hresult).2 with hready | hrunning'
  · exact .inl hready
  · exact .inr (hs'.state_eq_running_iff.mpr hrunning')

theorem Shaped.upright_after (hs : s.Shaped o) (hupright : s.Upright h)
    {requests : List (Request β × Supply)} (hstays : ∀ e ∈ s.run requests, ¬ e.Quits h) :
    (s.after requests).Upright h := by
  induction requests generalizing s o with
  | nil => exact hupright
  | cons entry rest ih =>
      rcases entry with ⟨request, supply⟩
      rcases hs.perform supply request with ⟨o', -, hs'⟩
      have hnext : (s.perform supply request).scheduler.Upright h :=
        Shaped.upright_later (e := ⟨s, request, supply, s.perform supply request⟩) hs rfl
          (hstays _ List.mem_cons_self) hupright
      exact ih hs' hnext fun e he => hstays e (List.mem_cons_of_mem _ he)

theorem Shaped.isEmpty_of_noRunnableThread (hs : s.Shaped o) {supply : Supply}
    {request : Request β} (he : (s.perform supply request).result = .error .noRunnableThread) :
    s.ready.isEmpty = true := by
  have hobjection := hs.objection_of_error he
  cases hobjection with
  | stranded _ hempty _ => exact hempty
  | unjoinable _ _ hjoinable =>
      unfold joinable at hjoinable
      repeat' split at hjoinable
      all_goals cases hjoinable

theorem Shaped.standby (hs : s.Shaped o) (hupright : s.Upright h) : s.Standby h := by
  have hready : s.running ≠ .ok h → s.ready.isEmpty = false := by
    intro haway
    rcases state_eq_ok_iff.mp (hs.ready_of_upright hupright haway) with ⟨b, hlookup, hstate⟩
    have hmem := (hs.mem_ready_iff h.slot).mpr
      ⟨b, (Table.lookup_eq_some_iff.mp hlookup).1, hstate⟩
    rw [hs.1.isEmpty_eq, List.isEmpty_eq_false_iff]
    exact List.ne_nil_of_mem hmem
  refine ⟨hupright, hready, ?_⟩
  intro haway supply request herror
  rw [hs.isEmpty_of_noRunnableThread herror] at hready
  cases hready haway

/-- While somebody stands by, every other thread can exit. -/
theorem Shaped.exits_of_standby (hs : s.Shaped o) (hstandby : s.Standby h)
    (haway : s.running ≠ .ok h) (supply : Supply) (code : Int32) :
    ∃ t, (s.exit supply code).result = .ok t := by
  cases hresult : (s.exit supply code).result with
  | ok t => exact ⟨t, rfl⟩
  | error e =>
      have herror : (s.perform supply (.exit code)).result = .error e := by
        show (s.exit supply code).result.map _ = _
        rw [hresult]
        rfl
      have hobjection := hs.objection_of_error herror
      cases hobjection with
      | deserted hcurrent _ =>
          have hsome := hs.isSome_current_of_alive (hs.alive_of_upright hstandby.upright)
          rw [hcurrent] at hsome
          cases hsome
      | stranded _ hempty _ =>
          rw [hstandby.ready haway] at hempty
          cases hempty
      | unjoinable _ hrequest _ => rcases hrequest with hrequest | hrequest <;> cases hrequest
      | stale _ hrequest _ => rcases hrequest with hrequest | hrequest <;> cases hrequest

end Scheduler

end Coop
