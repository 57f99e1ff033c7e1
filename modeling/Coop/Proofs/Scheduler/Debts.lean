import Coop.Proofs.Scheduler.BlockedJoin

/-!
# What blocked joiners are owed

A thread whose join blocked is owed the code of its target, as long as it lives
and the target names it.  The debt outlasts every operation of the other threads.
-/

namespace Coop

open Thread (Block Handle Id Life Spec State Table)

namespace Outline

variable {β : Type} {o o' : Outline β} {request : Request β} {result : Except Error (Answer β)}
  {supply : Supply}

theorem Step.runs_of_transfer {t : Transfer}
    (hstep : o.Step supply request (.ok (.transfer t)) o') :
    o'.Runs t.target := by
  cases hstep with
  | idle hidle => cases hidle
  | @switched cur slot rest b c request o₁ hcurrent hget hleaves hready htarget =>
      refine ⟨rfl, c.run, ?_⟩
      have hget' : (o₁.dispatch slot rest).table.get? slot = some c.run := by
        simp [dispatch, htarget]
      exact Table.lookup_of_get? hget'

theorem Step.current_eq (hstep : o.Step supply request result o')
    (hstays : ∀ t, result ≠ .ok (.transfer t)) (hcurrent : o.current.isSome = true) :
    o'.current = o.current := by
  cases hstep with
  | idle hidle => exact hidle.alike.current
  | bootstrapped hnone _ =>
      rw [hnone] at hcurrent
      cases hcurrent
  | spawned _ _ _ => rfl
  | took _ _ => rfl
  | switched _ _ _ _ _ => exact absurd rfl (hstays _)
  | delivered _ _ _ _ _ _ => exact current_reclaim o supply _ _
  | detached _ _ _ _ => rfl
  | dropped _ _ _ _ => exact current_reclaim o supply _ _
  | woken _ => exact wakeAll_current o _

end Outline

namespace Scheduler

variable {β : Type} {s : Scheduler β} {o : Outline β} {h j : Handle} {request : Request β}
  {supply : Supply}

def Alive (s : Scheduler β) (h : Handle) : Prop :=
  ∃ l, s.life? h = some l ∧ l.exitCode = none

/-- A target names a thread that lives as its joiner. -/
structure Owes (s : Scheduler β) (j h : Handle) : Prop where
  target : ∃ x, s.life? h = some ⟨false, some j, x⟩
  joiner : s.Alive j

theorem Alive.exists_lookup (halive : s.Alive h) : ∃ b, s.table.lookup h = some b := by
  rcases halive with ⟨l, hlife, -⟩
  rcases Option.map_eq_some_iff.mp hlife with ⟨b, hlookup, -⟩
  exact ⟨b, hlookup⟩

theorem Alive.running_iff (halive : s.Alive h) : s.running = .ok h ↔ s.current = some h.slot := by
  rw [running_eq_ok_iff]
  exact and_iff_left halive.exists_lookup

namespace Shaped

theorem isSome_current_of_alive (hs : s.Shaped o) (halive : s.Alive h) :
    s.current.isSome = true := by
  rcases halive.exists_lookup with ⟨b, hlookup⟩
  exact hs.isSome_current_of_get? (Table.lookup_eq_some_iff.mp hlookup).1

theorem alive_of_running (hs : s.Shaped o) (hrunning : s.running = .ok h) : s.Alive h := by
  rcases running_eq_ok_iff.mp hrunning with ⟨hcurrent, b, hlookup⟩
  have hget := (Table.lookup_eq_some_iff.mp hlookup).1
  refine ⟨b.life, Table.life?_of_lookup hlookup, ?_⟩
  rcases (hs.running_iff h.slot).mpr hcurrent with ⟨c, hget', hstate⟩
  rw [hget] at hget'
  injection hget' with hbc
  subst hbc
  cases hcode : b.exitCode with
  | none => exact hcode
  | some code =>
      have hexited := (hs.coherent hget).exitCode.mp (by rw [hcode]; rfl)
      rw [hexited] at hstate
      cases hstate

theorem eq_of_id_eq (hs : s.Shaped o) (hj : s.Alive j) (hh : s.Alive h) (hid : j.id = h.id) :
    j = h := by
  rcases hj.exists_lookup with ⟨b, hb⟩
  rcases hh.exists_lookup with ⟨c, hc⟩
  have hb' : o.table.lookup j = some b.bare := by
    rw [hs.1.lookup_eq, hb]
    rfl
  have hc' : o.table.lookup h = some c.bare := by
    rw [hs.1.lookup_eq, hc]
    rfl
  exact hs.2.numbered.eq_of_id_eq hb' hc' hid

theorem alive_perform (hs : s.Shaped o) (halive : s.Alive h)
    (hstays : s.running = .ok h → ∀ code, request = .exit code → ∀ t,
      (s.perform supply request).result ≠ .ok (.transfer t)) :
    (s.perform supply request).scheduler.Alive h := by
  rcases halive with ⟨l, hlife, hcode⟩
  have hfate := hs.fate supply request h
  rw [hlife] at hfate
  generalize hafter : (s.perform supply request).scheduler.life? h = after at hfate
  generalize hresult : (s.perform supply request).result = result at hfate hstays
  cases hfate with
  | kept => exact ⟨l, hafter, hcode⟩
  | joined _ _ _ _ _ => exact ⟨_, hafter, rfl⟩
  | exited hruns hrequest hok =>
      exact absurd hok (hstays ((hs.runs_iff h).mp hruns) _ hrequest _)
  | vanished hruns hrequest hok =>
      exact absurd hok (hstays ((hs.runs_iff h).mp hruns) _ hrequest _)
  | detached _ _ => exact ⟨_, hafter, rfl⟩
  | dropped _ _ => cases hcode
  | delivered _ _ _ _ => cases hcode

theorem current_perform (hs : s.Shaped o) (hcurrent : s.current.isSome = true)
    (hstays : ∀ t, (s.perform supply request).result ≠ .ok (.transfer t)) :
    (s.perform supply request).scheduler.current = s.current := by
  rcases hs.perform supply request with ⟨o', hstep, hs'⟩
  rw [← hs.1.current] at hcurrent
  have hsame := hstep.current_eq hstays hcurrent
  rw [hs.1.current, hs'.1.current] at hsame
  exact hsame

theorem running_perform (hs : s.Shaped o) (hrunning : s.running = .ok h)
    (hstays : ∀ t, (s.perform supply request).result ≠ .ok (.transfer t)) :
    (s.perform supply request).scheduler.running = .ok h := by
  have halive := hs.alive_of_running hrunning
  have hcurrent := hs.current_perform (hs.isSome_current_of_alive halive) hstays
  rw [(hs.alive_perform halive fun _ _ _ => hstays).running_iff, hcurrent]
  exact halive.running_iff.mp hrunning

theorem running_of_transfer (hs : s.Shaped o) {t : Transfer}
    (htransfer : (s.perform supply request).result = .ok (.transfer t)) :
    (s.perform supply request).scheduler.running = .ok t.target := by
  rcases hs.perform supply request with ⟨o', hstep, hs'⟩
  rw [htransfer] at hstep
  exact (hs'.runs_iff t.target).mp hstep.runs_of_transfer

theorem owes_perform (hs : s.Shaped o) (howes : s.Owes j h) (haway : s.running ≠ .ok j) :
    (s.perform supply request).scheduler.Owes j h := by
  constructor
  · rcases howes.target with ⟨x, hlife⟩
    rcases hs.perform supply request with ⟨o', hstep, hs'⟩
    rw [← hs.life?_eq] at hlife
    rcases hstep.reserved hs.2 hlife with hkept | ⟨-, code, t, -, -, -, hexited⟩ |
      ⟨code, -, hruns, -, -⟩
    · exact ⟨x, (hs'.life?_eq h).symm.trans hkept⟩
    · exact ⟨some code, (hs'.life?_eq h).symm.trans hexited⟩
    · exact absurd ((hs.runs_iff j).mp hruns) haway
  · exact hs.alive_perform howes.joiner fun hrunning => absurd hrunning haway

/-- What a joiner can collect stays while it does something else that keeps the processor. -/
theorem completed_perform (hs : s.Shaped o) (supply : Supply) (howes : s.Owes j h)
    (hrunning : s.running = .ok j)
    (hstays : ∀ t, (s.perform supply request).result ≠ .ok (.transfer t))
    (hother : request ≠ .collect h) :
    ∃ code, s.Completed j h code ∧ (s.perform supply request).scheduler.Completed j h code := by
  rcases howes.target with ⟨x, hlife⟩
  rcases hs.completed hrunning hlife with ⟨code, rfl, hcompleted⟩
  rcases hs.perform supply request with ⟨o', hstep, hs'⟩
  have hrunning' := hs.running_perform hrunning hstays
  rw [← hs.life?_eq] at hlife
  rcases hstep.reserved hs.2 hlife with hkept | ⟨hnone, -⟩ | ⟨code', -, -, hrequest, -⟩
  · rw [hs'.life?_eq] at hkept
    rcases hs'.completed hrunning' hkept with ⟨code', hcode, hcompleted'⟩
    injection hcode with hcode
    rw [← hcode] at hcompleted'
    exact ⟨code, hcompleted, hcompleted'⟩
  · cases hnone
  · exact absurd hrequest hother

theorem owes_of_join (hs : s.Shaped o) {t : Transfer}
    (hblocked : (s.perform supply (.join h)).result = .ok (.transfer t)) :
    (s.perform supply (.join h)).scheduler.Owes t.source h := by
  rcases hs.life?_of_join hblocked with ⟨hrunning, hafter⟩
  constructor
  · exact ⟨none, hafter⟩
  · apply hs.alive_perform (hs.alive_of_running hrunning)
    intro _ code hrequest
    cases hrequest

end Shaped

end Scheduler

end Coop
