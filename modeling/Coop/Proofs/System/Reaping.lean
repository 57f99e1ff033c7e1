import Coop.Proofs.Scheduler.Sequels
import Coop.Proofs.System.Calls

/-!
# What is left of threads that exited

A thread that exited stays in the table until its code is fetched.  Its joiner does that
as soon as it has the processor again.  If it has no joiner, any thread that has the
processor can do it, and is never turned away.
-/

namespace Coop

open Thread (Block Handle State Table)

variable {β : Type}

namespace Scheduler

variable {s : Scheduler β} {o : Outline β} {h : Handle} {b : Block β} {code : Int32}
  {supply : Supply}

theorem Shaped.joinable_of_exited (hs : s.Shaped o) (hlookup : s.table.lookup h = some b)
    (hexited : b.state = .exited) (hjoiner : b.joiner = none) :
    ∃ cur, s.current = some cur ∧ s.joinable cur h = .ok b := by
  have hget := (Table.lookup_eq_some_iff.mp hlookup).1
  rcases Option.isSome_iff_exists.mp (hs.isSome_current_of_get? hget) with ⟨cur, hcurrent⟩
  have hslot : h.slot ≠ cur := by
    rintro rfl
    rcases (hs.running_iff h.slot).mpr hcurrent with ⟨c, hget', hrunning⟩
    rw [hget] at hget'
    injection hget' with hsame
    rw [← hsame, hexited] at hrunning
    cases hrunning
  have hattached : b.isDetached = false := (hs.coherent hget).attached hexited
  refine ⟨cur, hcurrent, ?_⟩
  unfold joinable
  simp [hlookup, hslot, hattached, hjoiner]

theorem Shaped.finished?_of_exited (hs : s.Shaped o) (hlookup : s.table.lookup h = some b)
    (hexited : b.state = .exited) : ∃ code, b.exitCode = some code ∧ finished? b = some code := by
  have hcoherent := hs.coherent (Table.lookup_eq_some_iff.mp hlookup).1
  rcases Option.isSome_iff_exists.mp (hcoherent.exitCode.mpr hexited) with ⟨code, hcode⟩
  refine ⟨code, hcode, ?_⟩
  unfold finished?
  rw [if_pos hexited, hcode]

/-- A joiner that has the processor again collects the code, and with it goes the thread. -/
theorem Shaped.collected_of_running (hs : s.Shaped o) {j : Handle} {x : Option Int32}
    (hrunning : s.running = .ok j) (hlife : s.life? h = some ⟨false, some j, x⟩)
    (supply : Supply) :
    ∃ code, x = some code ∧
      ((s.perform supply .completeSwitch).scheduler.collect supply h).result = .ok code ∧
        ¬ ((s.perform supply .completeSwitch).scheduler.collect supply h).scheduler.Resolves h := by
  rcases hs.completed hrunning hlife with ⟨code, hcode, hcompleted⟩
  have hother : (Request.completeSwitch : Request β) ≠ .collect h := by
    intro heq
    cases heq
  rcases hs.completed_perform supply ⟨⟨x, hlife⟩, hs.alive_of_running hrunning⟩ hrunning
    (perform_ne_transfer rfl) hother with ⟨code', hcompleted', hlater⟩
  have hsame : code = code' := by
    have hcollects := (hcompleted.collects supply).symm.trans (hcompleted'.collects supply)
    injection hcollects
  rw [← hsame] at hlater
  exact ⟨code, hcode, hlater.collects supply, not_resolves_iff.mpr (hlater.reclaims supply).1⟩

end Scheduler

namespace System

structure Reaps (s : System β) (supply : Supply) (c : Call β) (h : Handle) (reply : Reply) :
    Prop where
  answer : (s.begin supply c).value = .ended (.answer (.ok reply))
  gone : ¬ (s.begin supply c).system.scheduler.Resolves h

/-- A thread that exited can be joined and detached by whoever has the processor. -/
structure Reapable (s : System β) (h : Handle) (code : Int32) : Prop where
  join : ∀ supply, s.Reaps supply (.join h) h (.code code)
  tryJoin : ∀ supply, s.Reaps supply (.tryJoin h) h (.joinAttempt (some code))
  detach : ∀ supply, s.Reaps supply (.detach h) h .done

variable {s : System β} {o : Outline β} {h : Handle} {b : Block β} {code : Int32}
  {supply : Supply}

theorem answer?_of_ok {α : Type} {request : Request β} {o : Outcome β α} {f : α → Answer β}
    {a : α} (hresult : o.result = .ok a) :
    Scheduler.Entry.answer? ⟨s.scheduler, request, supply, o.map f⟩ = some (f a) :=
  Scheduler.Entry.answer?_eq_some_iff.mpr (Outcome.map_of_ok hresult)

theorem not_resolves_of_reclaims (hs : s.scheduler.Shaped o) {c : Call β} {request : Request β}
    (hrequest : c.request? = some request)
    (hreclaims : Scheduler.Entry.Reclaims
      ⟨s.scheduler, request, supply, s.scheduler.perform supply request⟩ h) :
    ¬ (s.begin supply c).system.scheduler.Resolves h := by
  have hfollows := s.begin_follows supply c
  rw [hrequest] at hfollows
  have hsame : (s.begin supply c).system.scheduler =
    (s.scheduler.perform supply request).scheduler := hfollows
  rw [hsame, Scheduler.resolves_iff_life?]
  have hgone : (s.scheduler.perform supply request).scheduler.life? h = none :=
    (Scheduler.Shaped.ends_of_reclaims hs rfl hreclaims).2
  rw [hgone]
  simp

theorem reapable_of_exited (hs : s.scheduler.Shaped o)
    (hlookup : s.scheduler.table.lookup h = some b) (hexited : b.state = .exited)
    (hjoiner : b.joiner = none) : ∃ code, b.exitCode = some code ∧ s.Reapable h code := by
  rcases hs.joinable_of_exited hlookup hexited hjoiner with ⟨cur, hcurrent, hjoinable⟩
  rcases hs.finished?_of_exited hlookup hexited with ⟨code, hcode, hfinished⟩
  refine ⟨code, hcode, ?_, ?_, ?_⟩
  · intro supply
    have hresult : (s.scheduler.join supply h).result = .ok (.exited code) := by
      simp [Scheduler.join, hcurrent, hjoinable, hfinished, Work.succeed]
    constructor
    · simp [begin, suspending, stage, hresult]
    · exact not_resolves_of_reclaims hs rfl (.delivered ⟨rfl, answer?_of_ok hresult⟩)
  · intro supply
    have hresult : (s.scheduler.tryJoin supply h).result = .ok (some code) := by
      simp [Scheduler.tryJoin, hcurrent, hjoinable, hfinished, Work.succeed]
    constructor
    · simp [begin, direct, stage, hresult, Except.map]
    · exact not_resolves_of_reclaims hs rfl (.delivered ⟨rfl, answer?_of_ok hresult⟩)
  · intro supply
    have hresult : (s.scheduler.detach supply h).result = .ok () := by
      simp [Scheduler.detach, hcurrent, hlookup, hjoiner, Work.succeed]
    constructor
    · simp [begin, direct, stage, hresult, Except.map]
    · exact not_resolves_of_reclaims hs rfl (.dropped ⟨rfl, answer?_of_ok hresult⟩
        (Scheduler.state_eq_ok_iff.mpr ⟨b, hlookup, hexited⟩))

end System

end Coop
