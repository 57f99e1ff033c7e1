import Coop.Proofs.Scheduler.Lineups

/-!
# Interrupts wake whom they should

A thread that waits on a line waits there until the line fires, and then it is
ready.  A line that fires wakes all who wait on it, and nobody else.
-/

namespace Coop

open Thread (Block Handle Table)

namespace Outline

variable {β : Type} {o o' : Outline β} {request : Request β} {result : Except Error (Answer β)}
  {supply : Supply}

theorem Step.eq_wakeAll {count : Nat} (hstep : o.Step supply request (.ok (.woken count)) o') :
    ∃ lines, request.lines? = some lines ∧ count = o.waiters lines ∧ o' = o.wakeAll lines := by
  cases hstep with
  | idle hidle => cases hidle
  | @woken request lines hlines => exact ⟨lines, hlines, rfl, rfl⟩

def wokenBy (result : Except Error (Answer β)) : Nat :=
  match result with
  | .ok (.woken count) => count
  | _ => 0

theorem Leaves.wakeups {cur : Nat} {b : Block β} {o₁ : Outline β}
    (hleaves : Leaves supply o cur b request o₁) :
    o₁.counters.interruptWakeups = o.counters.interruptWakeups := by
  cases hleaves with
  | yields _ => rfl
  | parks => rfl
  | exits _ =>
      unfold finish
      cases b.joiner <;> rfl
  | vanishes _ => rw [counters_bury]
  | awaits _ _ _ _ _ => rfl

theorem Step.wakeups (hstep : o.Step supply request result o') :
    o'.counters.interruptWakeups = o.counters.interruptWakeups + wokenBy result := by
  cases hstep with
  | idle hidle =>
      have hnone : wokenBy result = 0 := by cases hidle <;> rfl
      rcases hidle.alike with ⟨_, _, _, _, rfl⟩
      rw [hnone]
      rfl
  | bootstrapped _ _ => rfl
  | spawned _ _ _ => rfl
  | took _ _ => rfl
  | switched _ _ hleaves _ _ => exact hleaves.wakeups
  | delivered _ _ _ _ _ _ =>
      rw [counters_reclaim]
      rfl
  | detached _ _ _ _ => rfl
  | dropped _ _ _ _ =>
      rw [counters_reclaim]
      rfl
  | woken hlines =>
      rw [o.wakeAll_counters (Scheduler.nodup_of_lines? hlines)]
      rfl

end Outline

namespace Scheduler

variable {β : Type}

def Entry.woken (e : Entry β) : Nat :=
  Outline.wokenBy e.outcome.result

def WaitsOn (s : Scheduler β) (h : Handle) (line : Line) : Prop :=
  ∃ b, s.table.lookup h = some b ∧ b.state = .blockedOnInterrupt ∧ b.isWaiting = true ∧
    b.line = some line

/-- The thread is ready, and waits no longer. -/
def Woken (s : Scheduler β) (h : Handle) : Prop :=
  ∃ b, s.table.lookup h = some b ∧ b.state = .ready ∧ b.isWaiting = false ∧ b.line = none

/-- What a report that some lines fired does, where these threads wait. -/
structure Fires (s : Scheduler β) (supply : Supply) (request : Request β) (lines : List Line)
    (waiting : Line → List Handle) : Prop where
  answer : (s.perform supply request).result =
    .ok (.woken (lines.map fun line => (waiting line).length).sum)
  woken : ∀ h, ∀ line ∈ lines, s.WaitsOn h line → (s.perform supply request).scheduler.Woken h
  current : (s.perform supply request).scheduler.current = s.current
  others : ∀ slot,
    (∀ b, s.table.get? slot = some b → ∀ line ∈ lines, ¬ s.WaitsOn ⟨slot, b.id⟩ line) →
    ((s.perform supply request).scheduler.table.get? slot).map Block.bare =
      (s.table.get? slot).map Block.bare

structure WakesFaithfully (s : Scheduler β) (history : List (Entry β)) : Prop where
  /-- Who began to wait on a line since it last fired is in its queue. -/
  queues : ∀ line, (s.waits.bucket line).Serves s.table (waiters history line)
  stays : ∀ h line, s.WaitsOn h line → ∀ requests : List (Request β × Supply),
    (∀ entry ∈ requests, entry.1.covers line = false) → (s.after requests).WaitsOn h line
  ends : ∀ h line, s.WaitsOn h line → ∀ requests : List (Request β × Supply),
    (∀ entry ∈ requests, entry.1.covers line = false) → ∀ supply request,
      request.covers line = true →
        (((s.after requests).perform supply request).scheduler).Woken h
  fires : ∀ supply request lines, request.lines? = some lines →
    s.Fires supply request lines (waiters history)
  counts : s.counters.interruptWakeups = (history.map Entry.woken).sum
  /-- The loop that wakes a line has one iteration for each of its waiters, and ends. -/
  drains : ∀ (w : Work β) line, w.scheduler = s →
    (w.wake line).1 = (waiters history line).length ∧
      w.Drains line (waiters history line).length (w.wake line).2 ∧
        ∀ count w', w.Drains line count w' → count = (waiters history line).length

/-!
# Those who wait
-/

section Waits

variable {s : Scheduler β} {o o' : Outline β} {h : Handle} {line : Line} {request : Request β}

theorem Shaped.waitsOn_iff (hs : s.Shaped o) :
    s.WaitsOn h line ↔ s.Alive h ∧ h.slot ∈ o.waiting line := by
  rw [hs.mem_waiting_iff]
  constructor
  · rintro ⟨b, hlookup, hstate, -, hline⟩
    exact ⟨hs.alive_of_state hlookup (by simp [hstate]), b,
      (Table.lookup_eq_some_iff.mp hlookup).1, hstate, hline⟩
  · rintro ⟨halive, b, hget, hstate, hline⟩
    rcases halive.exists_lookup with ⟨b', hlookup⟩
    have hget' := (Table.lookup_eq_some_iff.mp hlookup).1
    rw [hget] at hget'
    injection hget' with hblock
    subst hblock
    exact ⟨b, hlookup, hstate, (hs.coherent hget).waiting.mpr hstate, hline⟩

theorem Shaped.waitsOn_perform (hs : s.Shaped o) (hwaits : s.WaitsOn h line) (supply : Supply)
    (hcovers : request.covers line = false) :
    (s.perform supply request).scheduler.WaitsOn h line := by
  rcases hs.waitsOn_iff.mp hwaits with ⟨halive, hmem⟩
  rcases hs.perform supply request with ⟨o', hstep, hs'⟩
  have haway : s.running ≠ .ok h := by
    rcases hwaits with ⟨b, hlookup, hstate, -⟩
    exact hs.away_of_state (Table.lookup_eq_some_iff.mp hlookup).1 (by simp [hstate])
  have hqueue := waiting_of_step (e := ⟨s, request, supply, s.perform supply request⟩) hs hstep
    (fun _ hlines => perform_of_lines? s supply hlines) line
  rw [hcovers] at hqueue
  apply hs'.waitsOn_iff.mpr
  constructor
  · exact hs.alive_perform halive fun hrunning => absurd hrunning haway
  · rw [hqueue]
    exact List.mem_append_left _ hmem

theorem Shaped.waitsOn_after (hs : s.Shaped o) (hwaits : s.WaitsOn h line)
    {requests : List (Request β × Supply)}
    (hcovers : ∀ entry ∈ requests, entry.1.covers line = false) :
    (s.after requests).WaitsOn h line := by
  induction requests generalizing s o with
  | nil => exact hwaits
  | cons entry rest ih =>
      rcases hs.perform entry.2 entry.1 with ⟨o', -, hs'⟩
      have hfirst := hs.waitsOn_perform hwaits entry.2 (hcovers entry List.mem_cons_self)
      exact ih hs' hfirst fun entry' hentry => hcovers entry' (List.mem_cons_of_mem _ hentry)

end Waits

/-!
# Lines that fire
-/

section Fires

variable {s : Scheduler β} {o : Outline β} {ready : List Handle} {waiting : Line → List Handle}
  {request : Request β} {lines : List Line} {supply : Supply}

theorem Shaped.wakeAll_of_lines? (hs : s.Shaped o) (supply : Supply)
    (hlines : request.lines? = some lines) :
    (s.perform supply request).result = .ok (.woken (o.waiters lines)) ∧
      (s.perform supply request).scheduler.Shaped (o.wakeAll lines) := by
  rcases perform_of_lines? s supply hlines with ⟨count, hresult⟩
  rcases hs.perform supply request with ⟨o', hstep, hs'⟩
  rw [hresult] at hstep ⊢
  rcases hstep.eq_wakeAll with ⟨lines', hlines', rfl, rfl⟩
  rw [hlines] at hlines'
  injection hlines' with heq
  rw [heq]
  exact ⟨rfl, hs'⟩

theorem Shaped.get?_of_lines? (hs : s.Shaped o) (supply : Supply)
    (hlines : request.lines? = some lines) (slot : Nat) :
    ((s.perform supply request).scheduler.table.get? slot).map Block.bare =
      ((s.table.get? slot).map Block.bare).map fun b =>
        if ∃ line ∈ lines, slot ∈ o.waiting line then b.woken else b := by
  rw [← (hs.wakeAll_of_lines? supply hlines).2.1.get?_eq, o.wakeAll_get? lines slot, hs.1.get?_eq]

theorem Lineup.fires (hl : s.Lineup o ready waiting) (hlines : request.lines? = some lines) :
    s.Fires supply request lines waiting := by
  rcases hl.shaped.wakeAll_of_lines? supply hlines with ⟨hresult, hs'⟩
  have hblocks := hl.shaped.get?_of_lines? supply hlines
  constructor
  · have hwaiters : o.waiters lines = (lines.map fun line => (waiting line).length).sum := by
      rw [o.waiters_eq_sum]
      congr 1
      apply List.map_congr_left
      intro line _
      rw [hl.waiting, List.length_map]
    rw [hresult, hwaiters]
  · intro h line hline hwaits
    rcases hl.shaped.waitsOn_iff.mp hwaits with ⟨-, hmem⟩
    rcases hwaits with ⟨b, hlookup, -⟩
    rcases Table.lookup_eq_some_iff.mp hlookup with ⟨hget, hid⟩
    have hblock := hblocks h.slot
    rw [hget, Option.map_some, Option.map_some, if_pos ⟨line, hline, hmem⟩] at hblock
    rcases Option.map_eq_some_iff.mp hblock with ⟨b', hget', hbare⟩
    have hid' : b'.bare.id = b.bare.woken.id := congrArg Block.id hbare
    have hstate : b'.bare.state = .ready := congrArg Block.state hbare
    have hwaiting : b'.bare.isWaiting = false := congrArg Block.isWaiting hbare
    have hline' : b'.bare.line = none := congrArg Block.line hbare
    exact ⟨b', Table.lookup_eq_some_iff.mpr ⟨hget', hid'.trans hid⟩, hstate, hwaiting, hline'⟩
  · rw [← hs'.1.current, Outline.wakeAll_current, hl.shaped.1.current]
  · intro slot hothers
    have hnone : ¬ ∃ line ∈ lines, slot ∈ o.waiting line := by
      rintro ⟨line, hline, hmem⟩
      rcases (hl.shaped.mem_waiting_iff line slot).mp hmem with ⟨b, hget, hstate, -⟩
      have halive : s.Alive ⟨slot, b.id⟩ :=
        hl.shaped.alive_of_state (Table.lookup_of_get? hget) (by simp [hstate])
      exact hothers b hget line hline (hl.shaped.waitsOn_iff.mpr ⟨halive, hmem⟩)
    rw [hblocks slot]
    simp only [if_neg hnone]
    exact Option.map_id'

theorem Lineup.drains (hl : s.Lineup o ready waiting) {w : Work β} (hw : w.scheduler = s)
    (line : Line) :
    (w.wake line).1 = (waiting line).length ∧
      w.Drains line (waiting line).length (w.wake line).2 ∧
        ∀ count w', w.Drains line count w' → count = (waiting line).length := by
  have hrepresents := hl.shaped.1
  rw [← hw] at hrepresents
  rcases hrepresents.wake hl.shaped.2.toOrderly line with ⟨hdrains, hcount, -⟩
  rw [hl.waiting line, List.length_map] at hdrains hcount
  exact ⟨hcount, hdrains, fun count w' h => (hdrains.unique h).1⟩

theorem wakeups_create (config : Config) (requests : List (Request β × Supply)) :
    ((create config).after requests).counters.interruptWakeups =
      (((create config).run requests).map Entry.woken).sum := by
  induction requests using List.reverseRecOn with
  | nil => rfl
  | append_singleton requests entry ih =>
      rcases entry with ⟨request, supply⟩
      rcases lineup_create config requests with ⟨o, ready, -, hl⟩
      rcases hl.shaped.perform supply request with ⟨o', hstep, hs'⟩
      have hwakeups := hstep.wakeups
      rw [hs'.1.counters, hl.shaped.1.counters, ih] at hwakeups
      rw [run_concat, after_append, List.map_append, List.sum_append]
      exact hwakeups

end Fires

/-- In every run, interrupts lose nobody who waits, and wake nobody else. -/
theorem wakesFaithfully_create (config : Config) (requests : List (Request β × Supply)) :
    ((create config).after requests).WakesFaithfully ((create config).run requests) := by
  rcases lineup_create config requests with ⟨o, ready, -, hl⟩
  constructor
  · exact hl.waiting_serves
  · exact fun h line hwaits more hcovers => hl.shaped.waitsOn_after hwaits hcovers
  · intro h line hwaits more hcovers supply request hfires
    have hstays := hl.shaped.waitsOn_after hwaits hcovers
    rcases lineup_create config (requests ++ more) with ⟨o', ready', -, hl'⟩
    rw [after_append] at hl'
    rcases covers_eq_true_iff.mp hfires with ⟨lines, hlines, hline⟩
    exact (hl'.fires hlines).woken h line hline hstays
  · exact fun supply request lines hlines => hl.fires hlines
  · exact wakeups_create config requests
  · exact fun w line hw => hl.drains hw line

end Scheduler

end Coop
