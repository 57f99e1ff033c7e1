import Mathlib.Data.List.DropRight
import Coop.Proofs.Scheduler.Debts
import Coop.Proofs.Scheduler.ExitCodes
import Coop.Proofs.Scheduler.Waking

/-!
# Who stands in line

The history of a run tells who stands in which queue: a thread joins the queue of
ready threads when an operation makes it ready, and leaves it when a transfer
names it; a thread joins the queue of a line when it begins to wait there, and
leaves it when the line fires.  A slot in a queue belongs to the same thread for as
long as it is queued, so the queues of slots are queues of threads.
-/

namespace Coop

open Thread (Block Handle Id Life Queue Spec State Table)

def Request.covers {β : Type} (request : Request β) (line : Line) : Bool :=
  (request.lines?.getD []).contains line

/-- A queue will serve these threads, in this order, and each of them is there. -/
structure Thread.Queue.Serves {β : Type} {lane : Lane} (q : Queue lane) (t : Table β)
    (threads : List Handle) : Prop where
  visits : q.Visits t (threads.map Handle.slot)
  present : ∀ h ∈ threads, ∃ b, t.lookup h = some b

namespace Scheduler

variable {β : Type}

/-!
# What histories say
-/

namespace Entry

def caller? (e : Entry β) : Option Handle :=
  e.earlier.running.toOption

def target? (e : Entry β) : Option Handle :=
  (e.answer?.bind Answer.transfer?).map Transfer.target

def parked? (e : Entry β) (line : Line) : Option Handle :=
  match e.request, e.outcome.result with
  | .wait on, .ok _ => if on = line then e.caller? else none
  | _, _ => none

def joiner? (e : Entry β) : Option Handle :=
  e.caller?.bind fun h => (e.earlier.table.lookup h).bind Block.joiner

/-- The threads that became ready, first the one that joined the queue first. -/
def readied (e : Entry β) (waiting : Line → List Handle) : List Handle :=
  match e.request, e.outcome.result with
  | .spawn _ _, .ok (.handle h) => [h]
  | .yield, .ok (.transfer _) => e.caller?.toList
  | .exit _, .ok (.transfer _) => e.joiner?.toList
  | .interrupt line, .ok (.woken _) => waiting line
  | .interrupts mask, .ok (.woken _) => mask.lines.flatMap waiting
  | _, _ => []

end Entry

/-- The threads that began to wait on a line after it last fired, in that order. -/
def waiters (history : List (Entry β)) (line : Line) : List Handle :=
  (history.rtakeWhile fun e => !e.request.covers line).filterMap fun e => e.parked? line

def readied (past : List (Entry β)) : List (Entry β) → List Handle
  | [] => []
  | e :: rest => e.readied (waiters past) ++ readied (past ++ [e]) rest

def dispatched (history : List (Entry β)) : List Handle :=
  history.filterMap Entry.target?

theorem waiters_concat (history : List (Entry β)) (e : Entry β) :
    waiters (history ++ [e]) = fun line =>
      if e.request.covers line = true then []
      else waiters history line ++ (e.parked? line).toList := by
  funext line
  unfold waiters
  cases hcovers : e.request.covers line with
  | true => simp [hcovers]
  | false =>
      rw [List.rtakeWhile_concat_pos _ _ _ (by simp [hcovers])]
      cases hparked : e.parked? line <;> simp [hparked]

theorem readied_concat (past history : List (Entry β)) (e : Entry β) :
    readied past (history ++ [e]) =
      readied past history ++ e.readied (waiters (past ++ history)) := by
  induction history generalizing past with
  | nil => simp [readied]
  | cons first history ih => simp [readied, ih, List.append_assoc]

theorem dispatched_concat (history : List (Entry β)) (e : Entry β) :
    dispatched (history ++ [e]) = dispatched history ++ e.target?.toList := by
  unfold dispatched
  cases htarget : e.target? <;> simp [htarget]

/-!
# What a step does to the queues
-/

theorem covers_eq_true_iff {request : Request β} {line : Line} :
    request.covers line = true ↔ ∃ lines, request.lines? = some lines ∧ line ∈ lines := by
  unfold Request.covers
  cases request.lines? <;> simp

theorem nodup_of_lines? {request : Request β} {lines : List Line}
    (h : request.lines? = some lines) : lines.Nodup := by
  rcases Request.eq_of_lines? h with ⟨line, rfl, rfl⟩ | ⟨mask, rfl, rfl⟩
  · exact List.nodup_singleton line
  · exact (List.nodup_finRange 32).filter _

theorem perform_of_lines? {request : Request β} {lines : List Line} (s : Scheduler β)
    (supply : Supply) (h : request.lines? = some lines) :
    ∃ count, (s.perform supply request).result = .ok (.woken count) := by
  rcases Request.eq_of_lines? h with ⟨line, rfl, rfl⟩ | ⟨mask, rfl, rfl⟩
  · exact ⟨_, rfl⟩
  · exact ⟨_, rfl⟩

section Step

variable {o o' : Outline β} {e : Entry β} {waiting : Line → List Handle}

theorem caller?_eq (hs : e.earlier.Shaped o) {cur : Nat} {b : Block β}
    (hcurrent : o.current = some cur) (hget : o.table.get? cur = some b) :
    e.caller? = some ⟨cur, b.id⟩ := by
  have hrunning : e.earlier.running = .ok ⟨cur, b.id⟩ :=
    (hs.runs_iff _).mp ⟨hcurrent, b, Table.lookup_of_get? hget⟩
  rw [Entry.caller?, hrunning]
  rfl

theorem joiner?_eq (hs : e.earlier.Shaped o) {cur : Nat} {b : Block β}
    (hcurrent : o.current = some cur) (hget : o.table.get? cur = some b) :
    e.joiner? = b.joiner := by
  have hlookup := hs.1.lookup_eq ⟨cur, b.id⟩
  rw [Table.lookup_of_get? hget] at hlookup
  rcases Option.map_eq_some_iff.mp hlookup.symm with ⟨b', hb', rfl⟩
  rw [Entry.joiner?, caller?_eq hs hcurrent hget, Option.bind_some, hb']
  rfl

theorem readied_of_idle (hidle : o.Idle e.supply e.request e.outcome.result o') :
    e.readied waiting = [] ∧ e.target? = none := by
  rcases e with ⟨earlier, request, supply, w, result⟩
  cases hidle with
  | failed => exact ⟨by cases request <;> rfl, rfl⟩
  | noRoom _ => exact ⟨by cases request <;> rfl, rfl⟩
  | noStack _ => exact ⟨rfl, rfl⟩
  | noBody _ => exact ⟨rfl, rfl⟩
  | stayed _ => exact ⟨rfl, rfl⟩
  | polled => exact ⟨rfl, rfl⟩
  | settled => exact ⟨rfl, rfl⟩

theorem ready_of_leaves (hs : e.earlier.Shaped o) {cur : Nat} {b : Block β} {o₁ : Outline β}
    {t : Transfer} (hcurrent : o.current = some cur) (hget : o.table.get? cur = some b)
    (hleaves : o.Leaves e.supply cur b e.request o₁)
    (hresult : e.outcome.result = .ok (.transfer t)) :
    o₁.ready = o.ready ++ (e.readied waiting).map Handle.slot := by
  have hcaller := caller?_eq hs hcurrent hget
  have hjoiner := joiner?_eq hs hcurrent hget
  rcases e with ⟨earlier, request, supply, w, result⟩
  simp only at hleaves hresult
  subst hresult
  cases hleaves with
  | yields _ =>
      simp only [Entry.readied, hcaller]
      rfl
  | parks => exact (List.append_nil _).symm
  | exits _ =>
      simp only [Entry.readied, hjoiner]
      unfold Outline.finish
      cases b.joiner with
      | none => exact (List.append_nil _).symm
      | some j => rfl
  | vanishes hdetached =>
      have hnone : b.joiner = none := (hs.2.placed.coherent hget).unjoined hdetached
      simp only [Entry.readied, hjoiner, hnone]
      rw [Outline.ready_bury]
      exact (List.append_nil _).symm
  | awaits _ _ _ _ _ => exact (List.append_nil _).symm

theorem ready_of_step (hs : e.earlier.Shaped o)
    (hstep : o.Step e.supply e.request e.outcome.result o')
    (hwaiting : ∀ line, o.waiting line = (waiting line).map Handle.slot) :
    o.ready ++ (e.readied waiting).map Handle.slot =
      (e.target?.toList).map Handle.slot ++ o'.ready := by
  -- both are said of the whole entry, which is taken apart before the cases
  have hleft : ∀ {cur : Nat} {b : Block β} {o₁ : Outline β} {t : Transfer}, o.current = some cur →
      o.table.get? cur = some b → o.Leaves e.supply cur b e.request o₁ →
        e.outcome.result = .ok (.transfer t) →
          o₁.ready = o.ready ++ (e.readied waiting).map Handle.slot :=
    ready_of_leaves hs
  have hidle : o.Idle e.supply e.request e.outcome.result o' →
      e.readied waiting = [] ∧ e.target? = none :=
    readied_of_idle
  rcases e with ⟨earlier, request, supply, w, result⟩
  simp only at hstep hs hleft hidle
  cases hstep with
  | idle hidle' =>
      rcases hidle hidle' with ⟨hreadied, htarget⟩
      rcases hidle'.alike with ⟨_, _, _, _, rfl⟩
      rw [hreadied, htarget]
      exact List.append_nil _
  | bootstrapped _ _ => exact List.append_nil _
  | @spawned cur spec body stack _ _ _ =>
      have halike :=
        (Outline.Alike.reserve o supply).allocate supply (o.config.stackSize spec.stackSize)
      rw [← halike.nextSlot]
      rfl
  | took _ _ => exact List.append_nil _
  | switched hcurrent hget hleaves hready _ =>
      have hqueue := hleft hcurrent hget hleaves rfl
      rw [hready] at hqueue
      exact hqueue.symm
  | delivered _ _ _ hfetch _ _ =>
      rw [Outline.ready_reclaim]
      cases hfetch with
      | join _ _ _ => exact List.append_nil _
      | tryJoin _ _ _ => exact List.append_nil _
      | collect _ => exact List.append_nil _
  | detached _ _ _ _ => exact List.append_nil _
  | dropped _ _ _ _ =>
      rw [Outline.ready_reclaim]
      exact List.append_nil _
  | @woken request lines hlines =>
      have hready := o.wakeAll_ready (nodup_of_lines? hlines)
      have hslots : lines.flatMap o.waiting = (lines.flatMap waiting).map Handle.slot := by
        rw [List.map_flatMap]
        exact List.flatMap_congr fun line _ => hwaiting line
      rw [hready, hslots]
      rcases Request.eq_of_lines? hlines with ⟨line, rfl, rfl⟩ | ⟨mask, rfl, rfl⟩
      · rw [List.flatMap_singleton]
        rfl
      · rfl

theorem parked?_of_idle (hidle : o.Idle e.supply e.request e.outcome.result o') (line : Line) :
    e.parked? line = none := by
  rcases e with ⟨earlier, request, supply, w, result⟩
  cases hidle with
  | failed => cases request <;> rfl
  | noRoom _ => cases request <;> rfl
  | noStack _ => rfl
  | noBody _ => rfl
  | stayed _ => rfl
  | polled => rfl
  | settled => rfl

theorem waiting_of_leaves (hs : e.earlier.Shaped o) {cur : Nat} {b : Block β} {o₁ : Outline β}
    {t : Transfer} (hcurrent : o.current = some cur) (hget : o.table.get? cur = some b)
    (hleaves : o.Leaves e.supply cur b e.request o₁)
    (hresult : e.outcome.result = .ok (.transfer t))
    (line : Line) :
    e.request.covers line = false ∧
      o₁.waiting line = o.waiting line ++ ((e.parked? line).toList).map Handle.slot := by
  have hcaller := caller?_eq hs hcurrent hget
  rcases e with ⟨earlier, request, supply, w, result⟩
  simp only at hleaves hresult
  subst hresult
  cases hleaves with
  | yields _ => exact ⟨rfl, (List.append_nil _).symm⟩
  | @parks on =>
      refine ⟨rfl, ?_⟩
      simp only [Entry.parked?, hcaller, Outline.park]
      cases hline : decide (on = line) with
      | true =>
          have heq := of_decide_eq_true hline
          rw [heq, Function.update_self, if_pos rfl]
          rfl
      | false =>
          have hne := of_decide_eq_false hline
          rw [Function.update_of_ne (Ne.symm hne), if_neg hne]
          exact (List.append_nil _).symm
  | exits _ =>
      refine ⟨rfl, ?_⟩
      unfold Outline.finish
      cases b.joiner with
      | none => exact (List.append_nil _).symm
      | some j => exact (List.append_nil _).symm
  | vanishes _ =>
      refine ⟨rfl, ?_⟩
      rw [Outline.waiting_bury]
      exact (List.append_nil _).symm
  | awaits _ _ _ _ _ => exact ⟨rfl, (List.append_nil _).symm⟩

theorem waiting_of_step (hs : e.earlier.Shaped o)
    (hstep : o.Step e.supply e.request e.outcome.result o')
    (hwoken : ∀ lines, e.request.lines? = some lines →
      ∃ count, e.outcome.result = .ok (.woken count))
    (line : Line) :
    o'.waiting line =
      if e.request.covers line = true then []
      else o.waiting line ++ ((e.parked? line).toList).map Handle.slot := by
  have hleft : ∀ {cur : Nat} {b : Block β} {o₁ : Outline β} {t : Transfer}, o.current = some cur →
      o.table.get? cur = some b → o.Leaves e.supply cur b e.request o₁ →
        e.outcome.result = .ok (.transfer t) → ∀ line, e.request.covers line = false ∧
          o₁.waiting line = o.waiting line ++ ((e.parked? line).toList).map Handle.slot :=
    waiting_of_leaves hs
  have hidle : o.Idle e.supply e.request e.outcome.result o' → ∀ line, e.parked? line = none :=
    parked?_of_idle
  rcases e with ⟨earlier, request, supply, w, result⟩
  simp only at hstep hs hleft hidle hwoken ⊢
  cases hstep with
  | idle hidle' =>
      have hcovers : request.covers line = false := by
        rw [← Bool.not_eq_true, covers_eq_true_iff]
        rintro ⟨lines, hlines, -⟩
        rcases hwoken lines hlines with ⟨count, hcount⟩
        rw [hcount] at hidle'
        cases hidle'
      rcases hidle'.alike with ⟨_, _, _, _, rfl⟩
      rw [hcovers, hidle hidle' line]
      exact (List.append_nil _).symm
  | bootstrapped _ _ => exact (List.append_nil _).symm
  | spawned _ _ _ => exact (List.append_nil _).symm
  | took _ _ => exact (List.append_nil _).symm
  | switched hcurrent hget hleaves _ _ =>
      rcases hleft hcurrent hget hleaves rfl line with ⟨hcovers, hqueue⟩
      rw [hcovers]
      exact hqueue
  | delivered _ _ _ hfetch _ _ =>
      rw [Outline.waiting_reclaim]
      cases hfetch with
      | join _ _ _ => exact (List.append_nil _).symm
      | tryJoin _ _ _ => exact (List.append_nil _).symm
      | collect _ => exact (List.append_nil _).symm
  | detached _ _ _ _ => exact (List.append_nil _).symm
  | dropped _ _ _ _ =>
      rw [Outline.waiting_reclaim]
      exact (List.append_nil _).symm
  | @woken request lines hlines =>
      have hparked : (⟨earlier, request, supply, w, .ok (.woken (o.waiters lines))⟩ :
          Entry β).parked? line = none := by
        rcases Request.eq_of_lines? hlines with ⟨_, rfl, -⟩ | ⟨_, rfl, -⟩ <;> rfl
      have hcovers : request.covers line = decide (line ∈ lines) := by
        simp [Request.covers, hlines]
      rw [o.wakeAll_waiting lines line, hparked, hcovers]
      simp

end Step

/-!
# Queues of threads
-/

/-- These threads stand in the queues of a shaped scheduler. -/
structure Lineup (s : Scheduler β) (o : Outline β) (ready : List Handle)
    (waiting : Line → List Handle) : Prop where
  shaped : s.Shaped o
  readyAlive : ∀ h ∈ ready, s.Alive h
  waitingAlive : ∀ line, ∀ h ∈ waiting line, s.Alive h
  ready : o.ready = ready.map Handle.slot
  waiting : ∀ line, o.waiting line = (waiting line).map Handle.slot

section Lineup

variable {s : Scheduler β} {o o' : Outline β} {ready : List Handle} {waiting : Line → List Handle}
  {h : Handle}

theorem Alive.eq_of_slot_eq {h' : Handle} (hh : s.Alive h) (hh' : s.Alive h')
    (hslot : h.slot = h'.slot) : h = h' := by
  rcases hh.exists_lookup with ⟨b, hb⟩
  rcases hh'.exists_lookup with ⟨b', hb'⟩
  rcases Table.lookup_eq_some_iff.mp hb with ⟨hget, hid⟩
  rcases Table.lookup_eq_some_iff.mp hb' with ⟨hget', hid'⟩
  rw [← hslot, hget] at hget'
  injection hget' with hblock
  rcases h with ⟨slot, id⟩
  rcases h' with ⟨slot', id'⟩
  simp only at hslot hid hid'
  rw [hslot, ← hid, ← hid', hblock]

theorem Shaped.alive_of_state (hs : s.Shaped o) {b : Block β} (hlookup : s.table.lookup h = some b)
    (hstate : b.state ≠ .exited) : s.Alive h := by
  have hcode : b.exitCode = none := by
    rw [← Option.not_isSome_iff_eq_none]
    intro hsome
    exact hstate ((hs.coherent (Table.lookup_eq_some_iff.mp hlookup).1).exitCode.mp hsome)
  exact ⟨b.life, Table.life?_of_lookup hlookup, hcode⟩

theorem Shaped.away_of_state (hs : s.Shaped o) {b : Block β} (hget : s.table.get? h.slot = some b)
    (hstate : b.state ≠ .running) : s.running ≠ .ok h := by
  intro hrunning
  have hcurrent := (running_eq_ok_iff.mp hrunning).1
  rcases (hs.running_iff h.slot).mpr hcurrent with ⟨b', hget', hstate'⟩
  rw [hget] at hget'
  injection hget' with hblock
  rw [← hblock] at hstate'
  exact hstate hstate'

namespace Lineup

theorem ready_away (hl : s.Lineup o ready waiting) (hh : h ∈ ready) : s.running ≠ .ok h := by
  have hmem : h.slot ∈ o.ready := by
    rw [hl.ready]
    exact List.mem_map_of_mem hh
  rcases (hl.shaped.mem_ready_iff h.slot).mp hmem with ⟨b, hget, hstate⟩
  exact hl.shaped.away_of_state hget (by simp [hstate])

theorem waiting_away (hl : s.Lineup o ready waiting) {line : Line} (hh : h ∈ waiting line) :
    s.running ≠ .ok h := by
  have hmem : h.slot ∈ o.waiting line := by
    rw [hl.waiting]
    exact List.mem_map_of_mem hh
  rcases (hl.shaped.mem_waiting_iff line h.slot).mp hmem with ⟨b, hget, hstate, -⟩
  exact hl.shaped.away_of_state hget (by simp [hstate])

theorem ready_serves (hl : s.Lineup o ready waiting) : s.ready.Serves s.table ready := by
  have hvisits := (hl.shaped.1.ready.holds ()).visits
  rw [hl.ready] at hvisits
  exact ⟨hvisits, fun h hh => (hl.readyAlive h hh).exists_lookup⟩

theorem waiting_serves (hl : s.Lineup o ready waiting) (line : Line) :
    (s.waits.bucket line).Serves s.table (waiting line) := by
  have hvisits := (hl.shaped.1.waiting.holds line).visits
  rw [hl.waiting] at hvisits
  exact ⟨hvisits, fun h hh => (hl.waitingAlive line h hh).exists_lookup⟩

end Lineup

section Entry

variable {e : Entry β}

theorem running_of_caller? (hcaller : e.caller? = some h) : e.earlier.running = .ok h := by
  unfold Entry.caller? at hcaller
  cases hrunning : e.earlier.running with
  | error cause =>
      rw [hrunning] at hcaller
      cases hcaller
  | ok caller =>
      rw [hrunning] at hcaller
      injection hcaller with hcaller
      rw [hcaller]

theorem result_of_target? (htarget : e.target? = some h) :
    ∃ t, e.outcome.result = .ok (.transfer t) ∧ t.target = h := by
  rcases Option.map_eq_some_iff.mp htarget with ⟨t, ht, rfl⟩
  rcases Option.bind_eq_some_iff.mp ht with ⟨answer, hanswer, htransfer⟩
  rw [Entry.answer?_eq_some_iff] at hanswer
  cases answer with
  | transfer t' =>
      injection htransfer with htransfer
      exact ⟨t, by rw [hanswer, htransfer], rfl⟩
  | _ => cases htransfer

theorem Shaped.alive_later (hs : e.earlier.Shaped o)
    (houtcome : e.outcome = e.earlier.perform e.supply e.request) (halive : e.earlier.Alive h)
    (haway : e.earlier.running ≠ .ok h) : e.later.Alive h := by
  unfold Entry.later
  rw [houtcome]
  exact hs.alive_perform halive fun hrunning => absurd hrunning haway

theorem Shaped.running_later (hs : e.earlier.Shaped o)
    (houtcome : e.outcome = e.earlier.perform e.supply e.request) {t : Transfer}
    (hresult : e.outcome.result = .ok (.transfer t)) : e.later.running = .ok t.target := by
  unfold Entry.later
  rw [houtcome] at hresult ⊢
  exact hs.running_of_transfer hresult

theorem Shaped.alive_of_joiner? (hs : e.earlier.Shaped o) (hjoiner : e.joiner? = some h) :
    e.earlier.Alive h ∧ e.earlier.running ≠ .ok h := by
  rcases Option.bind_eq_some_iff.mp hjoiner with ⟨caller, hcaller, hbind⟩
  rcases Option.bind_eq_some_iff.mp hbind with ⟨b, hlookup, hb⟩
  have hget := (Table.lookup_eq_some_iff.mp hlookup).1
  have hcurrent := (running_eq_ok_iff.mp (running_of_caller? hcaller)).1
  rcases (hs.running_iff caller.slot).mpr hcurrent with ⟨b', hget', hstate⟩
  rw [hget] at hget'
  injection hget' with hblock
  subst hblock
  rcases hs.blocked_of_joiner hget hb (by simp [hstate]) with ⟨c, hc, hblocked⟩
  constructor
  · exact hs.alive_of_state hc (by simp [hblocked])
  · exact hs.away_of_state (Table.lookup_eq_some_iff.mp hc).1 (by simp [hblocked])

end Entry

theorem Lineup.readied_alive {e : Entry β} (hl : e.earlier.Lineup o ready waiting)
    (houtcome : e.outcome = e.earlier.perform e.supply e.request) (hh : h ∈ e.readied waiting) :
    e.later.Alive h := by
  have hstays := hl.shaped.alive_later (h := h) houtcome
  have hjoiner := hl.shaped.alive_of_joiner? (h := h)
  have hcaller := running_of_caller? (e := e) (h := h)
  rcases hl.shaped.perform e.supply e.request with ⟨o', hstep, hs'⟩
  rcases e with ⟨s, request, supply, outcome⟩
  simp only at houtcome
  subst houtcome
  unfold Entry.readied at hh
  simp only at hh hstep hs' hcaller
  split at hh
  · rename_i hresult
    have hnew := List.mem_singleton.mp hh
    rw [hresult, ← hnew] at hstep
    have hlife := (hstep.life?_of_spawn hl.shaped.2).2
    rw [hs'.life?_eq] at hlife
    exact ⟨_, hlife, rfl⟩
  · have hrunning := hcaller (Option.mem_toList.mp hh)
    exact hl.shaped.alive_perform (hl.shaped.alive_of_running hrunning)
      fun _ code hexit => by cases hexit
  · rcases hjoiner (Option.mem_toList.mp hh) with ⟨halive, haway⟩
    exact hstays halive haway
  · exact hstays (hl.waitingAlive _ h hh) (hl.waiting_away hh)
  · rcases List.mem_flatMap.mp hh with ⟨line, -, hline⟩
    exact hstays (hl.waitingAlive line h hline) (hl.waiting_away hline)
  · cases hh

theorem Lineup.parked_alive {e : Entry β} (hl : e.earlier.Lineup o ready waiting)
    (houtcome : e.outcome = e.earlier.perform e.supply e.request) {line : Line}
    (hh : e.parked? line = some h) : e.later.Alive h := by
  have hcaller := running_of_caller? (e := e) (h := h)
  rcases e with ⟨s, request, supply, outcome⟩
  simp only at houtcome
  subst houtcome
  unfold Entry.parked? at hh
  split at hh
  · rename_i hrequest hresult
    simp only at hrequest
    subst hrequest
    split at hh
    · have hrunning := hcaller hh
      exact hl.shaped.alive_perform (hl.shaped.alive_of_running hrunning)
        fun _ code hexit => by cases hexit
    · cases hh
  · cases hh

/--
The law of lines: the ready queue grows at its back by who became ready and
shrinks at its front by who got the processor, and the queue of a line grows by who
began to wait until the line fires.
-/
theorem Lineup.perform {e : Entry β} (hl : e.earlier.Lineup o ready waiting)
    (houtcome : e.outcome = e.earlier.perform e.supply e.request) :
    ∃ o' ready', ready ++ e.readied waiting = e.target?.toList ++ ready' ∧
      e.later.Lineup o' ready' fun line =>
        if e.request.covers line = true then [] else waiting line ++ (e.parked? line).toList := by
  rcases hl.shaped.perform e.supply e.request with ⟨o', hstep, hs'⟩
  have hstays : ∀ h, e.earlier.Alive h → e.earlier.running ≠ .ok h → e.later.Alive h :=
    fun _ => hl.shaped.alive_later houtcome
  have hrunner : ∀ h, e.target? = some h → e.later.running = .ok h := by
    intro h htarget
    rcases result_of_target? htarget with ⟨t, hresult, rfl⟩
    exact hl.shaped.running_later houtcome hresult
  have hwoken : ∀ lines, e.request.lines? = some lines →
      ∃ count, e.outcome.result = .ok (.woken count) := by
    intro lines hlines
    rw [houtcome]
    exact perform_of_lines? e.earlier e.supply hlines
  rw [← houtcome] at hstep hs'
  have hready := ready_of_step hl.shaped hstep hl.waiting
  have hwaiting := waiting_of_step hl.shaped hstep hwoken
  have halive : ∀ h ∈ ready ++ e.readied waiting, e.later.Alive h := by
    intro h hh
    rcases List.mem_append.mp hh with hold | hnew
    · exact hstays h (hl.readyAlive h hold) (hl.ready_away hold)
    · exact hl.readied_alive houtcome hnew
  rw [hl.ready, ← List.map_append] at hready
  have hqueue : ∃ ready', ready ++ e.readied waiting = e.target?.toList ++ ready' ∧
      o'.ready = ready'.map Handle.slot := by
    cases htarget : e.target? with
    | none =>
        rw [htarget] at hready
        exact ⟨_, rfl, hready.symm⟩
    | some target =>
        rw [htarget] at hready
        rcases List.map_eq_cons_iff.mp hready with ⟨first, ready', hsplit, hslot, hrest⟩
        -- the step tells the slot only, and a slot has one thread at a time
        have hfirst : first = target :=
          (halive first (by simp [hsplit])).eq_of_slot_eq
            (Shaped.alive_of_running hs' (hrunner target htarget)) hslot
        rw [hfirst] at hsplit
        exact ⟨ready', hsplit, hrest.symm⟩
  rcases hqueue with ⟨ready', hsplit, hready'⟩
  refine ⟨o', ready', hsplit, hs', ?_, ?_, hready', ?_⟩
  · intro h hh
    exact halive h (by simp [hsplit, hh])
  · intro line h hh
    split at hh
    · cases hh
    · rcases List.mem_append.mp hh with hold | hnew
      · exact hstays h (hl.waitingAlive line h hold) (hl.waiting_away hold)
      · exact hl.parked_alive houtcome (Option.mem_toList.mp hnew)
  · intro line
    rw [hwaiting line, hl.waiting line]
    split
    · rfl
    · exact List.map_append.symm

theorem lineup_create (config : Config) (requests : List (Request β × Supply)) :
    ∃ o ready, readied [] ((create config).run requests) =
        dispatched ((create config).run requests) ++ ready ∧
      ((create config).after requests).Lineup o ready
        (waiters ((create config).run requests)) := by
  induction requests using List.reverseRecOn with
  | nil =>
      refine ⟨_, [], rfl, shaped_create config, ?_, ?_, rfl, fun _ => rfl⟩
      · intro h hh
        cases hh
      · intro line h hh
        cases hh
  | append_singleton requests entry ih =>
      rcases entry with ⟨request, supply⟩
      rcases ih with ⟨o, ready, hreadied, hl⟩
      rcases Lineup.perform (e := ⟨(create config).after requests, request, supply,
        ((create config).after requests).perform supply request⟩) hl rfl with
          ⟨o', ready', hsplit, hl'⟩
      rw [run_concat, after_append]
      refine ⟨o', ready', ?_, ?_⟩
      · rw [readied_concat, hreadied, dispatched_concat, List.append_assoc, List.nil_append, hsplit,
          List.append_assoc]
      · rw [waiters_concat]
        exact hl'

end Lineup

end Scheduler

end Coop
