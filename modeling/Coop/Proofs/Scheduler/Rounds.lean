import Mathlib.Data.List.Rotate
import Coop.Proofs.Scheduler.Lineups
import Coop.Proofs.Scheduler.Partings

/-!
# Rounds

When each thread yields as soon as it has the processor, the processor goes round the
queue, and the running thread and the queue behind it turn like a wheel.  After a turn for
each of them all are where they were, and so is every link between them.
-/

namespace Coop

open Thread (Block Handle Id Table)

def Request.turns {β : Type} (supplies : List (Supply × Supply)) : List (Request β × Supply) :=
  supplies.flatMap fun supply => [(.yield, supply.1), (.completeSwitch, supply.2)]

/-- The processor goes from each of these threads to the one after it. -/
def Answer.along {β : Type} : List Handle → List (Answer β)
  | first :: next :: rest => .transfer ⟨first, next⟩ :: .done :: along (next :: rest)
  | _ => []

open Request (turns)
open Answer (along)

namespace Outline

variable {β : Type} {o : Outline β} {first next h : Handle} {queue : List Handle} {switches : Nat}

/-!
# The wheel
-/

def Rests (o : Outline β) (h : Handle) : Prop :=
  ∃ b, o.table.lookup h = some b ∧ b.state = .ready

/-- The first thread of the wheel runs, the others stand in the queue, after so many switches. -/
def seat (o : Outline β) : List Handle → Nat → Outline β
  | [], _ => o
  | h :: queue, switches =>
      { o with
        table := o.table.modify h.slot Block.run
        ready := queue.map Handle.slot
        current := some h.slot
        counters := { o.counters with contextSwitches := o.counters.contextSwitches + switches } }

theorem Rests.ready_run (hrests : o.Rests h) :
    (o.table.modify h.slot Block.run).modify h.slot Block.ready = o.table := by
  rcases hrests with ⟨b, hlookup, hstate⟩
  apply Table.modify_modify_eq_self (Table.lookup_eq_some_iff.mp hlookup).1
  show { b with state := .ready } = b
  rw [← hstate]

theorem Rests.dispatch_makeReady (hfirst : o.Rests first) :
    ((o.seat (first :: next :: queue) switches).makeReady first.slot).dispatch next.slot
        (queue.map Handle.slot ++ [first.slot]) =
      o.seat (next :: queue ++ [first]) (switches + 1) := by
  have hqueue : queue.map Handle.slot ++ [first.slot] = (queue ++ [first]).map Handle.slot := by
    rw [List.map_append, List.map_singleton]
  simp only [seat, makeReady, dispatch, hfirst.ready_run, hqueue]
  rfl

theorem Rests.yields (hfirst : o.Rests first) (hnext : o.Rests next) (supply : Supply) :
    (o.seat (first :: next :: queue) switches).Yields supply .yield (.transfer ⟨first, next⟩)
      (o.seat (next :: queue ++ [first]) (switches + 1)) := by
  rcases hfirst with ⟨b, hlookup, hstate⟩
  have hrests : o.Rests first := ⟨b, hlookup, hstate⟩
  rcases hnext with ⟨c, hlookup', -⟩
  rcases Table.lookup_eq_some_iff.mp hlookup with ⟨hget, hid⟩
  rcases Table.lookup_eq_some_iff.mp hlookup' with ⟨hget', hid'⟩
  have hrunner : (o.table.modify first.slot Block.run).get? first.slot = some b.run := by
    rw [Table.get?_modify_same, hget]
    rfl
  have htarget : ((o.table.modify first.slot Block.run).modify first.slot Block.ready).get?
      next.slot = some c := by
    rw [hrests.ready_run]
    exact hget'
  have hyields : (o.seat (first :: next :: queue) switches).Yields supply .yield _ _ :=
    yields_yield rfl hrunner rfl htarget
  have hsource : (⟨first.slot, b.run.id⟩ : Handle) = first := congrArg (Handle.mk first.slot) hid
  have hnext : (⟨next.slot, c.id⟩ : Handle) = next := congrArg (Handle.mk next.slot) hid'
  rw [hrests.dispatch_makeReady, hsource, hnext] at hyields
  exact hyields

theorem settles_seat (hgraveyard : o.graveyard = none) (wheel : List Handle) (supply : Supply) :
    (o.seat wheel switches).Yields supply .completeSwitch .done (o.seat wheel switches) := by
  apply yields_completeSwitch_of_none
  cases wheel with
  | nil => exact hgraveyard
  | cons first queue => exact hgraveyard

theorem rests_modify {slot : Nat} {b : Block β} (hlookup : o.table.lookup h = some b)
    (hstands : h.slot = slot ∨ b.state = .ready) : (o.modify slot Block.ready).Rests h := by
  show ∃ b, (o.table.modify slot Block.ready).lookup h = some b ∧ b.state = .ready
  rw [Table.lookup_modify (f := Block.ready) fun _ => rfl, hlookup]
  split
  · exact ⟨b.ready, rfl, rfl⟩
  · exact ⟨b, rfl, hstands.resolve_left ‹_›⟩

theorem Rests.exists_lookup_seat (hrests : o.Rests h) (wheel : List Handle) (switches : Nat) :
    ∃ b, (o.seat wheel switches).table.lookup h = some b := by
  rcases hrests with ⟨b, hb, -⟩
  cases wheel with
  | nil => exact ⟨b, hb⟩
  | cons first queue =>
      show ∃ b, (o.table.modify first.slot Block.run).lookup h = some b
      rw [Table.lookup_modify (f := Block.run) fun _ => rfl, hb]
      split <;> exact ⟨_, rfl⟩

/-!
# Turns
-/

/-- With each turn the wheel moves on by one thread. -/
theorem plays_turns {order rest : List Handle} {supplies : List (Supply × Supply)}
    (hrests : ∀ h ∈ first :: queue, o.Rests h) (hgraveyard : o.graveyard = none) (hne : queue ≠ [])
    (horder : queue ++ [first] = order ++ rest) (hlength : supplies.length = order.length) :
    (o.seat (first :: queue) switches).Plays (turns supplies) (along (first :: order))
      (o.seat ((first :: queue).rotate order.length) (switches + order.length)) := by
  induction order generalizing first queue rest supplies switches with
  | nil =>
      rw [List.length_eq_zero_iff.mp hlength, List.length_nil, List.rotate_zero]
      exact .nil
  | cons next order ih =>
      cases supplies with
      | nil => cases hlength
      | cons supply supplies =>
          rcases List.exists_cons_of_ne_nil hne with ⟨second, queue, rfl⟩
          injection horder with hsecond horder
          subst hsecond
          have hfirst := hrests first List.mem_cons_self
          have hnext := hrests second (List.mem_cons_of_mem _ List.mem_cons_self)
          have hrests' : ∀ h ∈ second :: (queue ++ [first]), o.Rests h := by
            intro h hh
            apply hrests
            rwa [← List.cons_append, List.mem_append, List.mem_singleton, or_comm,
              ← List.mem_cons] at hh
          have hne' : queue ++ [first] ≠ [] :=
            List.append_ne_nil_of_right_ne_nil queue (List.cons_ne_nil first [])
          have horder' : queue ++ [first] ++ [second] = order ++ (rest ++ [second]) := by
            rw [← List.append_assoc]
            exact congrArg (· ++ [second]) horder
          have hcount : switches + (order.length + 1) = switches + 1 + order.length := by omega
          rw [List.length_cons, List.rotate_cons_succ, hcount]
          exact .cons (hfirst.yields hnext supply.1)
            (.cons (settles_seat hgraveyard _ supply.2)
              (ih hrests' hne' horder' (Nat.succ.inj hlength)))

end Outline

namespace Scheduler

variable {β : Type} {s : Scheduler β} {o : Outline β} {caller h : Handle}
  {ready queue : List Handle}

/-!
# Where the wheel stands
-/

theorem Shaped.ready_eq (hs : s.Shaped o) (hready : s.ready.Serves s.table ready) :
    o.ready = ready.map Handle.slot :=
  hready.visits.unique (hs.1.ready.holds ()).visits

theorem Shaped.rests (hs : s.Shaped o) (hready : s.ready.Serves s.table ready) (hh : h ∈ ready) :
    o.Rests h := by
  rcases hready.present h hh with ⟨b, hb⟩
  have hlookup := hs.1.lookup_of_lookup hb
  have hmem : h.slot ∈ o.ready := by
    rw [hs.ready_eq hready]
    exact List.mem_map_of_mem hh
  have hget := (Table.lookup_eq_some_iff.mp hlookup).1
  exact ⟨b.bare, hlookup, (hs.placed.mem_ready_iff hget).mp hmem⟩

/-- With everyone else ready, a scheduler is a wheel on which the running thread is in front. -/
theorem Shaped.exists_wheel (hs : s.Shaped o) (hrunning : s.running = .ok caller)
    (hready : s.ready.Serves s.table ready) :
    ∃ resting : Outline β, resting.graveyard = s.graveyard ∧
      (∀ h ∈ caller :: ready, resting.Rests h) ∧
        ∀ switches, resting.seat (caller :: ready) switches =
          { o with
            counters := { o.counters with
              contextSwitches := o.counters.contextSwitches + switches } } := by
  rcases running_eq_ok_iff.mp hrunning with ⟨hcurrent, b, hlookup⟩
  have hget := hs.get?_bare (Table.lookup_eq_some_iff.mp hlookup).1
  have hstate : b.bare.state = .running := (hs.placed.running_iff hget).mp hcurrent
  refine ⟨o.modify caller.slot Block.ready, hs.1.graveyard, ?_, ?_⟩
  · intro h hh
    rcases List.mem_cons.mp hh with rfl | hh
    · exact Outline.rests_modify (hs.1.lookup_of_lookup hlookup) (Or.inl rfl)
    · rcases hs.rests hready hh with ⟨c, hc, hcready⟩
      exact Outline.rests_modify hc (Or.inr hcready)
  · intro switches
    have htable : (o.table.modify caller.slot Block.ready).modify caller.slot Block.run =
        o.table := by
      apply Table.modify_modify_eq_self hget
      show { b.bare with state := .running } = b.bare
      rw [← hstate]
    simp only [Outline.seat, Outline.modify, htable, ← hs.ready_eq hready, ← hcurrent,
      hs.1.current]

theorem Shaped.of_seat {switches : Nat} (hs : s.Shaped (o.seat (h :: queue) switches))
    (hrests : ∀ h' ∈ h :: queue, o.Rests h') :
    s.running = .ok h ∧ s.ready.Serves s.table queue := by
  constructor
  · exact (hs.runs_iff h).mp ⟨rfl, (hrests h List.mem_cons_self).exists_lookup_seat _ _⟩
  · constructor
    · exact (hs.1.ready.holds ()).visits
    · intro h' hh'
      have hrest := hrests h' (List.mem_cons_of_mem h hh')
      rcases hrest.exists_lookup_seat (h :: queue) switches with ⟨b, hb⟩
      rcases Outline.exists_lookup hs hb with ⟨b', hb', -⟩
      exact ⟨b', hb'⟩

theorem Shaped.leads_turns {order rest : List Handle} {supplies : List (Supply × Supply)}
    (hs : s.Shaped (o.seat (caller :: ready) 0)) (hrests : ∀ h ∈ caller :: ready, o.Rests h)
    (hgraveyard : o.graveyard = none) (hne : ready ≠ [])
    (horder : ready ++ [caller] = order ++ rest) (hlength : supplies.length = order.length) :
    ∃ s', s.Leads (turns supplies) (along (caller :: order)) s' ∧
      s'.Shaped (o.seat ((caller :: ready).rotate order.length) order.length) := by
  rcases hs.plays (Outline.plays_turns hrests hgraveyard hne horder hlength) with
    ⟨hanswers, hafter⟩
  rw [Nat.zero_add] at hafter
  exact ⟨_, ⟨hanswers, rfl⟩, hafter⟩

/-!
# Going round
-/

/-- What happens to the running thread and the queue when everyone yields at once. -/
structure GoesRound (s : Scheduler β) (caller : Handle) (ready : List Handle) : Prop where
  /-- After one turn for each thread the scheduler is as it was, up to the count of switches. -/
  restores : ∀ supplies : List (Supply × Supply), supplies.length = ready.length + 1 →
    s.Leads (turns supplies) (along (caller :: ready ++ [caller]))
      { s with
        counters := { s.counters with
          contextSwitches := s.counters.contextSwitches + (ready.length + 1) } }
  passes : ∀ (supplies : List (Supply × Supply)) (i : Nat) (hi : i < ready.length),
    supplies.length = i + 1 →
      ∃ s', s.Leads (turns supplies) (along (caller :: ready.take (i + 1))) s' ∧
        s'.running = .ok ready[i] ∧
          s'.ready.Serves s'.table (ready.drop (i + 1) ++ caller :: ready.take i)

/--
With no stack aside and some threads ready, a yield by everyone in turn, the running
thread included, changes nothing but the count of switches.
-/
theorem goesRound_of_running (hreachable : s.Reachable) (hgraveyard : s.graveyard = none)
    (hrunning : s.running = .ok caller) (hready : s.ready.Serves s.table ready)
    (hne : ready ≠ []) : s.GoesRound caller ready := by
  rcases hreachable.shaped with ⟨o, hs⟩
  rcases hs.exists_wheel hrunning hready with ⟨resting, hclear, hrests, hseat⟩
  rw [hgraveyard] at hclear
  have hstart : s.Shaped (resting.seat (caller :: ready) 0) := by
    rw [hseat]
    exact hs
  constructor
  case restores =>
    intro supplies hlength
    have hround : supplies.length = (ready ++ [caller]).length := by
      rw [hlength, List.length_append, List.length_singleton]
    rcases hstart.leads_turns hrests hclear hne (List.append_nil _).symm hround with
      ⟨s', hleads, hs'⟩
    have hlast : (ready ++ [caller]).length = (caller :: ready).length := by
      rw [← hround, hlength, List.length_cons]
    rw [hlast, List.rotate_length, hseat] at hs'
    -- the links are those of the start, because the queues are
    have hcounted : Represents
        { s with
          counters := { s.counters with
            contextSwitches := s.counters.contextSwitches + (caller :: ready).length } }
        { o with
          counters := { o.counters with
            contextSwitches := o.counters.contextSwitches + (caller :: ready).length } } :=
      { hs.1 with counters := by rw [hs.1.counters] }
    rw [hcounted.unique hs'.1] at hleads
    exact hleads
  case passes =>
    intro supplies i hi hlength
    have hfew : supplies.length = (ready.take (i + 1)).length := by
      rw [hlength, List.length_take_of_le hi]
    have horder : ready ++ [caller] = ready.take (i + 1) ++ (ready.drop (i + 1) ++ [caller]) := by
      rw [← List.append_assoc, List.take_append_drop]
    rcases hstart.leads_turns hrests hclear hne horder hfew with ⟨s', hleads, hs'⟩
    have hwheel : (caller :: ready).rotate (ready.take (i + 1)).length =
        ready[i] :: (ready.drop (i + 1) ++ caller :: ready.take i) := by
      rw [← hfew, hlength, List.rotate_eq_drop_append_take (Nat.succ_le_succ (Nat.le_of_lt hi)),
        List.drop_succ_cons, List.take_succ_cons, List.drop_eq_getElem_cons hi, List.cons_append]
    have hrests' : ∀ h ∈ ready[i] :: (ready.drop (i + 1) ++ caller :: ready.take i),
        resting.Rests h := by
      intro h hh
      rw [← hwheel, List.mem_rotate] at hh
      exact hrests h hh
    rw [hwheel] at hs'
    exact ⟨s', hleads, hs'.of_seat hrests'⟩

/-- The main thread stands behind a thread that was spawned later. -/
def runsSecond : List (Request Unit × Supply) :=
  [(.bootstrap, .ample), (.spawn {} (), .ample), (.spawn {} (), .ample), (.yield, .ample)]

theorem goesRound_runsSecond :
    let s : Scheduler Unit := (create {}).after runsSecond
    s.graveyard = none ∧ s.running = .ok ⟨1, 2⟩ ∧ s.ready.Serves s.table [⟨2, 3⟩, ⟨0, 1⟩] ∧
      s.GoesRound ⟨1, 2⟩ [⟨2, 3⟩, ⟨0, 1⟩] := by
  intro s
  have hserves : s.ready.Serves s.table [⟨2, 3⟩, ⟨0, 1⟩] := by
    refine ⟨⟨?_, by decide, rfl, rfl, rfl⟩, ?_⟩
    · intro count
      match count with
      | 0 => rfl
      | 1 => rfl
      | 2 => rfl
      | _ + 3 => rfl
    · intro h hh
      rcases List.mem_cons.mp hh with rfl | hh
      · exact ⟨_, rfl⟩
      · rw [List.mem_singleton.mp hh]
        exact ⟨_, rfl⟩
  have hround := goesRound_of_running ⟨{}, runsSecond, rfl⟩ rfl rfl hserves (List.cons_ne_nil _ _)
  exact ⟨rfl, rfl, hserves, hround⟩

end Scheduler
end Coop
