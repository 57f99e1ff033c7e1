import Coop.Proofs.Scheduler.Expectations
import Coop.Proofs.Scheduler.Handles

/-!
# No operation records a fault

What an operation expects of the state it meets is part of the invariants, and each of
its steps hands on what the next one expects.  So no operation of a run records a
fault: no thread is queued twice, no slot is out of range, and no count falls below
zero.  A block is stored only where room was secured for it, so there are never more
threads than the configuration allows.  Lines and classes of stacks need no such check,
as every value of their types has its queue or its cache.
-/

namespace Coop

open Thread (Block Handle Id Spec Table)

/-!
# Room along steps
-/

namespace Outline

variable {β : Type} {o o' : Outline β} {supply : Supply} {request : Request β}
  {result : Except Error (Answer β)}

theorem Keeps.roomy (h : o.Keeps o') (hroom : o.table.Roomy) : o'.table.Roomy := by
  unfold Table.Roomy
  rw [h.size]
  exact Nat.le_trans hroom h.room

theorem Step.roomy (hstep : o.Step supply request result o') (hroom : o.table.Roomy) :
    o'.table.Roomy := by
  have hreserve : (o.reserve supply).table.Roomy := (Keeps.reserve o supply).roomy hroom
  cases hstep with
  | idle hidle =>
      cases hidle with
      | noRoom _ => exact hreserve
      | noStack _ => exact hreserve
      | settled =>
          cases o.graveyard <;> exact hroom
      | _ => exact hroom
  | bootstrapped _ hanswer =>
      exact hreserve.insert (Table.isReserved_of_reserve hanswer) (.main o.nextId)
  | @spawned cur spec body stack _ hanswer _ =>
      exact (hreserve.insert (Table.isReserved_of_reserve hanswer) _).modify _ _
  | took _ _ => exact hroom.modify _ _
  | @switched cur slot rest b c _ o₁ _ _ hleaves _ _ =>
      refine Table.Roomy.modify ?_ slot Block.run
      rcases hleaves.keeps with hkeeps | ⟨-, -, rfl⟩
      · exact hkeeps.roomy hroom
      · rw [table_bury]
        exact hroom.remove cur
  | delivered _ _ _ _ _ _ =>
      rw [table_reclaim]
      exact hroom.remove _
  | detached _ _ _ _ => exact hroom.modify _ _
  | dropped _ _ _ _ =>
      rw [table_reclaim]
      exact hroom.remove _
  | woken _ => exact (Keeps.wakeAll o _).roomy hroom

theorem Step.reserved_of_handle {h : Handle}
    (hstep : o.Step supply request (.ok (.handle h)) o') :
    (o.table.reserve supply.slots supply.vacant).1 = .ok () := by
  cases hstep with
  | idle hidle => cases hidle
  | bootstrapped _ hanswer => exact hanswer
  | spawned _ hanswer _ => exact hanswer

theorem Step.solid (hstep : o.Step supply request result o') (ho : o.Solid) : o'.Solid where
  sound := hstep.sound ho.sound
  roomy := hstep.roomy ho.roomy
  accounted := (hstep.handover ho.sound).accounted ho.accounted

theorem solid_create (config : Config) : (create config : Outline β).Solid where
  sound := sound_create config
  roomy := Nat.le_refl 0
  accounted := accounted_create config

end Outline

/-!
# Operations
-/

namespace Represents

variable {β : Type} {s : Scheduler β} {o : Outline β}

theorem faults_bootstrap (h : Represents s o) (ho : o.Solid) (supply : Supply) :
    (s.perform supply .bootstrap).faults = [] := by
  unfold Scheduler.perform Scheduler.bootstrap
  cases s.current with
  | some cur => rfl
  | none =>
      rcases Represents.reserve (w := s.work) h supply with ⟨hanswer, hreserved⟩
      have hfaults := faults_reserve s.work supply
      rcases hres : s.work.reserve supply with ⟨answer, w⟩
      rw [hres] at hanswer hreserved hfaults
      cases answer with
      | error cause => exact hfaults
      | ok u =>
          have halike := Outline.Alike.reserve o supply
          have hinserted := faults_insert (w := w.freshId.2)
            (o := { o.reserve supply with nextId := o.nextId + 1 })
            { hreserved with nextId := congrArg (· + 1) hreserved.nextId }
            (halike.sound ho.sound).packed (Table.isReserved_of_reserve hanswer.symm)
            (.main w.freshId.1)
          exact hinserted.trans hfaults

theorem faults_spawn (h : Represents s o) (ho : o.Solid) (supply : Supply) (spec : Spec)
    (body : β) : (s.perform supply (.spawn spec body)).faults = [] := by
  unfold Scheduler.perform Scheduler.spawn
  cases s.current with
  | none => rfl
  | some cur =>
      rcases Represents.reserve (w := s.work) h supply with ⟨hanswer, hreserved⟩
      have hfaults := faults_reserve s.work supply
      rcases hres : s.work.reserve supply with ⟨answer, w⟩
      rw [hres] at hanswer hreserved hfaults
      cases answer with
      | error cause => exact hfaults
      | ok u =>
          have hcached : w.scheduler.pool.cachedBytes ≤ w.scheduler.pool.reserved := by
            rw [← hreserved.pool]
            exact ho.accounted.funded.cachedBytes_le
          simp only
          generalize s.config.stackSize spec.stackSize = bytes
          rcases hreserved.allocate supply bytes with ⟨hstack, hallocated⟩
          have hfaults₁ := (faults_allocate hcached supply bytes).trans hfaults
          rcases halloc : w.allocate supply bytes with ⟨answer, w₁⟩
          rw [halloc] at hstack hallocated hfaults₁
          cases answer with
          | error cause => exact hfaults₁
          | ok stack =>
              have hsound := ((Outline.Alike.reserve o supply).allocate supply bytes).sound ho.sound
              simp only
              generalize (if s.config.stackCanary then stack.guarded else stack) = stack
              have hfresh : Represents w₁.freshId.2.scheduler
                  { (o.reserve supply).allocate supply bytes with nextId := o.nextId + 1 } :=
                { hallocated with nextId := congrArg (· + 1) hallocated.nextId }
              have hinserted := hfresh.faults_insert hsound.packed
                (Table.isReserved_of_reserve hanswer.symm) (.fresh w₁.freshId.1 stack body spec)
              rcases hallocated.store (hallocated.packed hsound)
                (b := .fresh w₁.freshId.1 stack body spec) rfl with ⟨hslot, hstored⟩
              have hready := hsound.placed.not_mem_ready_of_vacant hsound.packed.get?_nextSlot
              rw [← hslot] at hready
              exact (hstored.faults_makeReady hready).trans (hinserted.trans hfaults₁)

theorem faults_takeBody (s : Scheduler β) (supply : Supply) :
    (s.perform supply .takeBody).faults = [] := by
  unfold Scheduler.perform Scheduler.takeBody
  cases s.current <;> rfl

/-!
# Operations that may give up the processor
-/

section Departs

variable {supply : Supply} {caller : Handle} {request : Request β} {w : Work β} {b : Block β}
  {slot : Nat} {code : Int32}

theorem faults_exited (h : Represents s o) (hready : slot ∉ o.ready) :
    ((((s.work.checkStack slot).unready slot).2.modify slot fun b => b.exit code).count
      fun c => { c with exited := c.exited + 1 }).faults = [] := by
  have hchecked : Represents (s.work.checkStack slot).scheduler o :=
    Represents.checkStack (w := s.work) h slot
  rw [Work.faults_count, Work.faults_modify, hchecked.faults_unready hready]
  exact faults_checkStack s.work slot

theorem faults_ended (h : Represents s o) (ho : o.Solid) (hget : o.table.get? slot = some b.bare)
    (hstate : b.state = .running) : (s.ended supply slot b code).faults = [] := by
  have hready : slot ∉ o.ready := by
    rw [ho.sound.placed.mem_ready_iff hget]
    simp [hstate]
  have hwaiting := ho.sound.placed.not_mem_waiting hget (by simp [hstate])
  unfold Scheduler.ended
  simp only
  generalize hw : ((((s.work.checkStack slot).unready slot).2.modify slot fun b =>
    b.exit code).count fun c => { c with exited := c.exited + 1 }).notice
      (.exited b.id code) = w
  have hexited : Represents w.scheduler (o.modify slot fun b => b.exit code).countExited := by
    rw [← hw]
    exact h.exited hready code
  have hfaults : w.faults = [] := by
    rw [← hw, Work.faults_notice]
    exact h.faults_exited hready
  cases hdetached : b.isDetached with
  | true =>
      have hjoiner : b.joiner = none := (ho.sound.placed.coherent hget).unjoined hdetached
      have hget' : (o.modify slot fun b => b.exit code).countExited.table.get? slot =
          some (b.bare.exit code) := by
        simp [Outline.modify, Outline.countExited, hget]
      have hburied := hexited.faults_bury (ho.sound.packed.modify slot _)
        (ho.roomy.modify slot _) hget' hready hwaiting ho.accounted.owed_graveyard supply
      simp only [hjoiner, if_true]
      exact hburied.trans hfaults
  | false =>
      have hblocked : ∀ j, b.joiner = some j → j.slot ∉ o.ready := by
        intro j hjoiner
        have hawaits : o.table.Awaits j slot := ⟨b.bare, hget, by simp [hstate], hjoiner⟩
        rcases ho.sound.joins.blocked hawaits with ⟨c, hc, hstate'⟩
        rw [ho.sound.placed.mem_ready_iff (Table.lookup_eq_some_iff.mp hc).1, hstate']
        decide
      have hwoken := hexited.faults_wakeJoiner b.id hblocked
      exact hwoken.trans hfaults

theorem faults_of_departs (h : Represents s o) (ho : o.Solid) (hrunning : s.running = .ok caller)
    (hdeparts : s.Departs supply caller request w) : (s.perform supply request).faults = [] := by
  rcases Scheduler.running_eq_ok_iff.mp hrunning with ⟨hcurrent, b, hlookup⟩
  rcases h.leaves_of_departs ho.sound hrunning hdeparts with ⟨-, o₁, -, -, -, -, hleft, -⟩
  rcases h.runner ho.sound hcurrent with ⟨b', -, hget, hstate, -, hready, hwaiting⟩
  have hchecked : Represents (s.work.checkStack caller.slot).scheduler o :=
    Represents.checkStack (w := s.work) h caller.slot
  have hfaults := faults_checkStack s.work caller.slot
  have hw : w.faults = [] := by
    cases hdeparts with
    | yields _ => exact (hchecked.faults_makeReady hready).trans hfaults
    | @waits line _ => exact (hchecked.faults_park line hwaiting).trans hfaults
    | @exits code c hget' _ =>
        rw [h.get?_eq, hget'] at hget
        injection hget with hc
        exact h.faults_ended ho (by rw [h.get?_eq, hget']; rfl) (by rw [← hstate, ← hc]; rfl)
    | joins _ _ _ => exact hfaults
  rw [hdeparts.perform_eq hrunning]
  exact (hleft.faults_dispatch caller).trans hw

end Departs

theorem faults_yield (h : Represents s o) (ho : o.Solid) (supply : Supply) :
    (s.perform supply .yield).faults = [] := by
  cases hcurrent : s.current with
  | none =>
      simp only [Scheduler.perform, Scheduler.yield, hcurrent]
      rfl
  | some cur =>
      rcases h.running_of_current ho.sound hcurrent with ⟨b, -, hrunning⟩
      cases hempty : s.ready.isEmpty with
      | false => exact h.faults_of_departs ho hrunning (.yields hempty)
      | true =>
          simp only [Scheduler.perform, Scheduler.yield, hcurrent, hempty, if_true]
          rfl

theorem faults_wait (h : Represents s o) (ho : o.Solid) (supply : Supply) (line : Line) :
    (s.perform supply (.wait line)).faults = [] := by
  cases hcurrent : s.current with
  | none =>
      simp only [Scheduler.perform, Scheduler.wait, hcurrent]
      rfl
  | some cur =>
      rcases h.running_of_current ho.sound hcurrent with ⟨b, -, hrunning⟩
      cases hempty : s.ready.isEmpty with
      | false => exact h.faults_of_departs ho hrunning (.waits hempty)
      | true =>
          simp only [Scheduler.perform, Scheduler.wait, hcurrent, hempty, if_true]
          rfl

theorem faults_exit (h : Represents s o) (ho : o.Solid) (supply : Supply) (code : Int32) :
    (s.perform supply (.exit code)).faults = [] := by
  cases hcurrent : s.current with
  | none =>
      simp only [Scheduler.perform, Scheduler.exit, hcurrent]
      rfl
  | some cur =>
      rcases h.running_of_current ho.sound hcurrent with ⟨b, hb, hrunning⟩
      cases hrefused : s.ready.isEmpty && b.joiner.isNone with
      | false => exact h.faults_of_departs ho hrunning (.exits hb hrefused)
      | true =>
          simp only [Scheduler.perform, Scheduler.exit, hcurrent, hb, hrefused, if_true]
          rfl

/-!
# Operations that may reclaim a thread
-/

theorem faults_reclaimed (h : Represents s o) (ho : o.Solid) {handle : Handle} {target : Block β}
    (hlookup : s.table.lookup handle = some target) (hexited : target.state = .exited)
    (supply : Supply) : (s.work.reclaim supply handle.slot).faults = [] := by
  have hget := (Table.lookup_eq_some_iff.mp (h.lookup_of_lookup hlookup)).1
  have hready : handle.slot ∉ o.ready := by
    rw [ho.sound.placed.mem_ready_iff hget]
    simp [hexited]
  have hwaiting := ho.sound.placed.not_mem_waiting hget (by simp [hexited])
  exact faults_reclaim (w := s.work) h ho.sound.packed ho.roomy hget hready hwaiting
    (ho.accounted.owed_block hget) supply

theorem faults_join (h : Represents s o) (ho : o.Solid) (supply : Supply) (handle : Handle) :
    (s.perform supply (.join handle)).faults = [] := by
  cases hcurrent : s.current with
  | none =>
      simp only [Scheduler.perform, Scheduler.join, hcurrent]
      rfl
  | some cur =>
      rcases h.running_of_current ho.sound hcurrent with ⟨b, -, hrunning⟩
      cases hjoinable : s.joinable cur handle with
      | error e =>
          simp only [Scheduler.perform, Scheduler.join, hcurrent, hjoinable]
          rfl
      | ok target =>
          cases hfinished : Scheduler.finished? target with
          | some code =>
              simp only [Scheduler.perform, Scheduler.join, hcurrent, hjoinable, hfinished]
              exact h.faults_reclaimed ho (joinable_eq_ok hjoinable).1
                (finished?_eq_some hfinished).1 supply
          | none =>
              cases hempty : s.ready.isEmpty with
              | false => exact h.faults_of_departs ho hrunning (.joins hjoinable hfinished hempty)
              | true =>
                  simp only [Scheduler.perform, Scheduler.join, hcurrent, hjoinable, hfinished,
                    hempty, if_true]
                  rfl

theorem faults_tryJoin (h : Represents s o) (ho : o.Solid) (supply : Supply) (handle : Handle) :
    (s.perform supply (.tryJoin handle)).faults = [] := by
  unfold Scheduler.perform Scheduler.tryJoin
  cases s.current with
  | none => rfl
  | some cur =>
      simp only
      cases hjoinable : s.joinable cur handle with
      | error e => rfl
      | ok target =>
          simp only
          cases hfinished : Scheduler.finished? target with
          | some code =>
              exact h.faults_reclaimed ho (joinable_eq_ok hjoinable).1
                (finished?_eq_some hfinished).1 supply
          | none => rfl

theorem faults_collect (h : Represents s o) (ho : o.Solid) (supply : Supply) (handle : Handle) :
    (s.perform supply (.collect handle)).faults = [] := by
  unfold Scheduler.perform Scheduler.collect
  cases s.running with
  | error e => rfl
  | ok caller =>
      simp only
      cases hlookup : s.table.lookup handle with
      | none => rfl
      | some target =>
          simp only
          split
          · cases hcode : target.exitCode with
            | none => rfl
            | some code =>
                have hget := (Table.lookup_eq_some_iff.mp (h.lookup_of_lookup hlookup)).1
                have hexited : target.bare.state = .exited :=
                  (ho.sound.placed.coherent hget).exitCode.mp
                    (by show target.exitCode.isSome = true; rw [hcode]; rfl)
                exact h.faults_reclaimed ho hlookup hexited supply
          · rfl

theorem faults_detach (h : Represents s o) (ho : o.Solid) (supply : Supply) (handle : Handle) :
    (s.perform supply (.detach handle)).faults = [] := by
  unfold Scheduler.perform Scheduler.detach
  cases s.current with
  | none => rfl
  | some cur =>
      simp only
      cases hlookup : s.table.lookup handle with
      | none => rfl
      | some target =>
          simp only
          split
          · rfl
          · by_cases hexited : target.state = .exited
            · have hget := (Table.lookup_eq_some_iff.mp (h.lookup_of_lookup hlookup)).1
              have hready : handle.slot ∉ o.ready := by
                rw [ho.sound.placed.mem_ready_iff hget]
                simp [hexited]
              have hwaiting := ho.sound.placed.not_mem_waiting hget (by simp [hexited])
              have hdetached := h.modify handle.slot (f := Block.detach) (fun _ => rfl)
                fun _ lane => by cases lane <;> rfl
              have hget' : (o.modify handle.slot Block.detach).table.get? handle.slot =
                  some target.bare.detach := by
                simp [Outline.modify, hget]
              have howed : (o.modify handle.slot Block.detach).Owed target.bare.stack :=
                ho.accounted.owed_block hget
              rw [if_pos hexited]
              exact faults_reclaim (w := s.work.modify handle.slot Block.detach) hdetached
                (ho.sound.packed.modify _ _) (ho.roomy.modify _ _) hget' hready hwaiting howed
                supply
            · rw [if_neg hexited]
              rfl

/-!
# Interrupts, and the end of a switch
-/

theorem faults_interrupt (h : Represents s o) (ho : o.Solid) (supply : Supply) (line : Line) :
    (s.perform supply (.interrupt line)).faults = [] :=
  faults_fire (w := s.work) h ho.sound.toOrderly line

theorem faults_interrupts (h : Represents s o) (ho : o.Solid) (supply : Supply) (mask : Mask) :
    (s.perform supply (.interrupts mask)).faults = [] :=
  faults_fireAll (w := s.work) h ho.sound.toOrderly mask.lines

theorem faults_completeSwitch (h : Represents s o) (ho : o.Solid) (supply : Supply) :
    (s.perform supply .completeSwitch).faults = [] := by
  have howed := ho.accounted.owed_graveyard
  rw [h.graveyard] at howed
  unfold Scheduler.perform Scheduler.completeSwitch
  cases hgraveyard : s.graveyard with
  | none => rfl
  | some stack =>
      rw [hgraveyard] at howed
      have hcleared : Represents { s with graveyard := none } { o with graveyard := none } :=
        { h with graveyard := rfl }
      exact faults_releaseAny (w := { scheduler := { s with graveyard := none } }) hcleared howed
        supply

theorem faults_perform (h : Represents s o) (ho : o.Solid) (supply : Supply)
    (request : Request β) : (s.perform supply request).faults = [] := by
  cases request with
  | bootstrap => exact h.faults_bootstrap ho supply
  | spawn spec body => exact h.faults_spawn ho supply spec body
  | takeBody => exact faults_takeBody s supply
  | yield => exact h.faults_yield ho supply
  | wait line => exact h.faults_wait ho supply line
  | exit code => exact h.faults_exit ho supply code
  | join target => exact h.faults_join ho supply target
  | collect target => exact h.faults_collect ho supply target
  | tryJoin target => exact h.faults_tryJoin ho supply target
  | detach target => exact h.faults_detach ho supply target
  | interrupt line => exact h.faults_interrupt ho supply line
  | interrupts mask => exact h.faults_interrupts ho supply mask
  | completeSwitch => exact h.faults_completeSwitch ho supply

end Represents

/-!
# Runs
-/

namespace Scheduler

variable {β : Type} {s : Scheduler β} {o : Outline β}

structure FaultFree (s : Scheduler β) (requests : List (Request β × Supply)) : Prop where
  faults : ∀ e ∈ s.run requests, e.outcome.faults = []
  /-- Only an operation that has just secured room stores a new thread. -/
  reserved : ∀ e ∈ s.run requests, ∀ slot b, e.later.table.get? slot = some b →
    (∃ b₀, e.earlier.table.get? slot = some b₀ ∧ b₀.id = b.id) ∨
      (e.earlier.table.reserve e.supply.slots e.supply.vacant).1 = .ok ()
  live : (s.after requests).table.live = (s.after requests).table.toList.length
  within : (s.after requests).table.toList.length ≤ s.config.maxThreads

theorem Reachable.solid (h : s.Reachable) : ∃ o, s.Shaped o ∧ o.Solid :=
  h.exists_outline Outline.solid_create fun _ hstep hsolid => hstep.solid hsolid

theorem Shaped.reserved (hs : s.Shaped o) (supply : Supply) (request : Request β) {slot : Nat}
    {b : Block β} (hget : (s.perform supply request).scheduler.table.get? slot = some b) :
    (∃ b₀, s.table.get? slot = some b₀ ∧ b₀.id = b.id) ∨
      (s.table.reserve supply.slots supply.vacant).1 = .ok () := by
  rcases hs.origin supply request hget with ⟨b₀, hget₀, hestate⟩ | ⟨hresult, -⟩
  · exact Or.inl ⟨b₀, hget₀, (congrArg Thread.Estate.id hestate).symm⟩
  · rcases hs.perform supply request with ⟨o', hstep, -⟩
    rw [hresult] at hstep
    have hanswer := hstep.reserved_of_handle
    rw [hs.1.table, ← (Table.bare_reserve s.table supply.slots supply.vacant).2] at hanswer
    exact Or.inr hanswer

/--
No operation of a run from the start records a fault, and there are never more threads
than the configuration allows.
-/
theorem faultFree_create (config : Config) (requests : List (Request β × Supply)) :
    (create config).FaultFree requests := by
  have hcreated : (create config : Scheduler β).Shaped _ := shaped_create config
  rcases hcreated.after requests with ⟨o, hs⟩
  have hpacked := hs.1.packed hs.2
  constructor
  · intro e he
    rcases reachable_of_mem_run he with ⟨hreachable, -, houtcome⟩
    rcases hreachable.solid with ⟨o, hs, ho⟩
    rw [houtcome]
    exact hs.1.faults_perform ho e.supply e.request
  · intro e he slot b hget
    rcases reachable_of_mem_run he with ⟨hreachable, -, houtcome⟩
    rcases hreachable.shaped with ⟨o, hs⟩
    change e.outcome.scheduler.table.get? slot = some b at hget
    rw [houtcome] at hget
    exact hs.reserved e.supply e.request hget
  · exact hpacked.live_eq_length
  · rw [← hpacked.live_eq_length]
    exact Nat.le_trans hpacked.live_le (Nat.le_of_eq (hcreated.limits_after requests).2.1)

end Scheduler

end Coop
