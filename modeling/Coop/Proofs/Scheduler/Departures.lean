import Coop.Proofs.Scheduler.Moves

/-!
# Leaving the processor

An operation that gives up the processor takes the running thread from its place,
and then hands the processor on.  What it has done in between is a departure.  A
thread that departs in a sound scheduler leaves a thread behind that is ready, so
the processor can be handed on, and nothing can fail from there.
-/

namespace Coop

open Thread (Block Handle Id Table)

theorem Outcome.map_map {β α γ δ : Type} (outcome : Outcome β α) (f : α → γ) (g : γ → δ) :
    (outcome.map f).map g = outcome.map fun a => g (f a) := by
  rcases outcome with ⟨w, result⟩
  cases result <;> rfl

namespace Scheduler

variable {β : Type} {s : Scheduler β} {h : Handle}

theorem running_eq_ok_iff :
    s.running = .ok h ↔ s.current = some h.slot ∧ ∃ b, s.table.lookup h = some b := by
  unfold running
  cases hcurrent : s.current with
  | none => simp
  | some slot =>
      constructor
      · intro hrunning
        cases hget : s.table.get? slot with
        | none => simp [Table.handle?, hget] at hrunning
        | some b =>
            simp only [Table.handle?_of_get? hget] at hrunning
            injection hrunning with hrunning
            subst hrunning
            exact ⟨rfl, b, Table.lookup_of_get? hget⟩
      · intro hruns
        rcases hruns with ⟨hslot, b, hlookup⟩
        injection hslot with hslot
        subst hslot
        rcases Table.lookup_eq_some_iff.mp hlookup with ⟨hget, hid⟩
        simp only [Table.handle?_of_get? hget, hid]

/-- The work that ends the thread in a slot, up to where the processor is handed on. -/
def ended (s : Scheduler β) (supply : Supply) (slot : Nat) (b : Block β) (code : Int32) : Work β :=
  let w := ((s.work.checkStack slot).unready slot).2.modify slot fun b => b.exit code
  let w := w.count fun c => { c with exited := c.exited + 1 }
  let w := (w.notice (.exited b.id code)).wakeJoiner b.id b.joiner
  if b.isDetached then w.bury supply slot else w

/-- The work that makes a caller wait for a target, up to where the processor is handed on. -/
def joined (s : Scheduler β) (caller target : Handle) : Work β :=
  let w := (s.work.checkStack caller.slot).modify target.slot fun b =>
    { b with joiner := some caller }
  let w := w.modify caller.slot fun b => { b with state := .blockedOnJoin }
  w.notice (.joins caller.id target.id)

/--
How a request takes its caller from its place: what it has asked by then, and what
it has done.
-/
inductive Departs (s : Scheduler β) (supply : Supply) (caller : Handle) :
    Request β → Work β → Prop where
  | yields : s.ready.isEmpty = false →
      Departs s supply caller .yield ((s.work.checkStack caller.slot).makeReady caller.slot)
  | waits {line : Line} : s.ready.isEmpty = false →
      Departs s supply caller (.wait line)
        (((s.work.checkStack caller.slot).park caller.slot line).notice (.waits caller.id line))
  | exits {code : Int32} {b : Block β} : s.table.get? caller.slot = some b →
      (s.ready.isEmpty && b.joiner.isNone) = false →
        Departs s supply caller (.exit code) (s.ended supply caller.slot b code)
  | joins {target : Handle} {c : Block β} : s.joinable caller.slot target = .ok c →
      finished? c = none → s.ready.isEmpty = false →
        Departs s supply caller (.join target) (s.joined caller target)

theorem Departs.perform_eq {supply : Supply} {caller : Handle} {request : Request β} {w : Work β}
    (hdeparts : s.Departs supply caller request w) (hrunning : s.running = .ok caller) :
    s.perform supply request = (w.dispatch caller).map .transfer := by
  rcases running_eq_ok_iff.mp hrunning with ⟨hcurrent, b, hlookup⟩
  rcases Table.lookup_eq_some_iff.mp hlookup with ⟨hget, hid⟩
  have hhandle : s.table.handle? caller.slot = some caller := by
    rw [Table.handle?_of_get? hget, hid]
  cases hdeparts with
  | yields hready =>
      simp only [Scheduler.perform, Scheduler.yield, hcurrent, hready, hhandle]
      exact Outcome.map_map _ some _
  | waits hready =>
      simp only [Scheduler.perform, Scheduler.wait, hcurrent, hready, hhandle]
      rfl
  | exits hget' hready =>
      rw [hget] at hget'
      injection hget' with hb
      subst hb
      have hcaller : (⟨caller.slot, b.id⟩ : Handle) = caller := by rw [hid]
      simp only [Scheduler.perform, Scheduler.exit, hcurrent, hget, hready, hcaller]
      rfl
  | joins hjoinable hfinished hready =>
      simp only [Scheduler.perform, Scheduler.join, hcurrent, hjoinable, hfinished, hready, hhandle]
      exact Outcome.map_map _ Joined.blocked _

end Scheduler

namespace Represents

variable {β : Type} {s : Scheduler β} {o : Outline β}

/-!
# Reading the outline of a scheduler
-/

theorem packed (h : Represents s o) (ho : o.Sound) : s.table.Packed := by
  apply Table.Packed.of_bare
  rw [← h.table]
  exact ho.packed

theorem get?_current (h : Represents s o) (ho : o.Sound) {cur : Nat}
    (hcurrent : s.current = some cur) :
    ∃ b, s.table.get? cur = some b ∧ o.table.get? cur = some b.bare ∧ b.state = .running := by
  rw [← h.current] at hcurrent
  rcases ho.get?_current hcurrent with ⟨b, hb, hstate⟩
  have hget := h.get?_eq cur
  rw [hb] at hget
  rcases Option.map_eq_some_iff.mp hget.symm with ⟨b', hb', rfl⟩
  exact ⟨b', hb', hb, hstate⟩

theorem lookup_of_lookup (h : Represents s o) {handle : Handle} {b : Block β}
    (hlookup : s.table.lookup handle = some b) : o.table.lookup handle = some b.bare := by
  rw [h.lookup_eq, hlookup]
  rfl

theorem runner (h : Represents s o) (ho : o.Sound) {cur : Nat} (hcurrent : s.current = some cur) :
    ∃ b, o.current = some cur ∧ o.table.get? cur = some b ∧ b.state = .running ∧
      s.table.handle? cur = some ⟨cur, b.id⟩ ∧ cur ∉ o.ready ∧ ∀ line, cur ∉ o.waiting line := by
  rcases h.get?_current ho hcurrent with ⟨b, hb, hget, hstate⟩
  have hhandle := Table.handle?_of_get? hb
  refine ⟨b.bare, h.current.trans hcurrent, hget, hstate, hhandle, ?_, ?_⟩
  · rw [ho.placed.mem_ready_iff hget]
    simp [hstate]
  · exact ho.placed.not_mem_waiting hget (by simp [hstate])

theorem finish {w : Work β} (ho : o.Sound) {cur : Nat} {b : Block β}
    (hget : o.table.get? cur = some b) (hstate : b.state = .running) (code : Int32)
    (hexited : Represents w.scheduler (o.modify cur fun b => b.exit code).countExited) :
    Represents (w.wakeJoiner b.id b.joiner).scheduler (o.finish cur code b.joiner) := by
  cases hjoiner : b.joiner with
  | none => exact hexited
  | some j =>
      have hawaits : o.table.Awaits j cur := ⟨b, hget, by simp [hstate], hjoiner⟩
      rcases ho.joins.blocked hawaits with ⟨c, hc, hblocked⟩
      rcases Table.lookup_eq_some_iff.mp hc with ⟨hcget, hcid⟩
      have hc' : (o.modify cur fun b => b.exit code).countExited.table.lookup j = some c := by
        refine Table.lookup_eq_some_iff.mpr ⟨?_, hcid⟩
        show (o.table.modify cur _).get? j.slot = some c
        rw [Table.get?_modify_of_ne _ _ (ho.joins.ne_target hawaits), hcget]
      refine hexited.wakeJoiner b.id hc' ?_
      show j.slot ∉ o.ready
      rw [ho.placed.mem_ready_iff hcget, hblocked]
      decide

theorem joinable_eq_ok {cur : Nat} {handle : Handle} {target : Block β}
    (h : s.joinable cur handle = .ok target) :
    s.table.lookup handle = some target ∧ handle.slot ≠ cur ∧ target.isDetached = false ∧
      target.joiner = none := by
  unfold Scheduler.joinable at h
  cases hlookup : s.table.lookup handle with
  | none =>
      rw [hlookup] at h
      cases h
  | some b =>
      rw [hlookup] at h
      simp only at h
      split at h
      · cases h
      · split at h
        · cases h
        · split at h
          · cases h
          · injection h with h
            subst h
            simp_all

theorem finished?_eq_some {target : Block β} {code : Int32}
    (h : Scheduler.finished? target = some code) :
    target.state = .exited ∧ target.exitCode = some code := by
  unfold Scheduler.finished? at h
  split at h
  · exact ⟨‹_›, h⟩
  · cases h

theorem finished?_eq_none {target : Block β} (hcoherent : target.Coherent)
    (h : Scheduler.finished? target = none) : target.state ≠ .exited := by
  intro hstate
  have hsome := hcoherent.exitCode.mpr hstate
  rw [Scheduler.finished?, if_pos hstate] at h
  rw [h] at hsome
  cases hsome

/-!
# A departure leaves a thread behind that is ready
-/

section Departs

variable {supply : Supply} {caller : Handle} {request : Request β} {w : Work β} {b : Block β}
  {code : Int32}

theorem ready_ne_nil (h : Represents s o) (hready : s.ready.isEmpty = false) : o.ready ≠ [] := by
  rw [h.isEmpty_eq] at hready
  exact List.isEmpty_eq_false_iff.mp hready

theorem exited (h : Represents s o) {slot : Nat} (hready : slot ∉ o.ready) (code : Int32) :
    Represents ((((s.work.checkStack slot).unready slot).2.modify slot fun b => b.exit code).count
        fun c => { c with exited := c.exited + 1 }).scheduler
      (o.modify slot fun b => b.exit code).countExited := by
  have hchecked : Represents (s.work.checkStack slot).scheduler o :=
    Represents.checkStack (w := s.work) h slot
  have hmarked := (hchecked.unready hready).modify slot (f := fun b => b.exit code)
    (fun _ => rfl) fun _ lane => by cases lane <;> rfl
  exact Represents.count (w := ((s.work.checkStack slot).unready slot).2.modify slot fun b =>
    b.exit code) hmarked fun c => { c with exited := c.exited + 1 }

theorem ended_detached (h : Represents s o) {slot : Nat} (hget : o.table.get? slot = some b.bare)
    (hready : slot ∉ o.ready) (hwaiting : ∀ line, slot ∉ o.waiting line)
    (hdetached : b.isDetached = true) (hjoiner : b.joiner = none) :
    Represents (s.ended supply slot b code).scheduler (o.bury supply slot b.bare) := by
  have hexited := h.exited hready code
  have hget' : (o.modify slot fun b => b.exit code).countExited.table.get? slot =
      some (b.bare.exit code) := by
    simp [Outline.modify, Outline.countExited, hget]
  have hburied := Represents.bury (w := ((((s.work.checkStack slot).unready slot).2.modify slot
    fun b => b.exit code).count fun c => { c with exited := c.exited + 1 }).notice
      (.exited b.id code)) hexited supply hget' hready hwaiting
  have htable : ((o.modify slot fun b => b.exit code).countExited.table.remove slot).2 =
      (o.table.remove slot).2 :=
    Table.remove_modify hget fun b => b.exit code
  rw [htable] at hburied
  unfold Scheduler.ended
  simp only [hjoiner, hdetached, if_true]
  exact hburied

theorem ended_attached (h : Represents s o) (ho : o.Sound) {slot : Nat}
    (hget : o.table.get? slot = some b.bare) (hstate : b.state = .running) (hready : slot ∉ o.ready)
    (hattached : b.isDetached = false) :
    Represents (s.ended supply slot b code).scheduler (o.finish slot code b.joiner) := by
  have hfinished := Represents.finish (w := ((((s.work.checkStack slot).unready slot).2.modify slot
    fun b => b.exit code).count fun c => { c with exited := c.exited + 1 }).notice
      (.exited b.id code)) ho hget hstate code (h.exited hready code)
  unfold Scheduler.ended
  simp only [hattached]
  exact hfinished

theorem leaves_of_departs (h : Represents s o) (ho : o.Sound) (hrunning : s.running = .ok caller)
    (hdeparts : s.Departs supply caller request w) :
    ∃ b o₁, o.current = some caller.slot ∧ o.table.get? caller.slot = some b ∧ b.id = caller.id ∧
      o.Leaves supply caller.slot b request o₁ ∧ Represents w.scheduler o₁ ∧ o₁.ready ≠ [] := by
  rcases Scheduler.running_eq_ok_iff.mp hrunning with ⟨hcurrent, b, hlookup⟩
  rcases Table.lookup_eq_some_iff.mp (h.lookup_of_lookup hlookup) with ⟨hget, hid⟩
  rcases h.runner ho hcurrent with ⟨b', hcur, hget', hstate, hhandle, hready, hwaiting⟩
  rw [hget] at hget'
  injection hget' with hb'
  subst hb'
  have hchecked : Represents (s.work.checkStack caller.slot).scheduler o :=
    Represents.checkStack (w := s.work) h caller.slot
  refine ⟨b.bare, ?_⟩
  cases hdeparts with
  | yields hfirst =>
      exact ⟨_, hcur, hget, hid, .yields (h.ready_ne_nil hfirst), hchecked.makeReady hget hready,
        by simp [Outline.makeReady]⟩
  | waits hfirst =>
      exact ⟨_, hcur, hget, hid, .parks, hchecked.park _ hget hwaiting, h.ready_ne_nil hfirst⟩
  | @exits code c hget' hrefused =>
      rw [(Table.lookup_eq_some_iff.mp hlookup).1] at hget'
      injection hget' with hc
      subst hc
      by_cases hdetached : b.isDetached = true
      · have hjoiner : b.joiner = none := (ho.placed.coherent hget).unjoined hdetached
        have hfirst : s.ready.isEmpty = false := by simpa [hjoiner] using hrefused
        refine ⟨_, hcur, hget, hid, .vanishes hdetached,
          h.ended_detached hget hready hwaiting hdetached hjoiner, ?_⟩
        rw [Outline.ready_bury]
        exact h.ready_ne_nil hfirst
      · have hattached : b.isDetached = false := Bool.eq_false_iff.mpr hdetached
        refine ⟨_, hcur, hget, hid, .exits hattached,
          h.ended_attached ho hget hstate hready hattached, ?_⟩
        show (o.finish caller.slot code b.joiner).ready ≠ []
        cases hjoiner : b.joiner with
        | none => exact h.ready_ne_nil (by simpa [hjoiner] using hrefused)
        | some j => simp [Outline.finish, Outline.makeReady]
  | @joins target c hjoinable hfinished hfirst =>
      rcases joinable_eq_ok hjoinable with ⟨htarget, hne, hattached, hjoiner⟩
      have htarget' := h.lookup_of_lookup htarget
      have hlive : c.bare.state ≠ .exited :=
        finished?_eq_none (ho.placed.coherent (Table.lookup_eq_some_iff.mp htarget').1) hfinished
      have hjoined := hchecked.modify target.slot (f := fun c => { c with joiner := some caller })
        (fun _ => rfl) fun _ lane => by cases lane <;> rfl
      have hblocked := hjoined.modify caller.slot
        (f := fun c => { c with state := .blockedOnJoin }) (fun _ => rfl)
        fun _ lane => by cases lane <;> rfl
      have hleaves : o.Leaves supply caller.slot b.bare (.join target) _ :=
        .awaits htarget' hne hattached hjoiner hlive
      rw [hid] at hleaves
      exact ⟨_, hcur, hget, hid, hleaves, hblocked, h.ready_ne_nil hfirst⟩

theorem dispatch_of_departs (h : Represents s o) (ho : o.Sound) (hrunning : s.running = .ok caller)
    (hdeparts : s.Departs supply caller request w) :
    ∃ o' t, (w.dispatch caller).result = .ok t ∧ o.Step supply request (.ok (.transfer t)) o' ∧
      Represents (w.dispatch caller).scheduler o' := by
  rcases h.leaves_of_departs ho hrunning hdeparts with
    ⟨b, o₁, hcurrent, hget, hid, hleaves, hleft, hready⟩
  have horderly := ho.toOrderly
  rw [hcurrent] at horderly
  have hplaced := (horderly.leaves hget hleaves).placed
  cases hfirst : o₁.ready with
  | nil => exact absurd hfirst hready
  | cons slot rest =>
      rcases hplaced.get?_of_ready_cons hfirst with ⟨c, hc, -⟩
      rcases hleft.dispatch caller hfirst hc with ⟨htransfer, hdispatched⟩
      have hstep : o.Step supply request _ _ := .switched hcurrent hget hleaves hfirst hc
      rw [hid] at hstep
      exact ⟨_, _, htransfer, hstep, hdispatched⟩

end Departs

end Represents

end Coop
