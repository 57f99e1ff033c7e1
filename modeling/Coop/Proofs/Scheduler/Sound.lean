import Coop.Proofs.Scheduler.Standing
import Coop.Proofs.Scheduler.Steps
import Coop.Proofs.Thread.Joins

/-!
# Soundness is kept

An outline is sound when its slots agree with their accounts, its identifiers
with their numbering, its threads with their places, and its joiners with their
targets.  Whatever a step does, a sound outline is sound afterwards.  In the
middle of a step that gives up the processor nobody has it, so the order of the
threads is first stated for any runner.
-/

namespace Coop

open Thread (Block Handle Id Spec State Table)

namespace Outline

variable {β : Type} {o o' : Outline β} {runner : Option Nat} {slot : Nat} {b : Block β}

/-- Everything is in order, and the thread in the runner's slot has the processor. -/
structure Orderly (o : Outline β) (runner : Option Nat) : Prop where
  packed : o.table.Packed
  numbered : o.table.Numbered o.nextId
  placed : o.Placed runner
  joins : o.table.Joins

structure Sound (o : Outline β) : Prop extends o.Orderly o.current where
  deserted : o.current = none → ∀ slot, o.table.get? slot = none

theorem Alike.orderly (h : o.Alike o') (ho : o.Orderly runner) : o'.Orderly runner := by
  rcases h with ⟨slotRoom, vacantRoom, pool, graveyard, rfl⟩
  rcases ho with ⟨packed, numbered, placed, joins⟩
  constructor
  · exact ⟨packed.vacant_nodup, packed.mem_vacant_iff, packed.live_eq, packed.live_le⟩
  · exact ⟨numbered.lt, numbered.unique⟩
  · refine ⟨placed.ready_nodup, placed.waiting_nodup, ?_⟩
    intro slot
    rcases placed.standing slot with ⟨running, ready, waiting, coherent⟩
    exact ⟨running, ready, waiting, coherent⟩
  · exact ⟨joins.blocked, joins.ne_target, joins.unique, joins.awaits⟩

theorem Alike.sound (h : o.Alike o') (ho : o.Sound) : o'.Sound where
  toOrderly := by
    rw [h.current]
    exact h.orderly ho.toOrderly
  deserted := by
    intro hcurrent slot
    rw [h.current] at hcurrent
    rw [h.get?]
    exact ho.deserted hcurrent slot

theorem Sound.of_orderly (slot : Nat) (h : o.Orderly (some slot))
    (hcurrent : o.current = some slot) :
    o.Sound where
  toOrderly := by
    rw [hcurrent]
    exact h
  deserted := by
    intro hnone
    rw [hcurrent] at hnone
    cases hnone

theorem Sound.get?_current (h : o.Sound) {cur : Nat} (hcurrent : o.current = some cur) :
    ∃ b, o.table.get? cur = some b ∧ b.state = .running := by
  have hplaced := h.placed
  rw [hcurrent] at hplaced
  exact hplaced.get?_of_running

/-!
# Order under moves
-/

namespace Orderly

theorem makeReady (h : o.Orderly (some slot)) : (o.makeReady slot).Orderly none := by
  rcases h.placed.get?_of_running with ⟨b, hget, hstate⟩
  constructor
  · exact h.packed.modify slot Block.ready
  · exact h.numbered.modify slot fun _ => rfl
  · refine h.placed.makeReady hget (Or.inl hstate) ?_
    intro other
    simp [eq_comm]
  · exact h.joins.modify hget rfl (by simp [Block.ready, hstate])
      (by simp [Block.ready, hstate]) rfl

theorem dispatch (h : o.Orderly none) {rest : List Nat} (hready : o.ready = slot :: rest) :
    (o.dispatch slot rest).Orderly (some slot) := by
  rcases h.placed.get?_of_ready_cons hready with ⟨b, hget, hstate⟩
  constructor
  · exact h.packed.modify slot Block.run
  · exact h.numbered.modify slot fun _ => rfl
  · exact h.placed.dispatch hready
  · exact h.joins.modify hget rfl (by simp [Block.run, hstate]) (by simp [Block.run, hstate]) rfl

theorem park (h : o.Orderly (some slot)) (line : Line) : (o.park slot line).Orderly none := by
  rcases h.placed.get?_of_running with ⟨b, hget, hstate⟩
  constructor
  · exact h.packed.modify slot fun b => b.park line
  · exact h.numbered.modify slot fun _ => rfl
  · exact h.placed.park line
  · exact h.joins.modify hget rfl (by simp [Block.park, hstate]) (by simp [Block.park, hstate]) rfl

theorem wakeFirst (h : o.Orderly runner) (line : Line) : (o.wakeFirst line).Orderly runner := by
  have hplaced := h.placed.wakeFirst line
  cases hwaiting : o.waiting line with
  | nil =>
      rw [wakeFirst_nil hwaiting]
      exact h
  | cons slot rest =>
      rw [wakeFirst_cons hwaiting] at hplaced ⊢
      rcases h.placed.get?_of_waiting_cons hwaiting with ⟨b, hget, hstate, -⟩
      constructor
      · exact h.packed.modify slot _
      · exact h.numbered.modify slot fun _ => rfl
      · exact hplaced
      · exact h.joins.modify hget rfl (by simp [Block.ready, hstate])
          (by simp [Block.ready, hstate]) rfl

theorem wakeMany (h : o.Orderly runner) (line : Line) (count : Nat) :
    (o.wakeMany line count).Orderly runner := by
  induction count generalizing o with
  | zero => exact h
  | succ count ih => exact ih (h.wakeFirst line)

theorem wake (h : o.Orderly runner) (line : Line) : (o.wake line).Orderly runner := by
  rcases h.wakeMany line (o.waiting line).length with ⟨hpacked, hnumbered, hplaced, hjoins⟩
  exact ⟨hpacked, hnumbered, hplaced.of_same rfl rfl rfl, hjoins⟩

theorem wakeAll (h : o.Orderly runner) (lines : List Line) : (o.wakeAll lines).Orderly runner := by
  induction lines generalizing o with
  | nil => exact h
  | cons line lines ih => exact ih (h.wake line)

theorem remove {runner' : Option Nat} (h : o.Orderly runner) (hget : o.table.get? slot = some b)
    (hstate : b.state = .running ∨ b.state = .exited)
    (hleaves : b.state = .exited ∨ b.joiner = none)
    (hrunner : ∀ other, runner' = some other ↔ other ≠ slot ∧ runner = some other)
    (htable : o'.table = (o.table.remove slot).2) (hready : o'.ready = o.ready)
    (hwaiting : o'.waiting = o.waiting) (hnextId : o'.nextId = o.nextId) : o'.Orderly runner' := by
  have hnotReady : b.state ≠ .ready := by rcases hstate with hs | hs <;> simp [hs]
  have hnotWaiting : b.state ≠ .blockedOnInterrupt := by rcases hstate with hs | hs <;> simp [hs]
  have hnotJoining : b.state ≠ .blockedOnJoin := by rcases hstate with hs | hs <;> simp [hs]
  constructor
  · rw [htable]
    exact h.packed.remove slot
  · rw [htable, hnextId]
    exact h.numbered.remove slot
  · exact h.placed.remove hget hnotReady hnotWaiting htable hready hwaiting hrunner
  · rw [htable]
    exact h.joins.remove hget hnotJoining hleaves

end Orderly

section Reclaim

variable (o : Outline β) (supply : Supply) (slot : Nat) (b : Block β)

private theorem release_eq (stack : Option Stack) :
    (o.release supply stack).table = o.table ∧ (o.release supply stack).ready = o.ready ∧
      (o.release supply stack).waiting = o.waiting ∧ (o.release supply stack).nextId = o.nextId ∧
        (o.release supply stack).current = o.current := by
  cases stack <;> exact ⟨rfl, rfl, rfl, rfl, rfl⟩

theorem table_reclaim : (o.reclaim supply slot b).table = (o.table.remove slot).2 :=
  (release_eq _ supply b.stack).1

theorem ready_reclaim : (o.reclaim supply slot b).ready = o.ready :=
  (release_eq _ supply b.stack).2.1

theorem waiting_reclaim : (o.reclaim supply slot b).waiting = o.waiting :=
  (release_eq _ supply b.stack).2.2.1

theorem nextId_reclaim : (o.reclaim supply slot b).nextId = o.nextId :=
  (release_eq _ supply b.stack).2.2.2.1

theorem current_reclaim : (o.reclaim supply slot b).current = o.current :=
  (release_eq _ supply b.stack).2.2.2.2

theorem counters_release (stack : Option Stack) :
    (o.release supply stack).counters = o.counters := by
  cases stack <;> rfl

theorem counters_reclaim :
    (o.reclaim supply slot b).counters =
      { o.counters with reclaimed := o.counters.reclaimed + 1 } := by
  unfold reclaim countReclaimed
  simp only [counters_release]

theorem counters_bury :
    (o.bury supply slot b).counters =
      { o.counters with
        exited := o.counters.exited + 1
        reclaimed := o.counters.reclaimed + 1 } := by
  unfold bury retire countReclaimed
  cases b.stack with
  | none => rfl
  | some stack => simp only [counters_release, countExited]

theorem table_bury : (o.bury supply slot b).table = (o.table.remove slot).2 := by
  unfold bury retire
  cases b.stack with
  | none => rfl
  | some stack => exact (release_eq _ supply o.graveyard).1

theorem ready_bury : (o.bury supply slot b).ready = o.ready := by
  unfold bury retire
  cases b.stack with
  | none => rfl
  | some stack => exact (release_eq _ supply o.graveyard).2.1

theorem waiting_bury : (o.bury supply slot b).waiting = o.waiting := by
  unfold bury retire
  cases b.stack with
  | none => rfl
  | some stack => exact (release_eq _ supply o.graveyard).2.2.1

theorem nextId_bury : (o.bury supply slot b).nextId = o.nextId := by
  unfold bury retire
  cases b.stack with
  | none => rfl
  | some stack => exact (release_eq _ supply o.graveyard).2.2.2.1

theorem current_bury : (o.bury supply slot b).current = o.current := by
  unfold bury retire
  cases b.stack with
  | none => rfl
  | some stack => exact (release_eq _ supply o.graveyard).2.2.2.2

end Reclaim

theorem Sound.reclaim (h : o.Sound) (supply : Supply) (hget : o.table.get? slot = some b)
    (hstate : b.state = .exited) {cur : Nat} (hcurrent : o.current = some cur) :
    (o.reclaim supply slot b).Sound := by
  refine Sound.of_orderly cur ?_ ((current_reclaim o supply slot b).trans hcurrent)
  refine h.toOrderly.remove hget (Or.inr hstate) (Or.inl hstate) ?_ (table_reclaim o supply slot b)
    (ready_reclaim o supply slot b) (waiting_reclaim o supply slot b)
    (nextId_reclaim o supply slot b)
  intro other
  rw [hcurrent]
  constructor
  · intro hother
    refine ⟨?_, hother⟩
    rintro rfl
    have hrunning := (h.placed.running_iff hget).mp (hcurrent.trans hother)
    rw [hstate] at hrunning
    cases hrunning
  · exact And.right

/-!
# Order under the ways to give up the processor
-/

namespace Orderly

variable {cur : Nat}

theorem finish (h : o.Orderly (some cur)) (hget : o.table.get? cur = some b)
    (hattached : b.isDetached = false) (code : Int32) :
    (o.finish cur code b.joiner).Orderly none := by
  have hstate : b.state = .running := (h.placed.running_iff hget).mp rfl
  have hcoherent := (h.placed.coherent hget).exit (by simp [hstate]) hattached code
  have hrunner : ∀ other,
      (none : Option Nat) = some other ↔ other ≠ cur ∧ some cur = some other := by
    intro other
    simp [eq_comm]
  have hplaced : (o.modify cur fun b => b.exit code).Placed none :=
    h.placed.modify_state hget (by simp [hstate]) (by simp [Block.exit]) (by simp [Block.exit]) rfl
      hcoherent hrunner
  have hcounted : (o.modify cur fun b => b.exit code).countExited.Placed none :=
    hplaced.of_same rfl rfl rfl
  have hpacked : (o.table.modify cur fun b => b.exit code).Packed := h.packed.modify cur _
  have hnumbered : (o.table.modify cur fun b => b.exit code).Numbered o.nextId :=
    h.numbered.modify cur fun _ => rfl
  unfold Outline.finish
  cases hjoiner : b.joiner with
  | none => exact ⟨hpacked, hnumbered, hcounted, h.joins.exit hget hstate hjoiner code⟩
  | some j =>
      have hawaits : o.table.Awaits j cur := ⟨b, hget, by simp [hstate], hjoiner⟩
      rcases Table.blocked_iff_get?.mp (h.joins.blocked hawaits) with ⟨c, hc, -, hblocked⟩
      have hc' : (o.modify cur fun b => b.exit code).countExited.table.get? j.slot = some c := by
        show (o.table.modify cur _).get? j.slot = some c
        rw [Table.get?_modify_of_ne _ _ (h.joins.ne_target hawaits), hc]
      refine ⟨hpacked.modify j.slot Block.ready, hnumbered.modify j.slot fun _ => rfl, ?_,
        h.joins.exit_ready hget hstate hjoiner code⟩
      exact hcounted.makeReady hc' (Or.inr hblocked) (by simp)

theorem await (h : o.Orderly (some cur)) (hget : o.table.get? cur = some b) {handle : Handle}
    {target : Block β} (htarget : o.table.lookup handle = some target) (hne : handle.slot ≠ cur)
    (hattached : target.isDetached = false) (hjoiner : target.joiner = none)
    (hlive : target.state ≠ .exited) : (o.await cur ⟨cur, b.id⟩ handle).Orderly none := by
  have hstate : b.state = .running := (h.placed.running_iff hget).mp rfl
  have htarget' := (Table.lookup_eq_some_iff.mp htarget).1
  have hjoined : (o.modify handle.slot fun c => { c with joiner := some ⟨cur, b.id⟩ }).Placed
      (some cur) :=
    h.placed.modify htarget' rfl rfl ((h.placed.coherent htarget').join hattached _)
  have hget' : (o.modify handle.slot fun c =>
      { c with joiner := some ⟨cur, b.id⟩ }).table.get? cur = some b := by
    show (o.table.modify handle.slot _).get? cur = some b
    rw [Table.get?_modify_of_ne _ _ hne.symm, hget]
  constructor
  · exact (h.packed.modify handle.slot _).modify cur _
  · have hnumbered := h.numbered.modify handle.slot
      (f := fun c => { c with joiner := some ⟨cur, b.id⟩ }) fun _ => rfl
    exact hnumbered.modify cur (f := fun b => { b with state := .blockedOnJoin }) fun _ => rfl
  · refine hjoined.modify_state hget' (by simp [hstate]) (by simp) (by simp) rfl ?_ ?_
    · exact (h.placed.coherent hget).withState (by simp [hstate]) (by simp [hstate]) (by decide)
        (by decide)
    · intro other
      simp [eq_comm]
  · exact h.joins.await hne hget hstate htarget' hlive hjoiner

theorem bury (h : o.Orderly (some cur)) (supply : Supply) (hget : o.table.get? cur = some b)
    (hdetached : b.isDetached = true) : (o.bury supply cur b).Orderly none := by
  have hstate : b.state = .running := (h.placed.running_iff hget).mp rfl
  refine h.remove hget (Or.inl hstate) (Or.inr ((h.placed.coherent hget).unjoined hdetached)) ?_
    (table_bury o supply cur b) (ready_bury o supply cur b) (waiting_bury o supply cur b)
    (nextId_bury o supply cur b)
  intro other
  simp [eq_comm]

theorem leaves {supply : Supply} {request : Request β} {o₁ : Outline β}
    (h : o.Orderly (some cur)) (hget : o.table.get? cur = some b)
    (hleaves : Leaves supply o cur b request o₁) : o₁.Orderly none := by
  cases hleaves with
  | yields _ => exact h.makeReady
  | parks => exact h.park _
  | exits hattached => exact h.finish hget hattached _
  | vanishes hdetached => exact h.bury supply hget hdetached
  | awaits htarget hne hattached hjoiner hlive =>
      exact h.await hget htarget hne hattached hjoiner hlive

end Orderly

/-!
# Order under arrivals
-/

theorem Sound.adopt (h : o.Sound) (hcurrent : o.current = none)
    (hroom : o.table.live < o.table.limit) :
    o.adopt.Sound := by
  have hplaced := h.placed
  rw [hcurrent] at hplaced
  have hadopted : (o.store (.main o.nextId)).Placed (some o.table.nextSlot) :=
    hplaced.adopt h.packed rfl rfl (Block.Coherent.main o.nextId)
  refine Sound.of_orderly o.table.nextSlot ?_ rfl
  constructor
  · exact h.packed.insert hroom _
  · exact h.numbered.insert h.packed rfl
  · exact hadopted.of_same rfl rfl rfl
  · exact h.joins.insert h.packed (by simp [Block.main]) rfl

theorem Sound.enroll (h : o.Sound) {cur : Nat} (hcurrent : o.current = some cur)
    (hroom : o.table.live < o.table.limit) (stack : Stack) (body : β) (spec : Spec) :
    (o.enroll (.fresh o.nextId stack body spec)).Sound := by
  have hplaced := h.placed
  rw [hcurrent] at hplaced
  have henrolled := hplaced.enroll h.packed (b := .fresh o.nextId stack body spec) rfl rfl
    (Block.Coherent.fresh o.nextId stack body spec)
  have hget : (o.table.insert (.fresh o.nextId stack body spec)).2.get? o.table.nextSlot =
      some (.fresh o.nextId stack body spec) := by
    rw [h.packed.get?_insert, if_pos rfl]
  refine Sound.of_orderly cur ?_ hcurrent
  constructor
  · exact (h.packed.insert hroom _).modify _ _
  · exact (h.numbered.insert h.packed rfl).modify _ fun _ => rfl
  · exact henrolled.of_same rfl rfl rfl
  · exact (h.joins.insert h.packed (by simp [Block.fresh]) rfl).modify hget rfl
      (by simp [Block.fresh, Block.ready]) (by simp [Block.fresh, Block.ready]) rfl

/-!
# Every step keeps soundness
-/

theorem Sound.modify (h : o.Sound) (hget : o.table.get? slot = some b) {f : Block β → Block β}
    (hid : ∀ b, (f b).id = b.id) (hstate : (f b).state = b.state) (hline : (f b).line = b.line)
    (hjoiner : (f b).joiner = b.joiner) (hcoherent : (f b).Coherent) {cur : Nat}
    (hcurrent : o.current = some cur) : (o.modify slot f).Sound := by
  refine Sound.of_orderly cur ?_ hcurrent
  have hplaced := h.placed
  rw [hcurrent] at hplaced
  constructor
  · exact h.packed.modify slot f
  · exact h.numbered.modify slot hid
  · exact hplaced.modify hget hstate hline hcoherent
  · exact h.joins.modify hget (hid b) (by rw [hstate]) (by rw [hstate]) hjoiner

theorem wakeMany_eq (o : Outline β) (line : Line) (count : Nat) :
    ∃ slots ready waiting,
      o.wakeMany line count =
        { o with
          table := { o.table with slots := slots }
          ready := ready
          waiting := waiting } := by
  induction count generalizing o with
  | zero => exact ⟨o.table.slots, o.ready, o.waiting, rfl⟩
  | succ count ih =>
      rcases ih (o.wakeFirst line) with ⟨slots, ready, waiting, hwoken⟩
      refine ⟨slots, ready, waiting, hwoken.trans ?_⟩
      cases hwaiting : o.waiting line with
      | nil => rw [wakeFirst_nil hwaiting]
      | cons slot rest =>
          rw [wakeFirst_cons hwaiting]
          rfl

theorem wakeMany_current (o : Outline β) (line : Line) (count : Nat) :
    (o.wakeMany line count).current = o.current := by
  rcases wakeMany_eq o line count with ⟨slots, ready, waiting, hwoken⟩
  rw [hwoken]

theorem wakeAll_current (o : Outline β) (lines : List Line) :
    (o.wakeAll lines).current = o.current := by
  induction lines generalizing o with
  | nil => rfl
  | cons line lines ih => exact (ih _).trans (wakeMany_current o line _)

theorem wakeMany_nextId (o : Outline β) (line : Line) (count : Nat) :
    (o.wakeMany line count).nextId = o.nextId := by
  rcases wakeMany_eq o line count with ⟨slots, ready, waiting, hwoken⟩
  rw [hwoken]

theorem wakeAll_nextId (o : Outline β) (lines : List Line) :
    (o.wakeAll lines).nextId = o.nextId := by
  induction lines generalizing o with
  | nil => rfl
  | cons line lines ih => exact (ih _).trans (wakeMany_nextId o line _)

theorem Sound.waiting_eq_nil (h : o.Sound) (hcurrent : o.current = none) (line : Line) :
    o.waiting line = [] := by
  apply List.eq_nil_iff_forall_not_mem.mpr
  intro slot
  exact h.placed.not_mem_waiting_of_vacant (h.deserted hcurrent slot) line

theorem Sound.ready_eq_nil (h : o.Sound) (hcurrent : o.current = none) : o.ready = [] := by
  apply List.eq_nil_iff_forall_not_mem.mpr
  intro slot
  exact h.placed.not_mem_ready_of_vacant (h.deserted hcurrent slot)

theorem wakeAll_table_of_empty (o : Outline β) (hwaiting : ∀ line, o.waiting line = [])
    (lines : List Line) : (o.wakeAll lines).table = o.table := by
  induction lines generalizing o with
  | nil => rfl
  | cons line lines ih =>
      have hsame : (o.wake line).waiting = o.waiting ∧ (o.wake line).table = o.table := by
        simp [wake, hwaiting line, wakeMany]
      rw [show o.wakeAll (line :: lines) = (o.wake line).wakeAll lines from rfl,
        ih (o.wake line) (by rw [hsame.1]; exact hwaiting), hsame.2]

theorem Sound.wakeAll (h : o.Sound) (lines : List Line) : (o.wakeAll lines).Sound where
  toOrderly := by
    rw [wakeAll_current]
    exact h.toOrderly.wakeAll lines
  deserted := by
    intro hcurrent slot
    rw [wakeAll_current] at hcurrent
    rw [wakeAll_table_of_empty o (h.waiting_eq_nil hcurrent) lines]
    exact h.deserted hcurrent slot

theorem Step.sound {supply : Supply} {request : Request β} {result : Except Error (Answer β)}
    (h : o.Sound) (hstep : Step supply o request result o') : o'.Sound := by
  cases hstep with
  | idle hidle => exact hidle.alike.sound h
  | bootstrapped hcurrent hroom =>
      have halike := Alike.reserve o supply
      exact (halike.sound h).adopt (halike.current.trans hcurrent) (Table.live_lt_of_reserve hroom)
  | @spawned cur spec body stack hcurrent hroom hstack =>
      have halike :=
        (Alike.reserve o supply).allocate supply (o.config.stackSize spec.stackSize)
      exact (halike.sound h).enroll (halike.current.trans hcurrent) (Table.live_lt_of_reserve hroom)
        (o.prepare stack) body spec
  | took hcurrent hget =>
      exact h.modify hget (fun _ => rfl) rfl rfl rfl (h.placed.coherent hget).withoutBody hcurrent
  | switched hcurrent hget hleaves hready htarget =>
      have horderly := h.toOrderly
      rw [hcurrent] at horderly
      exact Sound.of_orderly _ ((horderly.leaves hget hleaves).dispatch hready) rfl
  | delivered hcurrent hget hlookup hfetch hstate hcode =>
      exact h.reclaim supply (Table.lookup_eq_some_iff.mp hlookup).1 hstate hcurrent
  | detached hcurrent hlookup hjoiner hstate =>
      have hget := (Table.lookup_eq_some_iff.mp hlookup).1
      exact h.modify hget (fun _ => rfl) rfl rfl rfl
        ((h.placed.coherent hget).detach hstate hjoiner) hcurrent
  | dropped hcurrent hlookup hjoiner hstate =>
      exact h.reclaim supply (Table.lookup_eq_some_iff.mp hlookup).1 hstate hcurrent
  | woken _ => exact h.wakeAll _

end Outline

end Coop
