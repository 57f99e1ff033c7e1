import Coop.Proofs.Scheduler.Outline
import Coop.Proofs.Thread.Coherent

/-!
# Every thread stands where its state says

A thread is in the ready queue when its state is ready, in the bucket of a line
when its block names the line, and it has the processor when its state is
running.  Between two steps of an operation nobody may have the processor, so the
runner is a parameter here, and not the running thread of the outline.
-/

namespace Coop

open Thread (Block Handle Id State Table)

namespace Thread.Table

variable {β : Type} {t : Table β} {slot : Nat} {b : Block β}

def state? (t : Table β) (slot : Nat) : Option State :=
  (t.get? slot).map Block.state

def line? (t : Table β) (slot : Nat) : Option Line :=
  (t.get? slot).bind Block.line

theorem state?_of_get? (h : t.get? slot = some b) : t.state? slot = some b.state := by
  simp [state?, h]

theorem line?_of_get? (h : t.get? slot = some b) : t.line? slot = b.line := by
  simp [line?, h]

end Thread.Table

namespace Outline

variable {β : Type} {o o' : Outline β} {runner runner' : Option Nat} {slot : Nat} {b : Block β}

/-- The places of a slot are those that the state in its block gives it. -/
structure Standing (o : Outline β) (runner : Option Nat) (slot : Nat) : Prop where
  running : runner = some slot ↔ o.table.state? slot = some .running
  ready : slot ∈ o.ready ↔ o.table.state? slot = some .ready
  waiting : ∀ line, slot ∈ o.waiting line ↔ o.table.line? slot = some line
  coherent : ∀ b, o.table.get? slot = some b → b.Coherent

/-- Every slot stands where it should, and once. -/
structure Placed (o : Outline β) (runner : Option Nat) : Prop where
  ready_nodup : o.ready.Nodup
  waiting_nodup : ∀ line, (o.waiting line).Nodup
  standing : ∀ slot, o.Standing runner slot

theorem Standing.congr (h : o.Standing runner slot)
    (hget : o'.table.get? slot = o.table.get? slot) (hready : slot ∈ o'.ready ↔ slot ∈ o.ready)
    (hwaiting : ∀ line, slot ∈ o'.waiting line ↔ slot ∈ o.waiting line)
    (hrunner : runner' = some slot ↔ runner = some slot) : o'.Standing runner' slot where
  running := by
    rw [hrunner, h.running, Table.state?, Table.state?, hget]
  ready := by
    rw [hready, h.ready, Table.state?, Table.state?, hget]
  waiting := by
    intro line
    rw [hwaiting, h.waiting, Table.line?, Table.line?, hget]
  coherent := by
    rw [hget]
    exact h.coherent

theorem Standing.of_get? (hget : o.table.get? slot = some b)
    (hrunning : runner = some slot ↔ b.state = .running)
    (hready : slot ∈ o.ready ↔ b.state = .ready)
    (hwaiting : ∀ line, slot ∈ o.waiting line ↔ b.line = some line) (hcoherent : b.Coherent) :
    o.Standing runner slot where
  running := by
    rw [hrunning, Table.state?_of_get? hget, Option.some_inj]
  ready := by
    rw [hready, Table.state?_of_get? hget, Option.some_inj]
  waiting := by
    intro line
    rw [hwaiting, Table.line?_of_get? hget]
  coherent := by
    intro c hc
    rw [hget] at hc
    injection hc with hc
    rw [← hc]
    exact hcoherent

namespace Placed

theorem coherent (h : o.Placed runner) (hget : o.table.get? slot = some b) : b.Coherent :=
  (h.standing slot).coherent b hget

theorem running_iff (h : o.Placed runner) (hget : o.table.get? slot = some b) :
    runner = some slot ↔ b.state = .running := by
  rw [(h.standing slot).running, Table.state?_of_get? hget, Option.some_inj]

theorem mem_ready_iff (h : o.Placed runner) (hget : o.table.get? slot = some b) :
    slot ∈ o.ready ↔ b.state = .ready := by
  rw [(h.standing slot).ready, Table.state?_of_get? hget, Option.some_inj]

theorem mem_waiting_iff (h : o.Placed runner) (hget : o.table.get? slot = some b) (line : Line) :
    slot ∈ o.waiting line ↔ b.line = some line := by
  rw [(h.standing slot).waiting, Table.line?_of_get? hget]

theorem not_mem_waiting (h : o.Placed runner) (hget : o.table.get? slot = some b)
    (hstate : b.state ≠ .blockedOnInterrupt) (line : Line) : slot ∉ o.waiting line := by
  intro hmem
  rw [h.mem_waiting_iff hget] at hmem
  exact hstate ((h.coherent hget).line.mp (by rw [hmem]; rfl))

theorem get?_of_running (h : o.Placed (some slot)) :
    ∃ b, o.table.get? slot = some b ∧ b.state = .running :=
  Option.map_eq_some_iff.mp ((h.standing slot).running.mp rfl)

theorem get?_of_mem_ready (h : o.Placed runner) (hmem : slot ∈ o.ready) :
    ∃ b, o.table.get? slot = some b ∧ b.state = .ready :=
  Option.map_eq_some_iff.mp ((h.standing slot).ready.mp hmem)

theorem get?_of_mem_waiting (h : o.Placed runner) {line : Line} (hmem : slot ∈ o.waiting line) :
    ∃ b, o.table.get? slot = some b ∧ b.state = .blockedOnInterrupt ∧ b.line = some line := by
  rcases Option.bind_eq_some_iff.mp (((h.standing slot).waiting line).mp hmem) with ⟨b, hb, hline⟩
  exact ⟨b, hb, (h.coherent hb).line.mp (by rw [hline]; rfl), hline⟩

theorem get?_of_ready_cons (h : o.Placed runner) {rest : List Nat}
    (hready : o.ready = slot :: rest) :
    ∃ b, o.table.get? slot = some b ∧ b.state = .ready := by
  apply h.get?_of_mem_ready
  rw [hready]
  exact List.mem_cons_self

theorem get?_of_waiting_cons (h : o.Placed runner) {line : Line} {rest : List Nat}
    (hwaiting : o.waiting line = slot :: rest) :
    ∃ b, o.table.get? slot = some b ∧ b.state = .blockedOnInterrupt ∧ b.line = some line := by
  apply h.get?_of_mem_waiting
  rw [hwaiting]
  exact List.mem_cons_self

theorem of_same (h : o.Placed runner) (htable : o'.table = o.table) (hready : o'.ready = o.ready)
    (hwaiting : o'.waiting = o.waiting) : o'.Placed runner := by
  rcases h with ⟨hreadyNodup, hwaitingNodup, hstanding⟩
  constructor
  · rw [hready]
    exact hreadyNodup
  · rw [hwaiting]
    exact hwaitingNodup
  · intro slot
    exact (hstanding slot).congr (by rw [htable]) (by rw [hready]) (by simp [hwaiting]) Iff.rfl

/-!
# Changes at one slot
-/

theorem change (h : o.Placed runner) (slot : Nat) (hready : o'.ready.Nodup)
    (hwaiting : ∀ line, (o'.waiting line).Nodup)
    (hget : ∀ other, other ≠ slot → o'.table.get? other = o.table.get? other)
    (hreadyIff : ∀ other, other ≠ slot → (other ∈ o'.ready ↔ other ∈ o.ready))
    (hwaitingIff : ∀ other, other ≠ slot → ∀ line,
      other ∈ o'.waiting line ↔ other ∈ o.waiting line)
    (hrunner : ∀ other, other ≠ slot → (runner' = some other ↔ runner = some other))
    (hslot : o'.Standing runner' slot) : o'.Placed runner' where
  ready_nodup := hready
  waiting_nodup := hwaiting
  standing := by
    intro other
    by_cases hother : other = slot
    · subst hother
      exact hslot
    · exact (h.standing other).congr (hget other hother) (hreadyIff other hother)
        (hwaitingIff other hother) (hrunner other hother)

theorem modify (h : o.Placed runner) (hget : o.table.get? slot = some b) {f : Block β → Block β}
    (hstate : (f b).state = b.state) (hline : (f b).line = b.line) (hcoherent : (f b).Coherent) :
    (o.modify slot f).Placed runner := by
  refine h.change slot h.ready_nodup h.waiting_nodup ?_ (fun _ _ => Iff.rfl) (fun _ _ _ => Iff.rfl)
    (fun _ _ => Iff.rfl) ?_
  · intro other hother
    exact Table.get?_modify_of_ne _ f hother
  · have hget' : (o.modify slot f).table.get? slot = some (f b) := by
      simp [Outline.modify, hget]
    refine Standing.of_get? hget' ?_ ?_ ?_ hcoherent
    · rw [hstate]
      exact h.running_iff hget
    · rw [hstate]
      exact h.mem_ready_iff hget
    · intro line
      rw [hline]
      exact h.mem_waiting_iff hget line

theorem modify_state (h : o.Placed runner) (hget : o.table.get? slot = some b)
    {f : Block β → Block β} (hready : b.state ≠ .ready)
    (hready' : (f b).state ≠ .ready) (hrunning' : (f b).state ≠ .running)
    (hline : (f b).line = b.line) (hcoherent : (f b).Coherent)
    (hrunner : ∀ other, runner' = some other ↔ other ≠ slot ∧ runner = some other) :
    (o.modify slot f).Placed runner' := by
  refine h.change slot h.ready_nodup h.waiting_nodup ?_ (fun _ _ => Iff.rfl) (fun _ _ _ => Iff.rfl)
    ?_ ?_
  · intro other hother
    exact Table.get?_modify_of_ne _ f hother
  · intro other hother
    simp [hrunner, hother]
  · have hget' : (o.modify slot f).table.get? slot = some (f b) := by
      simp [Outline.modify, hget]
    refine Standing.of_get? hget' ?_ ?_ ?_ hcoherent
    · exact iff_of_false (by simp [hrunner]) hrunning'
    · exact iff_of_false (fun hmem => hready ((h.mem_ready_iff hget).mp hmem)) hready'
    · intro line
      rw [hline]
      exact h.mem_waiting_iff hget line

/-!
# Moves from place to place
-/

theorem makeReady (h : o.Placed runner) (hget : o.table.get? slot = some b)
    (hstate : b.state = .running ∨ b.state = .blockedOnJoin)
    (hrunner : ∀ other, runner' = some other ↔ other ≠ slot ∧ runner = some other) :
    (o.makeReady slot).Placed runner' := by
  have hexited : b.state ≠ .exited := by rcases hstate with hs | hs <;> simp [hs]
  have hwaits : b.state ≠ .blockedOnInterrupt := by rcases hstate with hs | hs <;> simp [hs]
  have hready : b.state ≠ .ready := by rcases hstate with hs | hs <;> simp [hs]
  have hmem : slot ∉ o.ready := fun hmem => hready ((h.mem_ready_iff hget).mp hmem)
  refine h.change slot ?_ h.waiting_nodup ?_ ?_ (fun _ _ _ => Iff.rfl) ?_ ?_
  · exact List.nodup_append_comm.mp (List.nodup_cons.mpr ⟨hmem, h.ready_nodup⟩)
  · intro other hother
    exact Table.get?_modify_of_ne _ _ hother
  · intro other hother
    simp [Outline.makeReady, hother]
  · intro other hother
    simp [hrunner, hother]
  · have hget' : (o.makeReady slot).table.get? slot = some b.ready := by
      simp [Outline.makeReady, hget]
    refine Standing.of_get? hget' ?_ ?_ ?_ ?_
    · exact iff_of_false (by simp [hrunner]) (by simp [Block.ready])
    · exact iff_of_true (by simp [Outline.makeReady]) rfl
    · intro line
      exact h.mem_waiting_iff hget line
    · exact (h.coherent hget).withState hexited hwaits (by decide) (by decide)

theorem dispatch (h : o.Placed none) {rest : List Nat} (hready : o.ready = slot :: rest) :
    (o.dispatch slot rest).Placed (some slot) := by
  have hnodup := h.ready_nodup
  rw [hready] at hnodup
  rcases List.nodup_cons.mp hnodup with ⟨hslot, hrest⟩
  rcases h.get?_of_ready_cons hready with ⟨b, hget, hstate⟩
  refine h.change slot hrest h.waiting_nodup ?_ ?_ (fun _ _ _ => Iff.rfl) ?_ ?_
  · intro other hother
    exact Table.get?_modify_of_ne _ _ hother
  · intro other hother
    simp [Outline.dispatch, hready, hother]
  · intro other hother
    simp [Ne.symm hother]
  · have hget' : (o.dispatch slot rest).table.get? slot = some b.run := by
      simp [Outline.dispatch, hget]
    refine Standing.of_get? hget' ?_ ?_ ?_ ?_
    · exact iff_of_true rfl rfl
    · exact iff_of_false hslot (by simp [Block.run])
    · intro line
      exact h.mem_waiting_iff hget line
    · exact (h.coherent hget).withState (by simp [hstate]) (by simp [hstate]) (by decide)
        (by decide)

private theorem mem_update {waiting : Line → List Nat} {line : Line} {slots : List Nat}
    {other : Nat} (hsame : other ∈ slots ↔ other ∈ waiting line) (line' : Line) :
    other ∈ Function.update waiting line slots line' ↔ other ∈ waiting line' := by
  by_cases hline : line' = line
  · subst hline
    simpa using hsame
  · rw [Function.update_of_ne hline]

private theorem nodup_update {waiting : Line → List Nat} (h : ∀ line, (waiting line).Nodup)
    {line : Line} {slots : List Nat} (hslots : slots.Nodup) (line' : Line) :
    (Function.update waiting line slots line').Nodup := by
  by_cases hline : line' = line
  · subst hline
    simpa using hslots
  · rw [Function.update_of_ne hline]
    exact h line'

theorem park (h : o.Placed (some slot)) (line : Line) : (o.park slot line).Placed none := by
  rcases h.get?_of_running with ⟨b, hget, hstate⟩
  have hmem := h.not_mem_waiting hget (by simp [hstate])
  refine h.change slot h.ready_nodup ?_ ?_ (fun _ _ => Iff.rfl) ?_ ?_ ?_
  · exact nodup_update h.waiting_nodup
      (List.nodup_append_comm.mp (List.nodup_cons.mpr ⟨hmem line, h.waiting_nodup line⟩))
  · intro other hother
    exact Table.get?_modify_of_ne _ _ hother
  · intro other hother
    exact mem_update (by simp [hother])
  · intro other hother
    simp [Ne.symm hother]
  · have hget' : (o.park slot line).table.get? slot = some (b.park line) := by
      simp [Outline.park, hget]
    refine Standing.of_get? hget' (by simp [Block.park]) ?_ ?_ ?_
    · refine iff_of_false ?_ (by simp [Block.park])
      intro hready
      have hstate' := (h.mem_ready_iff hget).mp hready
      rw [hstate] at hstate'
      cases hstate'
    · intro line'
      by_cases hline : line' = line
      · subst hline
        simp [Outline.park, Block.park]
      · simp [Outline.park, Block.park, hline, hmem line', Ne.symm hline]
    · exact (h.coherent hget).park (by simp [hstate]) line

theorem wakeFirst (h : o.Placed runner) (line : Line) : (o.wakeFirst line).Placed runner := by
  cases hwaiting : o.waiting line with
  | nil =>
      rw [wakeFirst_nil hwaiting]
      exact h
  | cons slot rest =>
      rw [wakeFirst_cons hwaiting]
      have hnodup := h.waiting_nodup line
      rw [hwaiting] at hnodup
      rcases List.nodup_cons.mp hnodup with ⟨hslot, hrest⟩
      rcases h.get?_of_waiting_cons hwaiting with ⟨b, hget, hstate, hline⟩
      have hmem : slot ∉ o.ready := by
        intro hmem
        have hstate' := (h.mem_ready_iff hget).mp hmem
        rw [hstate] at hstate'
        cases hstate'
      refine h.change slot ?_ ?_ ?_ ?_ ?_ (fun _ _ => Iff.rfl) ?_
      · exact List.nodup_append_comm.mp (List.nodup_cons.mpr ⟨hmem, h.ready_nodup⟩)
      · exact nodup_update h.waiting_nodup hrest
      · intro other hother
        exact Table.get?_modify_of_ne _ _ hother
      · intro other hother
        simp [hother]
      · intro other hother
        exact mem_update (by simp [hwaiting, hother])
      · refine Standing.of_get? (b := b.unpark.ready) ?_ ?_ ?_ ?_ ?_
        · simp [hget]
        · refine iff_of_false ?_ (by simp [Block.ready])
          intro hrunner
          have hstate' := (h.running_iff hget).mp hrunner
          rw [hstate] at hstate'
          cases hstate'
        · exact iff_of_true (by simp) rfl
        · intro line'
          refine iff_of_false ?_ (by simp [Block.unpark, Block.ready])
          by_cases hline' : line' = line
          · subst hline'
            simpa using hslot
          · show slot ∉ Function.update o.waiting line rest line'
            rw [Function.update_of_ne hline', h.mem_waiting_iff hget, hline, Option.some_inj]
            exact Ne.symm hline'
        · exact (h.coherent hget).wake (by simp [hstate])

/-!
# Coming and going
-/

theorem remove (h : o.Placed runner) (hget : o.table.get? slot = some b)
    (hready : b.state ≠ .ready) (hwaits : b.state ≠ .blockedOnInterrupt)
    (htable : o'.table = (o.table.remove slot).2) (hreadySame : o'.ready = o.ready)
    (hwaitingSame : o'.waiting = o.waiting)
    (hrunner : ∀ other, runner' = some other ↔ other ≠ slot ∧ runner = some other) :
    o'.Placed runner' := by
  have hnone : o'.table.get? slot = none := by
    rw [htable, Table.get?_remove, if_pos rfl]
  refine h.change slot ?_ ?_ ?_ ?_ ?_ ?_ ?_
  · rw [hreadySame]
    exact h.ready_nodup
  · rw [hwaitingSame]
    exact h.waiting_nodup
  · intro other hother
    rw [htable, Table.get?_remove, if_neg hother]
  · intro other _
    rw [hreadySame]
  · intro other _ line
    rw [hwaitingSame]
  · intro other hother
    simp [hrunner, hother]
  · constructor
    · simp [hrunner, Table.state?, hnone]
    · rw [hreadySame, h.mem_ready_iff hget]
      simp [hready, Table.state?, hnone]
    · intro line
      rw [hwaitingSame]
      simp [h.not_mem_waiting hget hwaits line, Table.line?, hnone]
    · simp [hnone]

theorem not_mem_ready_of_vacant (h : o.Placed runner) (hget : o.table.get? slot = none) :
    slot ∉ o.ready := by
  rw [(h.standing slot).ready]
  simp [Table.state?, hget]

theorem not_mem_waiting_of_vacant (h : o.Placed runner) (hget : o.table.get? slot = none)
    (line : Line) : slot ∉ o.waiting line := by
  rw [(h.standing slot).waiting]
  simp [Table.line?, hget]

theorem enroll (h : o.Placed runner) (hpacked : o.table.Packed) (hstate : b.state = .ready)
    (hline : b.line = none) (hcoherent : b.Coherent) :
    ((o.store b).makeReady o.table.nextSlot).Placed runner := by
  have hvacant := hpacked.get?_nextSlot
  have hmem := h.not_mem_ready_of_vacant hvacant
  have hready : b.ready = b := by
    rw [Block.ready, ← hstate]
  refine h.change o.table.nextSlot ?_ h.waiting_nodup ?_ ?_ (fun _ _ _ => Iff.rfl)
    (fun _ _ => Iff.rfl) ?_
  · exact List.nodup_append_comm.mp (List.nodup_cons.mpr ⟨hmem, h.ready_nodup⟩)
  · intro other hother
    simp [Outline.makeReady, Outline.store, Table.get?_modify, hother, hpacked.get?_insert]
  · intro other hother
    simp [Outline.makeReady, Outline.store, hother]
  · refine Standing.of_get? (b := b) ?_ ?_ ?_ ?_ hcoherent
    · simp [Outline.makeReady, Outline.store, hpacked.get?_insert, hready]
    · rw [(h.standing _).running]
      simp [Table.state?, hvacant, hstate]
    · exact iff_of_true (by simp [Outline.makeReady]) hstate
    · intro line
      rw [hline]
      exact iff_of_false (h.not_mem_waiting_of_vacant hvacant line) (by simp)

theorem adopt (h : o.Placed none) (hpacked : o.table.Packed) (hstate : b.state = .running)
    (hline : b.line = none) (hcoherent : b.Coherent) :
    (o.store b).Placed (some o.table.nextSlot) := by
  have hvacant := hpacked.get?_nextSlot
  refine h.change o.table.nextSlot h.ready_nodup h.waiting_nodup ?_ (fun _ _ => Iff.rfl)
    (fun _ _ _ => Iff.rfl) ?_ ?_
  · intro other hother
    simp [Outline.store, hother, hpacked.get?_insert]
  · intro other hother
    simp [Ne.symm hother]
  · refine Standing.of_get? (b := b) ?_ ?_ ?_ ?_ hcoherent
    · simp [Outline.store, hpacked.get?_insert]
    · exact iff_of_true rfl hstate
    · exact iff_of_false (h.not_mem_ready_of_vacant hvacant) (by simp [hstate])
    · intro line
      rw [hline]
      exact iff_of_false (h.not_mem_waiting_of_vacant hvacant line) (by simp)

end Placed

end Outline

end Coop
