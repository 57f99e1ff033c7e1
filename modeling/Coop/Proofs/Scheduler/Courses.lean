import Coop.Proofs.Scheduler.JoinGraph
import Coop.Proofs.Scheduler.Origins
import Coop.Proofs.Scheduler.Waking

/-!
# What an operation does to a block

A block that stays in the table through an operation is left alone, or it is changed
for one reason: its thread asked for it, another thread named it, a line fired, or it
was its turn to run.  A thread that gives up the processor is changed in two legs.
In the first one it leaves its place, which may touch two blocks, its own and that of a
target or a joiner.  In the second one the first ready thread begins to run.
-/

namespace Coop

open Thread (Block Handle Spec State Table)

namespace Thread.Table

variable {β : Type} {t : Table β} {h j : Handle} {b b' c : Block β} {slot : Nat}

theorem eq_of_slot_eq (hh : t.lookup h = some b) (hj : t.lookup j = some c)
    (hslot : h.slot = j.slot) : h = j := by
  by_contra hne
  rw [lookup_eq_none_of_ne hj hslot hne] at hh
  cases hh

theorem lookup_modify_cases {f : Block β → Block β} (hf : ∀ b, (f b).id = b.id)
    (hlookup : t.lookup h = some b) (hlater : (t.modify slot f).lookup h = some b') :
    h.slot = slot ∧ b' = f b ∨ h.slot ≠ slot ∧ b' = b := by
  rw [lookup_modify hf, hlookup] at hlater
  split at hlater
  · injection hlater with hb
    exact Or.inl ⟨‹_›, hb.symm⟩
  · injection hlater with hb
    exact Or.inr ⟨‹_›, hb.symm⟩

theorem eq_of_lookup_remove (hlookup : t.lookup h = some b)
    (hlater : (t.remove slot).2.lookup h = some b') : b' = b := by
  rcases lookup_eq_some_iff.mp hlookup with ⟨hget, -⟩
  rcases lookup_eq_some_iff.mp hlater with ⟨hget', -⟩
  rw [get?_remove] at hget'
  split at hget'
  · cases hget'
  · rw [hget] at hget'
    injection hget' with hb
    exact hb.symm

end Thread.Table

namespace Outline

variable {β : Type} {o o' o₁ : Outline β} {h : Handle} {supply : Supply} {request : Request β}
  {result : Except Error (Answer β)} {b b' c : Block β} {cur : Nat}

/-- What a thread that leaves its place does to a block. -/
inductive Leg (o : Outline β) (h : Handle) : Request β → Block β → Block β → Prop where
  | kept {request : Request β} {b : Block β} : Leg o h request b b
  | yields {b : Block β} : o.Runs h → Leg o h .yield b b.ready
  | parks {b : Block β} {line : Line} : o.Runs h → Leg o h (.wait line) b (b.park line)
  | exits {b : Block β} {code : Int32} : o.Runs h → Leg o h (.exit code) b (b.exit code)
  | joins {b : Block β} {target : Handle} : o.Runs h →
      Leg o h (.join target) b { b with state := .blockedOnJoin }
  | named {b : Block β} {caller : Handle} : o.Runs caller → b.joiner = none →
      Leg o h (.join h) b { b with joiner := some caller }
  | released {b : Block β} {target : Handle} {code : Int32} : o.Runs target →
      o.Awaits h target → Leg o h (.exit code) b b.ready

inductive Next (o : Outline β) (h : Handle) : Request β → Prop where
  | front {request : Request β} : o.ready.head? = some h.slot → Next o h request
  /-- No thread was ready, and the runner exits while the thread waits for that. -/
  | released {target : Handle} {code : Int32} : o.ready = [] → o.Runs target →
      o.Awaits h target → Next o h (.exit code)

/-- What an operation does to the block of a thread that stays in the table. -/
inductive Course (o : Outline β) (h : Handle) (request : Request β) :
    Except Error (Answer β) → Block β → Block β → Prop where
  | kept {result : Except Error (Answer β)} {b : Block β} : Course o h request result b b
  | took {b : Block β} : o.Runs h → request = .takeBody →
      Course o h request (.ok (.body b.body)) b { b with body := none }
  | left {b b₁ : Block β} {t : Transfer} : Leg o h request b b₁ →
      Course o h request (.ok (.transfer t)) b b₁
  | dispatched {b b₁ : Block β} {t : Transfer} : Leg o h request b b₁ → t.target = h →
      Next o h request → Course o h request (.ok (.transfer t)) b b₁.run
  | detached {b : Block β} : request = .detach h → Course o h request (.ok .done) b b.detach
  | woken {b : Block β} {lines : List Line} {line : Line} {count : Nat} :
      request.lines? = some lines → line ∈ lines → h.slot ∈ o.waiting line →
        Course o h request (.ok (.woken count)) b b.woken

/-!
# The first leg
-/

theorem runs_of_get? (hcurrent : o.current = some cur) (hget : o.table.get? cur = some c) :
    o.Runs ⟨cur, c.id⟩ :=
  ⟨hcurrent, c, Table.lookup_of_get? hget⟩

theorem Sound.leg_of_finish (ho : o.Sound) (hcurrent : o.current = some cur)
    (hget : o.table.get? cur = some c) (code : Int32) (hlookup : o.table.lookup h = some b)
    (hlater : (o.finish cur code c.joiner).table.lookup h = some b') :
    Leg o h (.exit code) b b' := by
  have hruns : h.slot = cur → o.Runs h := by
    rintro rfl
    exact ⟨hcurrent, b, hlookup⟩
  unfold finish at hlater
  cases hjoiner : c.joiner with
  | none =>
      rw [hjoiner] at hlater
      rcases Table.lookup_modify_cases (f := fun b => b.exit code) (fun _ => rfl) hlookup
        hlater with ⟨hslot, rfl⟩ | ⟨-, rfl⟩
      · exact .exits (hruns hslot)
      · exact .kept
  | some j =>
      rw [hjoiner] at hlater
      have hstate : c.state = .running := (ho.placed.running_iff hget).mp hcurrent
      have htarget : o.Awaits j ⟨cur, c.id⟩ :=
        ⟨c, Table.lookup_of_get? hget, by simp [hstate], hjoiner⟩
      have hne : j.slot ≠ cur := ho.joins.ne_target htarget.table
      rcases ho.joins.blocked htarget.table with ⟨d, hd, -⟩
      change ((o.table.modify cur fun b => b.exit code).modify j.slot Block.ready).lookup h =
        some b' at hlater
      by_cases hslot : h.slot = cur
      · have hother : h.slot ≠ j.slot := by
          rw [hslot]
          exact hne.symm
        rw [Table.lookup_modify (f := Block.ready) (fun _ => rfl), if_neg hother] at hlater
        rcases Table.lookup_modify_cases (f := fun b => b.exit code) (fun _ => rfl) hlookup
          hlater with ⟨-, rfl⟩ | ⟨hcur, -⟩
        · exact .exits (hruns hslot)
        · exact absurd hslot hcur
      · have hsame : (o.table.modify cur fun b => b.exit code).lookup h = some b := by
          rw [Table.lookup_modify (f := fun b => b.exit code) (fun _ => rfl), if_neg hslot, hlookup]
        rcases Table.lookup_modify_cases (t := o.table.modify cur fun b => b.exit code)
          (f := Block.ready) (fun _ => rfl) hsame hlater with ⟨hjoined, rfl⟩ | ⟨-, rfl⟩
        · have heq := Table.eq_of_slot_eq hlookup hd hjoined
          subst heq
          exact .released (runs_of_get? hcurrent hget) htarget
        · exact .kept

theorem leg_of_await {target : Handle} {d : Block β} (hcurrent : o.current = some cur)
    (hget : o.table.get? cur = some c) (htarget : o.table.lookup target = some d)
    (hne : target.slot ≠ cur) (hjoiner : d.joiner = none) (hlookup : o.table.lookup h = some b)
    (hlater : (o.await cur ⟨cur, c.id⟩ target).table.lookup h = some b') :
    Leg o h (.join target) b b' := by
  change ((o.table.modify target.slot fun d => { d with joiner := some ⟨cur, c.id⟩ }).modify cur
    fun b => { b with state := .blockedOnJoin }).lookup h = some b' at hlater
  by_cases hslot : h.slot = cur
  · have hother : h.slot ≠ target.slot := by
      rw [hslot]
      exact hne.symm
    have hsame : (o.table.modify target.slot fun d =>
        { d with joiner := some ⟨cur, c.id⟩ }).lookup h = some b := by
      rw [Table.lookup_modify (f := fun d => { d with joiner := some ⟨cur, c.id⟩ })
        (fun _ => rfl), if_neg hother, hlookup]
    rw [Table.lookup_modify (f := fun b => { b with state := .blockedOnJoin }) (fun _ => rfl),
      if_pos hslot, hsame] at hlater
    injection hlater with hb
    subst hb
    exact .joins ⟨by rw [hcurrent, hslot], b, hlookup⟩
  · rw [Table.lookup_modify (f := fun b => { b with state := .blockedOnJoin }) (fun _ => rfl),
      if_neg hslot] at hlater
    rcases Table.lookup_modify_cases (f := fun d => { d with joiner := some ⟨cur, c.id⟩ })
      (fun _ => rfl) hlookup hlater with ⟨htargets, rfl⟩ | ⟨-, rfl⟩
    · have heq := Table.eq_of_slot_eq hlookup htarget htargets
      subst heq
      rw [hlookup] at htarget
      injection htarget with hb
      rw [← hb] at hjoiner
      exact .named (runs_of_get? hcurrent hget) hjoiner
    · exact .kept

theorem Leaves.leg (ho : o.Sound) (hcurrent : o.current = some cur)
    (hget : o.table.get? cur = some c) (hleaves : Leaves supply o cur c request o₁)
    (hlookup : o.table.lookup h = some b) (hlater : o₁.table.lookup h = some b') :
    Leg o h request b b' := by
  have hruns : h.slot = cur → o.Runs h := by
    rintro rfl
    exact ⟨hcurrent, b, hlookup⟩
  cases hleaves with
  | yields _ =>
      rcases Table.lookup_modify_cases (f := Block.ready) (fun _ => rfl) hlookup hlater with
        ⟨hslot, rfl⟩ | ⟨-, rfl⟩
      · exact .yields (hruns hslot)
      · exact .kept
  | @parks line =>
      rcases Table.lookup_modify_cases (f := fun b => b.park line) (fun _ => rfl) hlookup
        hlater with ⟨hslot, rfl⟩ | ⟨-, rfl⟩
      · exact .parks (hruns hslot)
      · exact .kept
  | @exits code _ => exact ho.leg_of_finish hcurrent hget code hlookup hlater
  | vanishes _ =>
      rw [table_bury] at hlater
      rw [Table.eq_of_lookup_remove hlookup hlater]
      exact .kept
  | awaits htarget hne _ hjoiner _ =>
      exact leg_of_await hcurrent hget htarget hne hjoiner hlookup hlater

/-!
# The second leg
-/

/-- Whoever is first once the runner has left was first before, or was waiting for its exit. -/
theorem Leaves.next (ho : o.Sound) (hcurrent : o.current = some cur)
    (hget : o.table.get? cur = some c) (hleaves : Leaves supply o cur c request o₁)
    (hlookup : o.table.lookup h = some b) {rest : List Nat} (hready : o₁.ready = h.slot :: rest) :
    Next o h request := by
  have hfront : ∀ {slots : List Nat}, o₁.ready = o.ready ++ slots → o.ready ≠ [] →
      o.ready.head? = some h.slot := by
    intro slots happend hne
    rw [happend] at hready
    cases hfirst : o.ready with
    | nil => exact absurd hfirst hne
    | cons first others =>
        rw [hfirst] at hready
        injection hready with hslot
        rw [hslot]
        rfl
  have hsame : o₁.ready = o.ready → Next o h request := by
    intro heq
    have happend : o₁.ready = o.ready ++ [] := by rw [heq, List.append_nil]
    refine .front (hfront happend ?_)
    rw [← heq, hready]
    exact List.cons_ne_nil _ _
  cases hleaves with
  | yields hne => exact .front (hfront rfl hne)
  | parks => exact hsame rfl
  | vanishes _ => exact hsame (ready_bury o supply cur c)
  | awaits _ _ _ _ _ => exact hsame rfl
  | @exits code _ =>
      unfold finish at hready hfront hsame
      cases hjoiner : c.joiner with
      | none =>
          rw [hjoiner] at hsame
          exact hsame rfl
      | some j =>
          rw [hjoiner] at hready hfront
          cases hqueue : o.ready with
          | cons first others => exact .front (hfront rfl (by simp [hqueue]))
          | nil =>
              have hstate : c.state = .running := (ho.placed.running_iff hget).mp hcurrent
              have htarget : o.Awaits j ⟨cur, c.id⟩ :=
                ⟨c, Table.lookup_of_get? hget, by simp [hstate], hjoiner⟩
              rcases ho.joins.blocked htarget.table with ⟨d, hd, -⟩
              change o.ready ++ [j.slot] = h.slot :: rest at hready
              rw [hqueue] at hready
              injection hready with hslot
              have heq := Table.eq_of_slot_eq hlookup hd hslot.symm
              subst heq
              exact .released hqueue (runs_of_get? hcurrent hget) htarget

theorem course_of_switch {slot : Nat} {rest : List Nat} {d : Block β} (ho : o.Sound)
    (hcurrent : o.current = some cur) (hget : o.table.get? cur = some c)
    (hleaves : Leaves supply o cur c request o₁) (hready : o₁.ready = slot :: rest)
    (htarget : o₁.table.get? slot = some d) (hlookup : o.table.lookup h = some b)
    (hlater : (o₁.dispatch slot rest).table.lookup h = some b') :
    Course o h request (.ok (.transfer ⟨⟨cur, c.id⟩, ⟨slot, d.id⟩⟩)) b b' := by
  have hdispatched : (o₁.table.modify slot Block.run).lookup h = some b' := hlater
  rw [Table.lookup_modify (f := Block.run) (fun _ => rfl)] at hdispatched
  by_cases hslot : h.slot = slot
  · rw [if_pos hslot] at hdispatched
    rcases Option.map_eq_some_iff.mp hdispatched with ⟨b₁, hleft, rfl⟩
    subst hslot
    have hhandle : (⟨h.slot, d.id⟩ : Handle) = h := by
      rcases Table.lookup_eq_some_iff.mp hleft with ⟨hb₁, hid⟩
      rw [htarget] at hb₁
      injection hb₁ with hd
      rw [hd, hid]
    exact .dispatched (hleaves.leg ho hcurrent hget hlookup hleft) hhandle
      (hleaves.next ho hcurrent hget hlookup hready)
  · rw [if_neg hslot] at hdispatched
    exact .left (hleaves.leg ho hcurrent hget hlookup hdispatched)

/-!
# The whole operation
-/

theorem Step.course (ho : o.Sound) (hstep : o.Step supply request result o')
    (hlookup : o.table.lookup h = some b) (hlater : o'.table.lookup h = some b') :
    Course o h request result b b' := by
  rcases Table.lookup_eq_some_iff.mp hlookup with ⟨hget, hid⟩
  rcases Table.lookup_eq_some_iff.mp hlater with ⟨hget', -⟩
  by_cases hnew : ∃ handle, result = .ok (.handle handle)
  · -- a new block is stored in a vacant slot
    rcases hnew with ⟨handle, rfl⟩
    rcases hstep.begins ho with ⟨-, d, -, hslots⟩
    rw [hslots] at hget'
    split at hget'
    · rename_i hslot
      rw [hslot, ho.packed.get?_nextSlot] at hget
      cases hget
    · rw [hget] at hget'
      injection hget' with hb
      rw [hb]
      exact .kept
  · cases hstep with
    | idle hidle =>
        rw [hidle.alike.lookup, hlookup] at hlater
        injection hlater with hb
        rw [hb]
        exact .kept
    | bootstrapped _ _ => exact absurd ⟨_, rfl⟩ hnew
    | spawned _ _ _ => exact absurd ⟨_, rfl⟩ hnew
    | @took cur c hcurrent hcur =>
        rcases Table.lookup_modify_cases (f := fun b => { b with body := none }) (fun _ => rfl)
          hlookup hlater with ⟨rfl, rfl⟩ | ⟨-, rfl⟩
        · rw [hget] at hcur
          injection hcur with hb
          rw [← hb]
          exact .took ⟨hcurrent, b, hlookup⟩ rfl
        · exact .kept
    | switched hcurrent hcur hleaves hready htarget =>
        exact course_of_switch ho hcurrent hcur hleaves hready htarget hlookup hlater
    | delivered _ _ _ _ _ _ =>
        rw [table_reclaim] at hlater
        rw [Table.eq_of_lookup_remove hlookup hlater]
        exact .kept
    | @detached cur target handle _ htarget _ _ =>
        rcases Table.lookup_modify_cases (f := Block.detach) (fun _ => rfl) hlookup hlater with
          ⟨hslot, rfl⟩ | ⟨-, rfl⟩
        · have heq := Table.eq_of_slot_eq hlookup htarget hslot
          subst heq
          exact .detached rfl
        · exact .kept
    | dropped _ _ _ _ =>
        rw [table_reclaim] at hlater
        rw [Table.eq_of_lookup_remove hlookup hlater]
        exact .kept
    | @woken request lines hlines =>
        rw [o.wakeAll_get? lines h.slot, hget, Option.map_some] at hget'
        injection hget' with hb
        rw [← hb]
        split
        · rename_i hwaits
          rcases hwaits with ⟨line, hline, hmem⟩
          exact .woken hlines hline hmem
        · exact .kept

end Outline

end Coop
