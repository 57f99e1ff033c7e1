import Coop.Proofs.Scheduler.Simulation
import Coop.Proofs.Thread.Lives

/-!
# What a step can do to a thread

Seen from one handle, a step begins the life of a thread, changes it, ends it, or
leaves it alone.  Each change has one cause, and the cause is the request and its
answer: this is the law that everything about joins and exit codes follows from.
-/

namespace Coop

open Thread (Block Handle Id Life Spec State Table)

namespace Outline

variable {β : Type} {o o' : Outline β} {h : Handle} {request : Request β}
  {result : Except Error (Answer β)}

def life? (o : Outline β) (h : Handle) : Option Life :=
  o.table.life? h

def Runs (o : Outline β) (h : Handle) : Prop :=
  o.current = some h.slot ∧ ∃ b, o.table.lookup h = some b

inductive Fate (o : Outline β) (h : Handle) (request : Request β)
    (result : Except Error (Answer β)) : Option Life → Option Life → Prop where
  | absent : Fate o h request result none none
  | kept {l : Life} : Fate o h request result (some l) (some l)
  | born {detached : Bool} : h.id = o.nextId → result = .ok (.handle h) →
      (request = .bootstrap ∧ detached = true ∨
        ∃ spec body, request = .spawn spec body ∧ detached = spec.detached) →
      Fate o h request result none (some { detached })
  | joined {caller : Handle} {t : Transfer} : o.Runs caller → caller ≠ h → request = .join h →
      result = .ok (.transfer t) → t.source = caller →
      Fate o h request result (some { detached := false })
        (some { detached := false, joiner := some caller })
  | exited {joiner : Option Handle} {code : Int32} {t : Transfer} : o.Runs h →
      request = .exit code → result = .ok (.transfer t) →
      Fate o h request result (some ⟨false, joiner, none⟩) (some ⟨false, joiner, some code⟩)
  | vanished {code : Int32} {t : Transfer} : o.Runs h → request = .exit code →
      result = .ok (.transfer t) → Fate o h request result (some { detached := true }) none
  | detached {before : Bool} : request = .detach h → result = .ok .done →
      Fate o h request result (some { detached := before }) (some { detached := true })
  | dropped {code : Int32} : request = .detach h → result = .ok .done →
      Fate o h request result (some ⟨false, none, some code⟩) none
  | delivered {caller : Handle} {b : Block β} {joiner : Option Handle} {code : Int32} :
      o.Runs caller → Fetches caller h b request → b.joiner = joiner →
      result = .ok (.code code) → Fate o h request result (some ⟨false, joiner, some code⟩) none

theorem Fate.same {before after : Option Life} (heq : after = before) :
    Fate o h request result before after := by
  subst heq
  cases after with
  | none => exact .absent
  | some l => exact .kept

/-!
# Lives under moves
-/

section Moves

variable (o) (h)

theorem life?_makeReady (slot : Nat) : (o.makeReady slot).life? h = o.life? h :=
  Table.life?_modify (f := Block.ready) (fun _ => rfl) (fun _ => rfl) slot h

theorem life?_dispatch (slot : Nat) (rest : List Nat) :
    (o.dispatch slot rest).life? h = o.life? h :=
  Table.life?_modify (f := Block.run) (fun _ => rfl) (fun _ => rfl) slot h

theorem life?_park (slot : Nat) (line : Line) : (o.park slot line).life? h = o.life? h :=
  Table.life?_modify (f := fun b => b.park line) (fun _ => rfl) (fun _ => rfl) slot h

theorem life?_wakeFirst (line : Line) : (o.wakeFirst line).life? h = o.life? h := by
  cases hwaiting : o.waiting line with
  | nil => rw [wakeFirst_nil hwaiting]
  | cons slot rest =>
      rw [wakeFirst_cons hwaiting]
      exact Table.life?_modify (f := fun b => b.unpark.ready) (fun _ => rfl) (fun _ => rfl) slot h

theorem life?_wakeMany (line : Line) (count : Nat) :
    (o.wakeMany line count).life? h = o.life? h := by
  induction count generalizing o with
  | zero => rfl
  | succ count ih => exact (ih _).trans (life?_wakeFirst o h line)

theorem life?_wakeAll (lines : List Line) : (o.wakeAll lines).life? h = o.life? h := by
  induction lines generalizing o with
  | nil => rfl
  | cons line lines ih => exact (ih _).trans (life?_wakeMany o h line _)

end Moves

theorem Alike.life? (halike : o.Alike o') (h : Handle) : o'.life? h = o.life? h := by
  rw [Outline.life?, Outline.life?, Table.life?, Table.life?, halike.lookup]

theorem life?_finish {cur : Handle} {b : Block β} (hlookup : o.table.lookup cur = some b)
    (code : Int32) (joiner : Option Handle) (h : Handle) :
    (o.finish cur.slot code joiner).life? h =
      if h = cur then some { b.life with exitCode := some code } else o.life? h := by
  have hready : (o.finish cur.slot code joiner).life? h =
      (o.table.modify cur.slot fun b => b.exit code).life? h := by
    unfold finish
    cases joiner with
    | none => rfl
    | some j => exact life?_makeReady _ h j.slot
  rw [hready]
  by_cases hcur : h = cur
  · subst hcur
    rw [if_pos rfl, Table.life?_modify_same (f := fun b => b.exit code) (fun _ => rfl) hlookup]
    rfl
  · rw [if_neg hcur]
    exact Table.life?_modify_of_ne (f := fun b => b.exit code) (fun _ => rfl) hlookup hcur

theorem life?_await {caller target : Handle} {c : Block β} (cur : Nat)
    (hlookup : o.table.lookup target = some c) (h : Handle) :
    (o.await cur caller target).life? h =
      if h = target then some { c.life with joiner := some caller } else o.life? h := by
  have hblocked : (o.await cur caller target).life? h =
      (o.table.modify target.slot fun c => { c with joiner := some caller }).life? h :=
    Table.life?_modify (f := fun b => { b with state := .blockedOnJoin }) (fun _ => rfl)
      (fun _ => rfl) cur h
  rw [hblocked]
  by_cases htarget : h = target
  · subst htarget
    rw [if_pos rfl, Table.life?_modify_same (f := fun c => { c with joiner := some caller })
      (fun _ => rfl) hlookup]
    rfl
  · rw [if_neg htarget]
    exact Table.life?_modify_of_ne (f := fun c => { c with joiner := some caller }) (fun _ => rfl)
      hlookup htarget

theorem life?_remove {o' : Outline β} {cur : Handle} {b : Block β}
    (hlookup : o.table.lookup cur = some b) (htable : o'.table = (o.table.remove cur.slot).2)
    (h : Handle) : o'.life? h = if h = cur then none else o.life? h := by
  rw [life?, htable]
  by_cases hcur : h = cur
  · subst hcur
    rw [if_pos rfl]
    exact Table.life?_remove_same o.table h
  · rw [if_neg hcur]
    exact Table.life?_remove_of_ne hlookup hcur

theorem life?_store (hpacked : o.table.Packed) (b : Block β) (h : Handle) :
    (o.store b).life? h = if h = ⟨o.table.nextSlot, b.id⟩ then some b.life else o.life? h := by
  by_cases hnew : h = ⟨o.table.nextSlot, b.id⟩
  · subst hnew
    rw [if_pos rfl]
    exact hpacked.life?_insert_same b
  · rw [if_neg hnew]
    exact hpacked.life?_insert_of_ne b hnew

/-!
# The fate of a handle
-/

/-- The exit code of a thread that has not exited, and the joiner of a detached one. -/
theorem Sound.exitCode_eq_none (ho : o.Sound) {b : Block β} (hlookup : o.table.lookup h = some b)
    (hstate : b.state ≠ .exited) : b.exitCode = none := by
  rw [← Option.not_isSome_iff_eq_none]
  intro hsome
  exact hstate ((ho.placed.coherent (Table.lookup_eq_some_iff.mp hlookup).1).exitCode.mp hsome)

theorem Sound.id_lt_of_life? (ho : o.Sound) {l : Life} (hlife : o.life? h = some l) :
    h.id < o.nextId := by
  rcases Option.map_eq_some_iff.mp hlife with ⟨b, hlookup, -⟩
  rcases Table.lookup_eq_some_iff.mp hlookup with ⟨hget, hid⟩
  rw [← hid]
  exact ho.numbered.lt hget

theorem Sound.attached_of_exited (ho : o.Sound) {b : Block β} (hlookup : o.table.lookup h = some b)
    (hstate : b.state = .exited) : b.isDetached = false :=
  (ho.placed.coherent (Table.lookup_eq_some_iff.mp hlookup).1).attached hstate

theorem Leaves.fate {supply : Supply} {cur : Nat} {b : Block β} {o₁ : Outline β} {t : Transfer}
    (ho : o.Sound) (hcurrent : o.current = some cur) (hget : o.table.get? cur = some b)
    (hleaves : Leaves supply o cur b request o₁) (hsource : t.source = ⟨cur, b.id⟩) (h : Handle) :
    Fate o h request (.ok (.transfer t)) (o.life? h) (o₁.life? h) := by
  have hlookup : o.table.lookup ⟨cur, b.id⟩ = some b := Table.lookup_of_get? hget
  have hruns : o.Runs ⟨cur, b.id⟩ := ⟨hcurrent, b, hlookup⟩
  have hstate : b.state = .running := (ho.placed.running_iff hget).mp hcurrent
  have hcode : b.exitCode = none := ho.exitCode_eq_none hlookup (by simp [hstate])
  have hlife : o.life? ⟨cur, b.id⟩ = some b.life := Table.life?_of_lookup hlookup
  cases hleaves with
  | yields _ => exact .same (life?_makeReady o h cur)
  | parks => exact .same (life?_park o h cur _)
  | @exits code hattached =>
      rw [life?_finish hlookup code b.joiner h]
      by_cases hcur : h = ⟨cur, b.id⟩
      · rw [if_pos hcur, hcur, hlife, Block.life, hattached, hcode]
        exact .exited hruns rfl rfl
      · rw [if_neg hcur]
        exact .same rfl
  | @vanishes code hdetached =>
      rw [life?_remove hlookup (table_bury o supply cur b) h]
      by_cases hcur : h = ⟨cur, b.id⟩
      · have hjoiner : b.joiner = none := (ho.placed.coherent hget).unjoined hdetached
        rw [if_pos hcur, hcur, hlife, Block.life, hdetached, hcode, hjoiner]
        exact .vanished hruns rfl rfl
      · rw [if_neg hcur]
        exact .same rfl
  | @awaits handle target htarget hne hattached hjoiner hlive =>
      rw [life?_await cur htarget h]
      by_cases heq : h = handle
      · have hlife' : o.life? handle = some target.life := Table.life?_of_lookup htarget
        rw [if_pos heq, heq, hlife', Block.life, hattached, hjoiner,
          ho.exitCode_eq_none htarget hlive]
        refine .joined hruns ?_ rfl rfl hsource
        intro hcaller
        rw [← hcaller] at hne
        exact hne rfl
      · rw [if_neg heq]
        exact .same rfl

theorem Fate.arrival (ho : o.Sound) {after : Option Life} {b : Block β}
    (hafter : after = if h = ⟨o.table.nextSlot, o.nextId⟩ then some b.life else o.life? h)
    (hrequest : request = .bootstrap ∧ b.life = { detached := true } ∨
      ∃ spec body, request = .spawn spec body ∧ b.life = { detached := spec.detached }) :
    Fate o h request (.ok (.handle ⟨o.table.nextSlot, o.nextId⟩)) (o.life? h) after := by
  by_cases hnew : h = ⟨o.table.nextSlot, o.nextId⟩
  · have hnone : o.life? h = none := by
      rw [hnew]
      exact ho.packed.life?_nextSlot o.nextId
    rw [if_pos hnew] at hafter
    rw [hnone, hafter]
    rcases hrequest with ⟨hrequest, hlife⟩ | ⟨spec, body, hrequest, hlife⟩
    · rw [hlife]
      exact .born (by rw [hnew]) (by rw [hnew]) (Or.inl ⟨hrequest, rfl⟩)
    · rw [hlife]
      exact .born (by rw [hnew]) (by rw [hnew]) (Or.inr ⟨spec, body, hrequest, rfl⟩)
  · rw [if_neg hnew] at hafter
    exact .same hafter

theorem Step.fate {supply : Supply} (ho : o.Sound) (hstep : o.Step supply request result o')
    (h : Handle) : Fate o h request result (o.life? h) (o'.life? h) := by
  cases hstep with
  | idle hidle => exact .same (hidle.alike.life? h)
  | bootstrapped hcurrent hroom =>
      have halike := Alike.reserve o supply
      have hstored := life?_store (halike.sound ho).packed (.main o.nextId) h
      rw [halike.nextSlot, halike.life?] at hstored
      exact .arrival ho hstored (Or.inl ⟨rfl, rfl⟩)
  | @spawned cur spec body stack hcurrent hroom hstack =>
      have halike :=
        (Alike.reserve o supply).allocate supply (o.config.stackSize spec.stackSize)
      have hstored := life?_store (halike.sound ho).packed
        (.fresh o.nextId (o.prepare stack) body spec) h
      rw [halike.nextSlot, halike.life?] at hstored
      have henrolled := life?_makeReady
        (((o.reserve supply).allocate supply (o.config.stackSize spec.stackSize)).store
          (.fresh o.nextId (o.prepare stack) body spec)) h
        ((o.reserve supply).allocate supply (o.config.stackSize spec.stackSize)).table.nextSlot
      exact .arrival ho (henrolled.trans hstored) (Or.inr ⟨spec, body, rfl, rfl⟩)
  | took hcurrent hget =>
      exact .same (Table.life?_modify (f := fun b => { b with body := none }) (fun _ => rfl)
        (fun _ => rfl) _ h)
  | switched hcurrent hget hleaves hready htarget =>
      rw [life?_dispatch]
      exact hleaves.fate ho hcurrent hget rfl h
  | @delivered cur b target handle code request hcurrent hget hlookup hfetch hstate hcode =>
      rw [life?_remove hlookup (table_reclaim o supply handle.slot target) h]
      by_cases heq : h = handle
      · subst heq
        have hlife : o.life? h = some target.life := Table.life?_of_lookup hlookup
        rw [if_pos rfl, hlife, Block.life, ho.attached_of_exited hlookup hstate, hcode]
        exact .delivered ⟨hcurrent, b, Table.lookup_of_get? hget⟩ hfetch rfl rfl
      · rw [if_neg heq]
        exact .same rfl
  | @detached cur target handle hcurrent hlookup hjoiner hstate =>
      by_cases heq : h = handle
      · subst heq
        have hlife : o.life? h = some target.life := Table.life?_of_lookup hlookup
        have hlife' : (o.modify h.slot Block.detach).life? h = some target.detach.life :=
          Table.life?_modify_same (f := Block.detach) (fun _ => rfl) hlookup
        have hcode := ho.exitCode_eq_none hlookup hstate
        have hdetach : target.detach.life = { detached := true } := by
          show (⟨true, target.joiner, target.exitCode⟩ : Life) = _
          rw [hjoiner, hcode]
        rw [hlife, hlife', hdetach, Block.life, hjoiner, hcode]
        exact .detached rfl rfl
      · exact .same (Table.life?_modify_of_ne (f := Block.detach) (fun _ => rfl) hlookup heq)
  | @dropped cur target handle hcurrent hlookup hjoiner hstate =>
      rw [life?_remove hlookup (table_reclaim o supply handle.slot target) h]
      by_cases heq : h = handle
      · subst heq
        have hlife : o.life? h = some target.life := Table.life?_of_lookup hlookup
        have hcoherent := ho.placed.coherent (Table.lookup_eq_some_iff.mp hlookup).1
        rcases Option.isSome_iff_exists.mp (hcoherent.exitCode.mpr hstate) with ⟨code, hcode⟩
        rw [if_pos rfl, hlife, Block.life, ho.attached_of_exited hlookup hstate, hjoiner, hcode]
        exact .dropped rfl rfl
      · rw [if_neg heq]
        exact .same rfl
  | woken _ => exact .same (life?_wakeAll o h _)

theorem Step.life?_of_exit {supply : Supply} (ho : o.Sound) {code : Int32} {t : Transfer}
    (hstep : o.Step supply (.exit code) (.ok (.transfer t)) o') (hruns : o.Runs h) :
    (∃ joiner, o.life? h = some ⟨false, joiner, none⟩ ∧
      o'.life? h = some ⟨false, joiner, some code⟩) ∨
      (o.life? h = some { detached := true } ∧ o'.life? h = none) := by
  cases hstep with
  | idle hidle => cases hidle
  | @switched cur slot rest b c request o₁ hcurrent hget hleaves hready htarget =>
      rcases hruns with ⟨hslot, target, hlookup⟩
      rw [hcurrent] at hslot
      injection hslot with hslot
      subst hslot
      have htarget : target = b := by
        have hget' := (Table.lookup_eq_some_iff.mp hlookup).1
        rw [hget] at hget'
        injection hget' with hb
        exact hb.symm
      subst htarget
      have hstate := (ho.placed.running_iff hget).mp hcurrent
      have hcode := ho.exitCode_eq_none hlookup (by simp [hstate])
      have hlife : o.life? h = some target.life := Table.life?_of_lookup hlookup
      rw [life?_dispatch]
      cases hleaves with
      | exits hattached =>
          refine Or.inl ⟨target.joiner, ?_, ?_⟩
          · rw [hlife, Block.life, hattached, hcode]
          · rw [life?_finish hlookup, if_pos rfl, Block.life, hattached]
      | vanishes hdetached =>
          have hjoiner := (ho.placed.coherent hget).unjoined hdetached
          refine Or.inr ⟨?_, ?_⟩
          · rw [hlife, Block.life, hdetached, hjoiner, hcode]
          · rw [life?_remove hlookup (table_bury o supply h.slot target), if_pos rfl]

theorem Step.life?_of_join {supply : Supply} {t : Transfer} (ho : o.Sound)
    (hstep : o.Step supply (.join h) (.ok (.transfer t)) o') :
    o.Runs t.source ∧ o'.life? h = some { detached := false, joiner := some t.source } := by
  cases hstep with
  | idle hidle => cases hidle
  | @switched cur slot rest b c request o₁ hcurrent hget hleaves hready htarget =>
      cases hleaves with
      | @awaits handle target hlookup hne hattached hjoiner hlive =>
          refine ⟨⟨hcurrent, b, Table.lookup_of_get? hget⟩, ?_⟩
          rw [life?_dispatch, life?_await cur hlookup, if_pos rfl, Block.life, hattached,
            ho.exitCode_eq_none hlookup hlive]

def arrivals (result : Except Error (Answer β)) : Nat :=
  match result with
  | .ok (.handle _) => 1
  | _ => 0

theorem Step.nextId_eq {supply : Supply} (hstep : o.Step supply request result o') :
    o'.nextId = o.nextId + arrivals result := by
  cases hstep with
  | idle hidle =>
      have hnone : arrivals result = 0 := by cases hidle <;> rfl
      rw [hidle.alike.nextId, hnone]
      rfl
  | bootstrapped _ _ => rfl
  | spawned _ _ _ => rfl
  | took _ _ => rfl
  | @switched cur slot rest b c request o₁ hcurrent hget hleaves hready htarget =>
      cases hleaves with
      | yields _ => rfl
      | parks => rfl
      | exits _ =>
          unfold finish
          cases b.joiner <;> rfl
      | vanishes _ => exact nextId_bury o supply cur b
      | awaits _ _ _ _ _ => rfl
  | delivered _ _ _ _ _ _ => exact nextId_reclaim o supply _ _
  | detached _ _ _ _ => rfl
  | dropped _ _ _ _ => exact nextId_reclaim o supply _ _
  | woken _ => exact wakeAll_nextId o _

theorem Step.nextId_le {supply : Supply} (hstep : o.Step supply request result o') :
    o.nextId ≤ o'.nextId := by
  rw [hstep.nextId_eq]
  exact Nat.le_add_right _ _

end Outline

/-!
# Lives and runners of schedulers
-/

namespace Scheduler

variable {β : Type} {s : Scheduler β} {o : Outline β} {h : Handle}

def life? (s : Scheduler β) (h : Handle) : Option Life :=
  s.table.life? h

namespace Shaped

theorem life?_eq (hs : s.Shaped o) (h : Handle) : o.life? h = s.life? h := by
  rw [Outline.life?, life?, Table.life?, Table.life?, hs.1.lookup_eq]
  cases s.table.lookup h <;> rfl

theorem runs_iff (hs : s.Shaped o) (h : Handle) : o.Runs h ↔ s.running = .ok h := by
  rw [running_eq_ok_iff, Outline.Runs, hs.1.current, hs.1.lookup_eq]
  simp

end Shaped

end Scheduler

end Coop
