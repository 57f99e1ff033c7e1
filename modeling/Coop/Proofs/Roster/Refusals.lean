import Coop.Proofs.Roster.Mirroring
import Coop.Proofs.Scheduler.ExitCodes
import Coop.Proofs.Scheduler.Objections

/-!
# A roster refuses what a scheduler refuses

The reasons for which the scheduler refuses a request are read off the threads it
names and off the queue of ready threads.  A roster that mirrors the scheduler sees
the same there, as long as the named handle was given out.
-/

namespace Coop

open Thread (Block Handle Spec Table)

theorem Roster.refused_of_deserted {β : Type} {r : Roster β} {request : Request β}
    (hcur : r.current = none) (hasks : request.asks = true) {room : Bool} {supply : Supply} :
    r.perform room supply request = r.refuse (.misuse .notInitialized) := by
  cases request with
  | bootstrap | takeBody | interrupt _ | interrupts _ | completeSwitch => cases hasks
  | spawn _ _ => simp only [Roster.perform, Roster.spawn, hcur]
  | yield => simp only [Roster.perform, Roster.yield, hcur]
  | wait _ => simp only [Roster.perform, Roster.wait, hcur]
  | exit _ => simp only [Roster.perform, Roster.exit, hcur]
  | join _ => simp only [Roster.perform, Roster.join, hcur]
  | collect _ => simp only [Roster.perform, Roster.collect, hcur]
  | tryJoin _ => simp only [Roster.perform, Roster.tryJoin, hcur]
  | detach _ => simp only [Roster.perform, Roster.detach, hcur]

namespace Scheduler

variable {β : Type} {s : Scheduler β} {o : Outline β} {r : Roster β} {supply : Supply}
  {request : Request β} {e : Error} {cur : Nat}

/-!
# What a roster sees
-/

section Views

theorem Shaped.grants_eq (hs : s.Shaped o) (supply : Supply) :
    o.table.grants supply = s.table.grants supply := by
  unfold Table.grants
  rw [hs.1.table, (Table.bare_reserve s.table supply.slots supply.vacant).2]

theorem Shaped.current_eq_none (hs : s.Shaped o) (hm : o.Mirrors r) (hcurrent : s.current = none) :
    r.current = none :=
  (hm.current_eq_none_iff hs.2).mpr (hs.1.current.trans hcurrent)

theorem Shaped.exists_current (hs : s.Shaped o) (hm : o.Mirrors r)
    (hcurrent : s.current = some cur) :
    ∃ b, s.table.get? cur = some b ∧ s.running = .ok ⟨cur, b.id⟩ ∧ r.current = some b.id ∧
      r.find? b.id = some b.record := by
  rcases hs.1.running_of_current hs.2 hcurrent with ⟨b, hb, hrunning⟩
  have hget : o.table.get? cur = some b.bare := by
    rw [hs.1.get?_eq, hb]
    rfl
  have hcur := hm.current_eq (hs.1.current.trans hcurrent) hget
  have hfound := hm.found hget
  exact ⟨b, hb, hrunning, hcur, hfound⟩

theorem Shaped.caller (hs : s.Shaped o) (hm : o.Mirrors r) {caller : Handle}
    (hrunning : s.running = .ok caller) : r.current = some caller.id ∧
      ∃ b, o.table.lookup caller = some b := by
  rcases running_eq_ok_iff.mp hrunning with ⟨hcurrent, b, hlookup⟩
  rcases hs.exists_current hm hcurrent with ⟨b', -, hrunning', hcur, -⟩
  rw [hrunning] at hrunning'
  injection hrunning' with hcaller
  rw [hcaller]
  refine ⟨hcur, b.bare, ?_⟩
  rw [← hcaller]
  exact hs.1.lookup_of_lookup hlookup

theorem Shaped.find?_eq (hs : s.Shaped o) (hm : o.Mirrors r) {h : Handle} (hgenuine : o.Genuine h) :
    r.find? h.id = (s.table.lookup h).map Block.record := by
  rw [hm.toMatches.find?_eq hgenuine, hs.1.lookup_eq, Option.map_map]
  rfl

theorem Shaped.admits_eq (hs : s.Shaped o) (hm : o.Mirrors r) :
    r.admits (s.table.grants supply) = (s.table.reserve supply.slots supply.vacant).1 := by
  rw [← hs.grants_eq, hm.admits_eq, hs.1.table,
    (Table.bare_reserve s.table supply.slots supply.vacant).2]

theorem Shaped.isEmpty_eq (hs : s.Shaped o) (hm : o.Mirrors r) :
    r.ready.isEmpty = s.ready.isEmpty := by
  rw [hm.isEmpty_eq, hs.1.isEmpty_eq]

theorem Shaped.joinable_eq (hs : s.Shaped o) (hm : o.Mirrors r) {h : Handle} {b : Block β}
    (hget : s.table.get? cur = some b) (hgenuine : o.Genuine h) :
    r.joinable b.id h.id = (s.joinable cur h).map Block.record := by
  unfold Roster.joinable Scheduler.joinable
  rw [hs.find?_eq hm hgenuine]
  cases hlookup : s.table.lookup h with
  | none => rfl
  | some target =>
      rcases Table.lookup_eq_some_iff.mp hlookup with ⟨htarget, hid⟩
      have hself : h.id = b.id ↔ h.slot = cur := by
        constructor
        · intro heq
          exact hs.2.numbered.unique (hs.get?_bare htarget) (hs.get?_bare hget) (hid.trans heq)
        · intro heq
          rw [heq, hget] at htarget
          injection htarget with htarget
          rw [← hid, htarget]
      have hdetached : target.record.detached = target.isDetached := rfl
      have hjoiner : target.record.joiner.isSome = target.joiner.isSome := Option.isSome_map
      simp only [Option.map_some, hself, hdetached, hjoiner]
      split
      · rfl
      · split
        · rfl
        · split <;> rfl

end Views

/-!
# Refusals
-/

/-- A spawn is the one request whose refusal can leave something changed. -/
theorem Objection.refused (hs : s.Shaped o) (hm : o.Mirrors r) (hjoiners : o.JoinersGenuine)
    (hgenuine : ∀ h, request.target? = some h → o.Genuine h)
    (hrequest : ∀ spec body, request ≠ .spawn spec body)
    (hobjection : s.Objection supply request e) :
    r.perform (s.table.grants supply) supply request = r.refuse e := by
  cases hobjection with
  | deserted hcurrent hasks =>
      exact Roster.refused_of_deserted (hs.current_eq_none hm hcurrent) hasks
  | initialized hcurrent =>
      rcases hs.exists_current hm hcurrent with ⟨b, -, -, hcur, -⟩
      simp [Roster.perform, Roster.bootstrap, hcur]
  | noRoomFirst hcurrent hroom =>
      have hcur := hs.current_eq_none hm hcurrent
      simp [Roster.perform, Roster.bootstrap, hcur, hs.admits_eq hm, hroom]
  | noRoom _ _ => exact absurd rfl (hrequest _ _)
  | noStack _ _ _ => exact absurd rfl (hrequest _ _)
  | stranded hcurrent hempty hstrands =>
      rcases hs.exists_current hm hcurrent with ⟨b, hget, -, hcur, hfound⟩
      have hready := (hs.isEmpty_eq hm).trans hempty
      cases hstrands with
      | wait => simp [Roster.perform, Roster.wait, hcur, hready]
      | @exit b' code hget' hjoiner =>
          rw [hget] at hget'
          injection hget' with hb
          subst hb
          have hfree : b.record.joiner = none := congrArg (Option.map Handle.id) hjoiner
          simp [Roster.perform, Roster.exit, hcur, hfound, hready, hfree]
      | @join h target hjoinable hfinished =>
          have hjoinable' := hs.joinable_eq hm hget (hgenuine h rfl)
          rw [hjoinable] at hjoinable'
          have hfinished' : Roster.finished? target.record = none := hfinished
          simp [Roster.perform, Roster.join, hcur, hjoinable', Except.map,
            hfinished', hready]
  | @unjoinable cur request h e hcurrent hjoins hjoinable =>
      rcases hs.exists_current hm hcurrent with ⟨b, hget, -, hcur, -⟩
      rcases hjoins with rfl | rfl
      · have hjoinable' := hs.joinable_eq hm hget (hgenuine h rfl)
        rw [hjoinable] at hjoinable'
        simp [Roster.perform, Roster.join, hcur, hjoinable', Except.map]
      · have hjoinable' := hs.joinable_eq hm hget (hgenuine h rfl)
        rw [hjoinable] at hjoinable'
        simp [Roster.perform, Roster.tryJoin, hcur, hjoinable', Except.map]
  | @stale cur request h hcurrent hnames hlookup =>
      rcases hs.exists_current hm hcurrent with ⟨b, -, -, hcur, -⟩
      rcases hnames with rfl | rfl
      · have hunknown := hs.find?_eq hm (hgenuine h rfl)
        rw [hlookup] at hunknown
        simp [Roster.perform, Roster.collect, hcur, hunknown]
      · have hunknown := hs.find?_eq hm (hgenuine h rfl)
        rw [hlookup] at hunknown
        simp [Roster.perform, Roster.detach, hcur, hunknown]
  | @foreign caller h target hrunning hlookup hjoiner =>
      rcases hs.caller hm hrunning with ⟨hcur, b, hcaller⟩
      have hfound := hm.find?_of_lookup (hs.1.lookup_of_lookup hlookup)
      have hother : target.bare.record.joiner ≠ some caller.id := by
        intro hsame
        rcases Option.map_eq_some_iff.mp hsame with ⟨j, hj, hid⟩
        -- two handles with one identifier that were both given out are the same
        have hgiven := hjoiners h _ j (Table.life?_of_lookup (hs.1.lookup_of_lookup hlookup)) hj
        rw [hgiven.eq_of_id_eq hcaller hid.symm] at hjoiner
        exact hjoiner hj
      simp [Roster.perform, Roster.collect, hcur, hfound, hother]
  | @early caller h target hrunning hlookup hjoiner hcode =>
      rcases hs.caller hm hrunning with ⟨hcur, -⟩
      have hfound := hm.find?_of_lookup (hs.1.lookup_of_lookup hlookup)
      have hwoken : target.bare.record.joiner = some caller.id :=
        congrArg (Option.map Handle.id) hjoiner
      have hnone : target.bare.record.exitCode = none := hcode
      simp [Roster.perform, Roster.collect, hcur, hfound, hwoken, hnone]
  | @taken cur h j target hcurrent hlookup hjoiner =>
      rcases hs.exists_current hm hcurrent with ⟨b, -, -, hcur, -⟩
      have hfound := hm.find?_of_lookup (hs.1.lookup_of_lookup hlookup)
      have htaken : target.bare.record.joiner = some j.id := congrArg (Option.map Handle.id) hjoiner
      simp [Roster.perform, Roster.detach, hcur, hfound, htaken]

theorem Shaped.refuses_spawn (hs : s.Shaped o) (hm : o.Mirrors r) {spec : Spec} {body : β}
    (he : (s.perform supply (.spawn spec body)).result = .error e) :
    r.perform (s.table.grants supply) supply (.spawn spec body) =
      { r with pool := (s.perform supply (.spawn spec body)).scheduler.pool }.refuse e := by
  have hpool : r.pool = s.pool := hm.pool.trans hs.1.pool
  have hconfig : r.config = s.config := hm.config.trans hs.1.config
  have hkept : { r with pool := s.pool } = r := by rw [← hpool]
  cases hcurrent : s.current with
  | none =>
      have hcur := hs.current_eq_none hm hcurrent
      have hsame : r.perform (s.table.grants supply) supply (.spawn spec body) =
          r.refuse (.misuse .notInitialized) :=
        Roster.refused_of_deserted hcur rfl
      simp only [Scheduler.perform, spawn, hcurrent] at he ⊢
      injection he with he
      subst he
      exact hsame.trans (congrArg (Roster.refuse · _) hkept.symm)
  | some cur =>
      rcases hs.exists_current hm hcurrent with ⟨b, -, -, hcur, -⟩
      cases hroom : (s.table.reserve supply.slots supply.vacant).1 with
      | error cause =>
          have hsame : r.perform (s.table.grants supply) supply (.spawn spec body) =
              r.refuse (.shortage cause) := by
            simp only [Roster.perform, Roster.spawn, hcur, hs.admits_eq hm, hroom]
          simp only [Scheduler.perform, spawn, hcurrent, Work.reserve, work, hroom] at he ⊢
          injection he with he
          subst he
          exact hsame.trans (congrArg (Roster.refuse · _) hkept.symm)
      | ok u =>
          rcases hstack : s.pool.allocateBytes supply.stack (s.config.stackSize spec.stackSize) with
            ⟨answer, pool⟩
          simp only [Scheduler.perform, spawn, hcurrent, Work.reserve, work, hroom, Work.allocate,
            Work.update, Work.expect, hstack] at he ⊢
          cases answer with
          | ok stack => cases he
          | error cause =>
              injection he with he
              subst he
              simp only [Roster.perform, Roster.spawn, hcur, hs.admits_eq hm, hroom, hpool, hconfig,
                hstack]
              rfl

/-!
# Failures are echoed
-/

theorem Shaped.pool_of_error (hs : s.Shaped o) (he : (s.perform supply request).result = .error e)
    (hrequest : ∀ spec body, request ≠ .spawn spec body) :
    (s.perform supply request).scheduler.pool = s.pool := by
  rcases hs.perform supply request with ⟨o', hstep, hs'⟩
  rw [he] at hstep
  rw [← hs'.1.pool, ← hs.1.pool]
  cases hstep with
  | idle hidle =>
      cases hidle with
      | failed => rfl
      | noRoom _ => rfl
      | noStack _ => exact absurd rfl (hrequest _ _)

theorem Shaped.echoes_of_error (hs : s.Shaped o) (hm : o.Mirrors r) (hjoiners : o.JoinersGenuine)
    (hgenuine : ∀ h, request.target? = some h → o.Genuine h) {o' : Outline β}
    (he : (s.perform supply request).result = .error e)
    (hstep : o.Step supply request (.error e) o')
    (hs' : (s.perform supply request).scheduler.Shaped o') :
    o'.Echoes (.error e) (r.perform (s.table.grants supply) supply request) := by
  have hperform : r.perform (s.table.grants supply) supply request =
      { r with pool := (s.perform supply request).scheduler.pool }.refuse e := by
    rcases Classical.em (∃ spec body, request = .spawn spec body) with hspawn | hother
    · rcases hspawn with ⟨spec, body, rfl⟩
      exact hs.refuses_spawn hm he
    · have hrequest : ∀ spec body, request ≠ .spawn spec body :=
        fun spec body heq => hother ⟨spec, body, heq⟩
      rw [hs.pool_of_error he hrequest, ← hs.1.pool, ← hm.pool]
      exact (hs.objection_of_error he).refused hs hm hjoiners hgenuine hrequest
  rw [hperform, ← hs'.1.pool]
  cases hstep with
  | idle hidle => exact ⟨rfl, hidle.mirrors hm⟩

end Scheduler

end Coop
