import Coop.Proofs.Roster.Matching
import Coop.Proofs.Scheduler.Genuine

/-!
# A roster does what an outline does

When a roster matches an outline and gives the processor to the same thread, then
each step of the outline is what the operation of the roster comes to.  The answers
are the same, with threads named by their identifiers, and the match is kept.
-/

namespace Coop

open Thread (Block Handle Id Spec Table)

def Answer.reply {β : Type} : Answer β → Roster.Reply β
  | .done => .done
  | .handle h => .thread h.id
  | .body b => .body b
  | .transfer t => .transfer t.source.id t.target.id
  | .code c => .code c
  | .woken count => .woken count

/-!
# Room in the table
-/

namespace Thread.Table

variable {β : Type}

def grants (t : Table β) (supply : Supply) : Bool :=
  match (t.reserve supply.slots supply.vacant).1 with
  | .error .controlBlocks => false
  | _ => true

theorem fst_reserve (t : Table β) (supply : Supply) :
    (t.reserve supply.slots supply.vacant).1 =
      if t.limit ≤ t.live then .error .threads
      else if t.grants supply then .ok () else .error .controlBlocks := by
  unfold grants reserve
  split
  · rfl
  · split
    · rfl
    · cases supply.slots.reserve t.slots.size t.slotRoom 1 with
      | none => rfl
      | some room =>
          cases hvacant : supply.vacant.reserve t.vacant.length t.vacantRoom
              (t.slots.size + 1 - t.vacant.length) with
          | none => simp [hvacant]
          | some room => simp [hvacant]

theorem grants_of_granted (t : Table β) {supply : Supply} (hslots : supply.slots ≠ .refused)
    (hvacant : supply.vacant ≠ .refused) : t.grants supply = true := by
  unfold grants
  rw [t.fst_reserve_of_granted hslots hvacant]
  by_cases hfull : t.limit ≤ t.live
  · rw [if_pos hfull]
  · rw [if_neg hfull]

end Thread.Table

namespace Outline

variable {β : Type}

structure Mirrors (o : Outline β) (r : Roster β) : Prop extends o.Matches r where
  current : r.current = o.current.bind o.idAt

/-- The roster answered as the outline did, and mirrors what is left of it. -/
def Echoes (o : Outline β) (result : Except Error (Answer β))
    (outcome : Except Error (Roster.Reply β) × Roster β) : Prop :=
  outcome.1 = result.map Answer.reply ∧ o.Mirrors outcome.2

variable {o o' : Outline β} {r r' : Roster β} {supply : Supply} {cur : Nat} {b : Block β}

theorem Mirrors.current_eq (h : o.Mirrors r) (hcurrent : o.current = some cur)
    (hget : o.table.get? cur = some b) : r.current = some b.id := by
  rw [h.current, hcurrent]
  exact idAt_of_get? hget

theorem Mirrors.current_eq_none_iff (h : o.Mirrors r) (ho : o.Sound) :
    r.current = none ↔ o.current = none := by
  rw [h.current]
  cases hcurrent : o.current with
  | none => simp
  | some cur =>
      rcases ho.get?_current hcurrent with ⟨b, hget, -⟩
      simp [idAt_of_get? hget]

theorem Mirrors.admits_eq (h : o.Mirrors r) :
    r.admits (o.table.grants supply) = (o.table.reserve supply.slots supply.vacant).1 := by
  rw [Roster.admits, Table.fst_reserve, h.config, h.live, h.limit]

/-!
# Changing hands
-/

theorem Matches.handOver {slot : Nat} {rest : List Nat} {c : Block β} (h : o.Matches r)
    (hnumbered : o.table.Numbered o.nextId) (hready : o.ready = slot :: rest)
    (hget : o.table.get? slot = some c) (source : Handle) :
    (o.dispatch slot rest).Echoes (.ok (.transfer ⟨source, ⟨slot, c.id⟩⟩))
      (r.handOver source.id) := by
  have hmarked := h.modify hnumbered hget (f := Block.run)
    (g := fun t => { t with state := .running }) rfl rfl
  have hslots := h.ready
  rw [hready, List.map_cons, idAt_of_get? hget] at hslots
  rcases List.map_eq_cons_iff.mp hslots with ⟨id, ids, hids, hid, hrest⟩
  injection hid with hid
  have hidAt : (o.dispatch slot rest).idAt = o.idAt := idAt_modify hget (f := Block.run) rfl
  unfold Roster.handOver
  rw [hids, hid]
  refine ⟨rfl, { hmarked with ready := ?_, counters := ?_, current := ?_ }⟩
  · rw [hidAt]
    exact hrest
  · show ({ r.counters with contextSwitches := r.counters.contextSwitches + 1 } : Counters) = _
    rw [h.counters]
    rfl
  · show some c.id = (o.dispatch slot rest).idAt slot
    rw [hidAt, idAt_of_get? hget]

theorem Matches.wakeJoiner {code : Int32}
    (hexited : (o.modify cur fun b => b.exit code).countExited.Matches r) (ho : o.Sound)
    (hget : o.table.get? cur = some b) (hstate : b.state = .running) :
    (o.finish cur code b.joiner).Matches (r.wakeJoiner (b.joiner.map Handle.id)) := by
  unfold Outline.finish
  cases hjoiner : b.joiner with
  | none => exact hexited
  | some j =>
      have hawaits : o.table.Awaits j cur := ⟨b, hget, by simp [hstate], hjoiner⟩
      rcases ho.joins.blocked hawaits with ⟨c, hc, -⟩
      rcases Table.lookup_eq_some_iff.mp hc with ⟨hcget, hcid⟩
      have hc' : (o.modify cur fun b => b.exit code).countExited.table.get? j.slot = some c := by
        show (o.table.modify cur _).get? j.slot = some c
        rw [Table.get?_modify_of_ne _ _ (ho.joins.ne_target hawaits), hcget]
      have hnumbered : (o.table.modify cur fun b => b.exit code).Numbered o.nextId :=
        ho.numbered.modify cur fun _ => rfl
      have hready := hexited.makeReady hnumbered hc'
      rw [hcid] at hready
      exact hready

theorem Matches.finish (h : o.Matches r) (ho : o.Sound) (hget : o.table.get? cur = some b)
    (hstate : b.state = .running) (hattached : b.isDetached = false) (supply : Supply)
    (code : Int32) :
    (o.finish cur code b.joiner).Matches
      ((r.finish supply b.id b.record code).wakeJoiner b.record.joiner) := by
  have hexited := (h.set ho.numbered hget (f := fun b => b.exit code) rfl).countExited
  have hsame : r.finish supply b.id b.record code =
      (r.set b.id (b.exit code).record).countExited := by
    have hrecord : ¬ b.record.detached = true := Bool.eq_false_iff.mp hattached
    unfold Roster.finish
    rw [if_neg hrecord]
    rfl
  rw [hsame]
  exact hexited.wakeJoiner ho hget hstate

theorem Matches.vanish (h : o.Matches r) (ho : o.Sound) (hcurrent : o.current = some cur)
    (hget : o.table.get? cur = some b) (hdetached : b.isDetached = true) (supply : Supply)
    (code : Int32) :
    (o.bury supply cur b).Matches
      ((r.finish supply b.id b.record code).wakeJoiner b.record.joiner) := by
  have hstate : b.state = .running := (ho.placed.running_iff hget).mp hcurrent
  have hjoiner : b.record.joiner = none :=
    congrArg (Option.map Handle.id) ((ho.placed.coherent hget).unjoined hdetached)
  have hsame : r.finish supply b.id b.record code =
      ((r.countExited.erase b.id).retire supply b.record.stack).countReclaimed := by
    have hrecord : b.record.detached = true := hdetached
    unfold Roster.finish
    rw [if_pos hrecord]
  rw [hjoiner, hsame]
  refine h.bury ho.numbered hget ?_ (ho.placed.not_mem_waiting hget (by simp [hstate])) supply
  rw [ho.placed.mem_ready_iff hget]
  simp [hstate]

theorem Matches.find?_of_lookup (h : o.Matches r) {handle : Handle} {target : Block β}
    (hlookup : o.table.lookup handle = some target) :
    r.find? handle.id = some target.record := by
  rcases Table.lookup_eq_some_iff.mp hlookup with ⟨htarget, hid⟩
  rw [← hid]
  exact h.found htarget

theorem Matches.joinable_eq_ok (h : o.Matches r) (ho : o.Sound) (hget : o.table.get? cur = some b)
    {handle : Handle} {target : Block β} (hlookup : o.table.lookup handle = some target)
    (hne : handle.slot ≠ cur) (hattached : target.isDetached = false)
    (hjoiner : target.joiner = none) : r.joinable b.id handle.id = .ok target.record := by
  rcases Table.lookup_eq_some_iff.mp hlookup with ⟨htarget, hid⟩
  have hfound := h.find?_of_lookup hlookup
  have hother : handle.id ≠ b.id := by
    intro heq
    exact hne (ho.numbered.unique htarget hget (hid.trans heq))
  have hdetached : target.record.detached = false := hattached
  have hfree : target.record.joiner = none := congrArg (Option.map Handle.id) hjoiner
  simp [Roster.joinable, hfound, hother, hdetached, hfree]

theorem Mirrors.leaves (h : o.Mirrors r) (ho : o.Sound) (hcurrent : o.current = some cur)
    (hget : o.table.get? cur = some b) {request : Request β} {o₁ : Outline β}
    (hleaves : o.Leaves supply cur b request o₁) (hfirst : o₁.ready ≠ []) :
    ∃ r₁, o₁.Matches r₁ ∧ ∀ room, r.perform room supply request = r₁.handOver b.id := by
  have hcur := h.current_eq hcurrent hget
  have hfound : r.find? b.id = some b.record := h.found hget
  have hstate : b.state = .running := (ho.placed.running_iff hget).mp hcurrent
  have hempty : o.ready ≠ [] → r.ready.isEmpty = false := by
    intro hready
    rw [h.isEmpty_eq]
    exact List.isEmpty_eq_false_iff.mpr hready
  cases hleaves with
  | yields hready =>
      refine ⟨r.makeReady b.id, h.makeReady ho.numbered hget, fun room => ?_⟩
      simp [Roster.perform, Roster.yield, hcur, hempty hready]
  | @parks line =>
      refine ⟨r.park b.id line, h.park ho.numbered hget line, fun room => ?_⟩
      simp [Roster.perform, Roster.wait, hcur, hempty hfirst]
  | @exits code hattached =>
      refine ⟨_, h.finish ho hget hstate hattached supply code, fun room => ?_⟩
      have hrefused : (r.ready.isEmpty && b.record.joiner.isNone) = false := by
        show (r.ready.isEmpty && (b.joiner.map Handle.id).isNone) = false
        cases hjoiner : b.joiner with
        | some j => simp
        | none =>
            rw [hjoiner] at hfirst
            rw [hempty hfirst]
            rfl
      simp [Roster.perform, Roster.exit, hcur, hfound, hrefused]
  | @vanishes code hdetached =>
      refine ⟨_, h.vanish ho hcurrent hget hdetached supply code, fun room => ?_⟩
      rw [ready_bury] at hfirst
      simp [Roster.perform, Roster.exit, hcur, hfound, hempty hfirst]
  | @awaits handle target htarget hne hattached hjoiner hlive =>
      refine ⟨_, h.await ho.numbered hget htarget hne, fun room => ?_⟩
      have hjoinable := h.joinable_eq_ok ho hget htarget hne hattached hjoiner
      have hfinished : Roster.finished? target.record = none := if_neg hlive
      have hready : r.ready.isEmpty = false := hempty hfirst
      simp [Roster.perform, Roster.join, hcur, hjoinable, hfinished, hready]

theorem Mirrors.switched (h : o.Mirrors r) (ho : o.Sound) (hcurrent : o.current = some cur)
    (hget : o.table.get? cur = some b) {request : Request β} {o₁ : Outline β}
    (hleaves : o.Leaves supply cur b request o₁) {slot : Nat} {rest : List Nat} {c : Block β}
    (hready : o₁.ready = slot :: rest) (htarget : o₁.table.get? slot = some c) (room : Bool) :
    (o₁.dispatch slot rest).Echoes (.ok (.transfer ⟨⟨cur, b.id⟩, ⟨slot, c.id⟩⟩))
      (r.perform room supply request) := by
  have hfirst : o₁.ready ≠ [] := by
    rw [hready]
    exact List.cons_ne_nil slot rest
  have horderly := ho.toOrderly
  rw [hcurrent] at horderly
  rcases h.leaves ho hcurrent hget hleaves hfirst with ⟨r₁, hmatched, hperform⟩
  rw [hperform]
  exact hmatched.handOver (horderly.leaves hget hleaves).numbered hready htarget ⟨cur, b.id⟩

/-!
# Threads that change or leave
-/

theorem Mirrors.set (h : o.Mirrors r) (ho : o.Sound) {slot : Nat}
    (hget : o.table.get? slot = some b) {f : Block β → Block β} (hid : (f b).id = b.id) :
    (o.modify slot f).Mirrors (r.set b.id (f b).record) where
  toMatches := h.toMatches.set ho.numbered hget hid
  current := by
    rw [idAt_modify hget hid]
    exact h.current

theorem Mirrors.reclaim (h : o.Mirrors r) (ho : o.Sound) {handle : Handle} {target : Block β}
    (hlookup : o.table.lookup handle = some target) (hexited : target.state = .exited)
    (supply : Supply) :
    (o.reclaim supply handle.slot target).Mirrors
      (r.reclaim supply handle.id target.record) := by
  rcases Table.lookup_eq_some_iff.mp hlookup with ⟨hget, hid⟩
  have hready : handle.slot ∉ o.ready := by
    rw [ho.placed.mem_ready_iff hget, hexited]
    decide
  have hwaiting := ho.placed.not_mem_waiting hget (by simp [hexited])
  have hsame : (r.reclaim supply handle.id target.record).current = r.current := by
    unfold Roster.reclaim
    cases target.record.stack <;> rfl
  constructor
  · rw [← hid]
    exact h.toMatches.reclaim ho.numbered hget hready hwaiting supply
  · rw [hsame, h.current, current_reclaim]
    cases hcurrent : o.current with
    | none => rfl
    | some cur =>
        have hne : cur ≠ handle.slot := by
          rintro rfl
          have hrunning := (ho.placed.running_iff hget).mp hcurrent
          rw [hexited] at hrunning
          cases hrunning
        show o.idAt cur = (o.reclaim supply handle.slot target).idAt cur
        unfold idAt
        rw [table_reclaim, Table.get?_remove, if_neg hne]

theorem Mirrors.took (h : o.Mirrors r) (ho : o.Sound) (hcurrent : o.current = some cur)
    (hget : o.table.get? cur = some b) :
    (o.modify cur fun b => { b with body := none }).Echoes (.ok (.body b.body)) r.takeBody := by
  have hcur := h.current_eq hcurrent hget
  have hfound : r.find? b.id = some b.record := h.found hget
  have hsame : r.takeBody = (.ok (.body b.body), r.set b.id { b.record with body := none }) := by
    simp only [Roster.takeBody, hcur, hfound]
    rfl
  rw [hsame]
  exact ⟨rfl, h.set ho hget (f := fun b => { b with body := none }) rfl⟩

theorem Mirrors.delivered (h : o.Mirrors r) (ho : o.Sound) (hcurrent : o.current = some cur)
    (hget : o.table.get? cur = some b) {handle : Handle} {target : Block β}
    (hlookup : o.table.lookup handle = some target) {request : Request β}
    (hfetch : Fetches ⟨cur, b.id⟩ handle target request) (hexited : target.state = .exited)
    {code : Int32} (hcode : target.exitCode = some code) (room : Bool) (supply : Supply) :
    (o.reclaim supply handle.slot target).Echoes (.ok (.code code))
      (r.perform room supply request) := by
  have hcur := h.current_eq hcurrent hget
  have hfinished : Roster.finished? target.record = some code := (if_pos hexited).trans hcode
  have hjoinable := h.toMatches.joinable_eq_ok ho hget hlookup
  have hsame : r.perform room supply request =
      (.ok (.code code), r.reclaim supply handle.id target.record) := by
    cases hfetch with
    | join hne hattached hjoiner =>
        simp [Roster.perform, Roster.join, hcur, hjoinable hne hattached hjoiner, hfinished]
    | tryJoin hne hattached hjoiner =>
        simp [Roster.perform, Roster.tryJoin, hcur, hjoinable hne hattached hjoiner, hfinished]
    | collect hjoiner =>
        have hfound := h.toMatches.find?_of_lookup hlookup
        have hcaller : target.record.joiner = some b.id := congrArg (Option.map Handle.id) hjoiner
        have hrecord : target.record.exitCode = some code := hcode
        simp [Roster.perform, Roster.collect, hcur, hfound, hcaller, hrecord]
  rw [hsame]
  exact ⟨rfl, h.reclaim ho hlookup hexited supply⟩

section Detach

variable {handle : Handle} {target : Block β}

theorem Mirrors.detached (h : o.Mirrors r) (ho : o.Sound) (hcurrent : o.current = some cur)
    (hlookup : o.table.lookup handle = some target) (hjoiner : target.joiner = none)
    (hlive : target.state ≠ .exited) (supply : Supply) :
    (o.modify handle.slot Block.detach).Echoes (.ok .done) (r.detach supply handle.id) := by
  rcases Table.lookup_eq_some_iff.mp hlookup with ⟨hget, hid⟩
  rcases ho.get?_current hcurrent with ⟨b, hb, -⟩
  have hcur := h.current_eq hcurrent hb
  have hfound := h.toMatches.find?_of_lookup hlookup
  have hfree : target.record.joiner = none := congrArg (Option.map Handle.id) hjoiner
  have hstate : target.record.state ≠ .exited := hlive
  have hsame : r.detach supply handle.id =
      (.ok .done, r.set handle.id { target.record with detached := true }) := by
    simp [Roster.detach, hcur, hfound, hfree, hstate]
  rw [hsame, ← hid]
  exact ⟨rfl, h.set ho hget (f := Block.detach) rfl⟩

theorem Mirrors.dropped (h : o.Mirrors r) (ho : o.Sound) (hcurrent : o.current = some cur)
    (hlookup : o.table.lookup handle = some target) (hjoiner : target.joiner = none)
    (hexited : target.state = .exited) (supply : Supply) :
    (o.reclaim supply handle.slot target).Echoes (.ok .done) (r.detach supply handle.id) := by
  rcases ho.get?_current hcurrent with ⟨b, hb, -⟩
  have hcur := h.current_eq hcurrent hb
  have hfound := h.toMatches.find?_of_lookup hlookup
  have hfree : target.record.joiner = none := congrArg (Option.map Handle.id) hjoiner
  have hstate : target.record.state = .exited := hexited
  have hsame : r.detach supply handle.id =
      (.ok .done, r.reclaim supply handle.id target.record) := by
    simp [Roster.detach, hcur, hfound, hfree, hstate]
  rw [hsame]
  exact ⟨rfl, h.reclaim ho hlookup hexited supply⟩

end Detach

/-!
# Threads that arrive, and lines that fire
-/

theorem Mirrors.bootstrapped (h : o.Mirrors r) (ho : o.Sound) (hcurrent : o.current = none)
    (hroom : (o.table.reserve supply.slots supply.vacant).1 = .ok ()) :
    (o.reserve supply).adopt.Echoes (.ok (.handle ⟨o.table.nextSlot, o.nextId⟩))
      (r.bootstrap (o.table.grants supply)) := by
  have halike := Alike.reserve o supply
  have ho' := halike.sound ho
  have hcur : r.current = none := (h.current_eq_none_iff ho).mpr hcurrent
  have hentered := (h.toMatches.reserve supply).enter ho'.packed ho'.numbered
    (b := .main (o.reserve supply).nextId) rfl
  have hsame : r.bootstrap (o.table.grants supply) =
      (.ok (.thread r.nextId),
        { r.enter (Block.main (β := β) o.nextId).record with current := some r.nextId }) := by
    simp only [Roster.bootstrap, hcur, h.admits_eq, hroom]
    rfl
  rw [hsame, h.nextId]
  refine ⟨rfl, { hentered with current := ?_ }⟩
  have hget := ho'.packed.get?_insert (.main o.nextId) (o.reserve supply).table.nextSlot
  rw [if_pos rfl] at hget
  exact (idAt_of_get? (o := (o.reserve supply).adopt) hget).symm

theorem Mirrors.enroll (h : o.Mirrors r) (ho : o.Sound) (hid : b.id = o.nextId) :
    (o.enroll b).Mirrors ((r.enter b.record).makeReady r.nextId).countSpawned := by
  have hentered := h.toMatches.enter ho.packed ho.numbered hid
  have hget := ho.packed.get?_insert b o.table.nextSlot
  rw [if_pos rfl] at hget
  have hready := hentered.makeReady (ho.numbered.insert ho.packed hid) hget
  rw [hid, ← h.nextId] at hready
  constructor
  · exact hready.countSpawned
  · have hidAt : (o.enroll b).idAt = (o.store b).idAt := idAt_modify hget (f := Block.ready) rfl
    show r.current = o.current.bind (o.enroll b).idAt
    rw [h.current, hidAt]
    cases hcurrent : o.current with
    | none => rfl
    | some cur =>
        rcases ho.get?_current hcurrent with ⟨c, hc, -⟩
        have hcur := idAt_of_get? hc
        exact hcur.trans (idAt_store ho.packed b hcur).symm

theorem Mirrors.memory (h : o.Mirrors r) (supply : Supply) (pool : Pool) :
    { o.reserve supply with pool := pool }.Mirrors { r with pool := pool } where
  toMatches := (h.toMatches.reserve supply).withPool pool
  current := by
    have hidAt : ({ o.reserve supply with pool := pool } : Outline β).idAt = o.idAt := by
      funext slot
      unfold idAt
      exact congrArg (Option.map Block.id)
        (Table.get?_reserve o.table supply.slots supply.vacant slot)
    rw [hidAt]
    exact h.current

theorem Mirrors.spawned (h : o.Mirrors r) (ho : o.Sound) (hcurrent : o.current = some cur)
    {spec : Spec} {body : β} {stack : Stack}
    (hroom : (o.table.reserve supply.slots supply.vacant).1 = .ok ())
    (hstack : (o.pool.allocateBytes supply.stack (o.config.stackSize spec.stackSize)).1 =
      .ok stack) :
    (((o.reserve supply).allocate supply (o.config.stackSize spec.stackSize)).enroll
        (.fresh o.nextId (o.prepare stack) body spec)).Echoes
      (.ok (.handle ⟨o.table.nextSlot, o.nextId⟩))
      (r.spawn (o.table.grants supply) supply spec body) := by
  have halike := (Alike.reserve o supply).allocate supply (o.config.stackSize spec.stackSize)
  have hmemory := h.memory supply
    (o.pool.allocateBytes supply.stack (o.config.stackSize spec.stackSize)).2
  have henrolled := Mirrors.enroll hmemory (halike.sound ho)
    (b := .fresh o.nextId (o.prepare stack) body spec) rfl
  rcases ho.get?_current hcurrent with ⟨c, hc, -⟩
  have hcur := h.current_eq hcurrent hc
  have hsame : r.spawn (o.table.grants supply) supply spec body =
      (.ok (.thread r.nextId),
        (({ r with pool :=
              (o.pool.allocateBytes supply.stack (o.config.stackSize spec.stackSize)).2 }.enter
          (Block.fresh o.nextId (o.prepare stack) body spec).record).makeReady
            r.nextId).countSpawned) := by
    simp only [Roster.spawn, hcur, h.admits_eq, hroom, h.pool, h.config]
    rcases hpool : o.pool.allocateBytes supply.stack (o.config.stackSize spec.stackSize) with
      ⟨answer, pool⟩
    rw [hpool] at hstack
    simp only at hstack
    subst hstack
    rfl
  rw [hsame]
  exact ⟨congrArg (fun id => Except.ok (Roster.Reply.thread id)) h.nextId, henrolled⟩

theorem Mirrors.fireLines (h : o.Mirrors r) {runner : Option Nat} (ho : o.Orderly runner)
    (lines : List Line) : (o.wakeAll lines).Mirrors (lines.foldl Roster.fire r) := by
  induction lines generalizing o r with
  | nil => exact h
  | cons line lines ih =>
      refine ih { h.toMatches.fire ho.numbered line with current := ?_ } (ho.wake line)
      rw [idAt_wake]
      exact h.current.trans (congrArg (Option.bind · o.idAt) (wakeMany_current o line _).symm)

theorem Mirrors.woken (h : o.Mirrors r) (ho : o.Sound) {request : Request β} {lines : List Line}
    (hlines : request.lines? = some lines) (room : Bool) (supply : Supply) :
    (o.wakeAll lines).Echoes (.ok (.woken (o.waiters lines)))
      (r.perform room supply request) := by
  have hperform : r.perform room supply request = r.fireAll lines := by
    rcases Request.eq_of_lines? hlines with ⟨line, rfl, rfl⟩ | ⟨mask, rfl, rfl⟩
    · rfl
    · rfl
  have hcount : (lines.map fun line => (r.waiting line).length).sum = o.waiters lines := by
    rw [o.waiters_eq_sum]
    congr 1
    exact List.map_congr_left fun line _ => h.length_waiting line
  rw [hperform, Roster.fireAll, hcount]
  exact ⟨rfl, h.fireLines ho.toOrderly lines⟩

/-!
# Steps that touch no thread
-/

theorem Mirrors.settled (h : o.Mirrors r) (supply : Supply) :
    ({ o with graveyard := none }.release supply o.graveyard).Echoes (.ok .done)
      (r.completeSwitch supply) := by
  have hreleased := (h.toMatches.withGraveyard none).release supply o.graveyard
  unfold Roster.completeSwitch
  rw [h.graveyard]
  refine ⟨rfl, { hreleased with current := ?_ }⟩
  cases o.graveyard with
  | none => exact h.current
  | some stack => exact h.current

/-- What fails has cost no more than memory. -/
theorem Idle.mirrors {request : Request β} {e : Error}
    (hidle : o.Idle supply request (.error e) o') (h : o.Mirrors r) :
    o'.Mirrors { r with pool := o'.pool } := by
  cases hidle with
  | failed => exact { h with pool := rfl }
  | noRoom _ => exact h.memory supply o.pool
  | noStack _ => exact h.memory supply _

/-!
# Handles and identifiers
-/

theorem Matches.find?_eq (h : o.Matches r) {handle : Handle} (hgenuine : o.Genuine handle) :
    r.find? handle.id = (o.table.lookup handle).map Block.record := by
  cases hlookup : o.table.lookup handle with
  | some target => exact h.find?_of_lookup hlookup
  | none =>
      rw [Option.map_none, Option.eq_none_iff_forall_ne_some]
      intro t hfound
      rcases h.known (Finmap.mem_keys.mpr (Finmap.mem_of_lookup_eq_some hfound)) with ⟨slot, hslot⟩
      rcases Option.map_eq_some_iff.mp hslot with ⟨c, hc, hid⟩
      -- a thread with this identifier would be in the slot that the handle names
      have halive : o.table.lookup ⟨slot, handle.id⟩ = some c :=
        Table.lookup_eq_some_iff.mpr ⟨hc, hid⟩
      rw [hgenuine.eq_of_id_eq halive rfl, hlookup] at halive
      cases halive

end Outline

end Coop
