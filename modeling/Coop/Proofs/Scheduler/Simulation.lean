import Coop.Proofs.Scheduler.Departures

/-!
# Operations are steps

Each operation of a scheduler is one of the steps that its outline allows, as long
as the outline is sound.  It leaves a scheduler whose outline is the one the step
leaves.  So every reachable scheduler has a sound outline, and what is proved of
steps holds of operations.
-/

namespace Coop

open Thread (Block Handle Id Lane Queue Spec Table)

/-- What a request comes to is one of the steps that the outline allows. -/
def Outline.Follows {β : Type} (o : Outline β) (supply : Supply) (request : Request β)
    (outcome : Outcome β (Answer β)) : Prop :=
  ∃ o', o.Step supply request outcome.result o' ∧ Represents outcome.scheduler o'

namespace Represents

variable {β : Type} {s : Scheduler β} {o : Outline β}

theorem follows_of_failed {outcome : Outcome β (Answer β)} {e : Error} {supply : Supply}
    {request : Request β} (h : Represents outcome.scheduler o) (he : outcome.result = .error e) :
    o.Follows supply request outcome := by
  refine ⟨o, ?_, h⟩
  rw [he]
  exact .idle .failed

/-!
# Beginnings of threads
-/

theorem store {w : Work β} (h : Represents w.scheduler o) (hpacked : w.scheduler.table.Packed)
    {b : Block β} (hb : b.bare = b) :
    (w.freshId.2.insert b).1 = o.table.nextSlot ∧
      Represents (w.freshId.2.insert b).2.scheduler (o.store b) :=
  Represents.insert (w := w.freshId.2) (o := { o with nextId := o.nextId + 1 })
    { h with nextId := by rw [h.nextId]; rfl } hpacked hb

theorem enroll {w : Work β} (h : Represents w.scheduler o) (ho : o.Sound) (stack : Stack) (body : β)
    (spec : Spec) :
    (w.freshId.2.insert (.fresh w.scheduler.nextId stack body spec)).1 = o.table.nextSlot ∧
      Represents (((w.freshId.2.insert (.fresh w.scheduler.nextId stack body spec)).2.makeReady
          (w.freshId.2.insert (.fresh w.scheduler.nextId stack body spec)).1).count fun c =>
            { c with spawned := c.spawned + 1 }).scheduler
        (o.enroll (.fresh w.scheduler.nextId stack body spec)) := by
  rcases h.store (h.packed ho) (b := .fresh w.scheduler.nextId stack body spec) rfl with
    ⟨hslot, hstored⟩
  have hready := ho.placed.not_mem_ready_of_vacant ho.packed.get?_nextSlot
  have hget := ho.packed.get?_insert (.fresh w.scheduler.nextId stack body spec) o.table.nextSlot
  rw [if_pos rfl] at hget
  refine ⟨hslot, ?_⟩
  rw [hslot]
  exact (Represents.makeReady hstored hget hready).count fun c =>
    { c with spawned := c.spawned + 1 }

theorem bootstrap (h : Represents s o) (ho : o.Sound) (supply : Supply) :
    o.Follows supply .bootstrap (s.perform supply .bootstrap) := by
  unfold Scheduler.perform Scheduler.bootstrap
  cases hcurrent : s.current with
  | some cur => exact h.follows_of_failed rfl
  | none =>
      rw [← h.current] at hcurrent
      rcases Represents.reserve (w := s.work) h supply with ⟨hanswer, hreserved⟩
      rcases hres : s.work.reserve supply with ⟨answer, w⟩
      rw [hres] at hanswer hreserved
      cases answer with
      | error cause =>
          refine ⟨o.reserve supply, ?_, hreserved⟩
          exact .idle (.noRoom hanswer.symm)
      | ok u =>
          have halike := Outline.Alike.reserve o supply
          have hid : w.scheduler.nextId = o.nextId := hreserved.nextId.symm
          rcases hreserved.store (hreserved.packed (halike.sound ho))
            (b := .main w.scheduler.nextId) rfl with ⟨hslot, hstored⟩
          refine ⟨(o.reserve supply).adopt, ?_, ?_⟩
          · have hstep : o.Step supply .bootstrap _ _ := .bootstrapped hcurrent hanswer.symm
            rw [← hid, ← halike.nextSlot, ← hslot] at hstep
            exact hstep
          · refine { hstored with table := ?_, current := ?_ }
            · have htable := hstored.table
              rw [hid] at htable
              exact htable.trans (by rw [← hid]; rfl)
            · exact congrArg some hslot.symm

theorem spawn (h : Represents s o) (ho : o.Sound) (supply : Supply) (spec : Spec) (body : β) :
    o.Follows supply (.spawn spec body) (s.perform supply (.spawn spec body)) := by
  unfold Scheduler.perform Scheduler.spawn
  cases hcurrent : s.current with
  | none => exact h.follows_of_failed rfl
  | some cur =>
      rw [← h.current] at hcurrent
      rcases Represents.reserve (w := s.work) h supply with ⟨hanswer, hreserved⟩
      rcases hres : s.work.reserve supply with ⟨answer, w⟩
      rw [hres] at hanswer hreserved
      cases answer with
      | error cause =>
          refine ⟨o.reserve supply, ?_, hreserved⟩
          exact .idle (.noRoom hanswer.symm)
      | ok u =>
          simp only [← h.config]
          rcases hreserved.allocate supply (o.config.stackSize spec.stackSize) with
            ⟨hstack, hallocated⟩
          rcases halloc : w.allocate supply (o.config.stackSize spec.stackSize) with ⟨answer, w₁⟩
          rw [halloc] at hstack hallocated
          cases answer with
          | error cause =>
              refine ⟨_, ?_, hallocated⟩
              exact .idle (.noStack hstack.symm)
          | ok stack =>
              have halike := (Outline.Alike.reserve o supply).allocate supply
                (o.config.stackSize spec.stackSize)
              have hsound := halike.sound ho
              have hid : w₁.scheduler.nextId = o.nextId := hallocated.nextId.symm
              rcases hallocated.enroll hsound (o.prepare stack) body spec with ⟨hslot, henrolled⟩
              refine ⟨_, ?_, henrolled⟩
              have hstep : o.Step supply (.spawn spec body) _ _ :=
                .spawned hcurrent hanswer.symm hstack.symm
              rw [← hid, ← halike.nextSlot, ← hslot] at hstep
              exact hstep

theorem takeBody (h : Represents s o) (ho : o.Sound) (supply : Supply) :
    o.Follows supply .takeBody (s.perform supply .takeBody) := by
  unfold Scheduler.perform Scheduler.takeBody
  cases hcurrent : s.current with
  | none =>
      rw [← h.current] at hcurrent
      exact ⟨o, .idle (.noBody hcurrent), h⟩
  | some cur =>
      rcases h.get?_current ho hcurrent with ⟨b, hb, hget, -⟩
      have htaken := h.modify cur (f := fun b => { b with body := none }) (fun _ => rfl)
        fun _ lane => by cases lane <;> rfl
      rw [hcurrent] at htaken
      simp only [hb]
      exact ⟨_, .took (b := b.bare) (h.current.trans hcurrent) hget, htaken⟩

/-!
# Giving up the processor
-/

theorem follows_of_departs (h : Represents s o) (ho : o.Sound) {caller : Handle} {supply : Supply}
    {request : Request β} {w : Work β} (hrunning : s.running = .ok caller)
    (hdeparts : s.Departs supply caller request w) :
    o.Follows supply request (s.perform supply request) := by
  rcases h.dispatch_of_departs ho hrunning hdeparts with
    ⟨o', t, htransfer, hstep, hdispatched⟩
  rw [hdeparts.perform_eq hrunning]
  refine ⟨o', ?_, hdispatched⟩
  show o.Step supply request ((w.dispatch caller).result.map .transfer) o'
  rw [htransfer]
  exact hstep

theorem running_of_current (h : Represents s o) (ho : o.Sound) {cur : Nat}
    (hcurrent : s.current = some cur) :
    ∃ b, s.table.get? cur = some b ∧ s.running = .ok ⟨cur, b.id⟩ := by
  rcases h.get?_current ho hcurrent with ⟨b, hb, -, -⟩
  exact ⟨b, hb, Scheduler.running_eq_ok_iff.mpr ⟨hcurrent, b, Table.lookup_of_get? hb⟩⟩

theorem yield (h : Represents s o) (ho : o.Sound) (supply : Supply) :
    o.Follows supply .yield (s.perform supply .yield) := by
  cases hcurrent : s.current with
  | none =>
      simp only [Scheduler.perform, Scheduler.yield, hcurrent]
      exact h.follows_of_failed rfl
  | some cur =>
      rcases h.running_of_current ho hcurrent with ⟨b, -, hrunning⟩
      cases hempty : s.ready.isEmpty with
      | false => exact h.follows_of_departs ho hrunning (.yields hempty)
      | true =>
          simp only [Scheduler.perform, Scheduler.yield, hcurrent, hempty, if_true]
          rw [h.isEmpty_eq] at hempty
          exact ⟨o, .idle (.stayed (List.isEmpty_iff.mp hempty)), h⟩

theorem wait (h : Represents s o) (ho : o.Sound) (supply : Supply) (line : Line) :
    o.Follows supply (.wait line) (s.perform supply (.wait line)) := by
  cases hcurrent : s.current with
  | none =>
      simp only [Scheduler.perform, Scheduler.wait, hcurrent]
      exact h.follows_of_failed rfl
  | some cur =>
      rcases h.running_of_current ho hcurrent with ⟨b, -, hrunning⟩
      cases hempty : s.ready.isEmpty with
      | false => exact h.follows_of_departs ho hrunning (.waits hempty)
      | true =>
          simp only [Scheduler.perform, Scheduler.wait, hcurrent, hempty, if_true]
          exact h.follows_of_failed rfl

theorem exit (h : Represents s o) (ho : o.Sound) (supply : Supply) (code : Int32) :
    o.Follows supply (.exit code) (s.perform supply (.exit code)) := by
  cases hcurrent : s.current with
  | none =>
      simp only [Scheduler.perform, Scheduler.exit, hcurrent]
      exact h.follows_of_failed rfl
  | some cur =>
      rcases h.running_of_current ho hcurrent with ⟨b, hb, hrunning⟩
      cases hrefused : s.ready.isEmpty && b.joiner.isNone with
      | false => exact h.follows_of_departs ho hrunning (.exits hb hrefused)
      | true =>
          simp only [Scheduler.perform, Scheduler.exit, hcurrent, hb, hrefused, if_true]
          exact h.follows_of_failed rfl

/-!
# Joining and detaching
-/

theorem reclaimed {w : Work β} (h : Represents w.scheduler o) (ho : o.Sound) (supply : Supply)
    {handle : Handle} {target : Block β} (hlookup : o.table.lookup handle = some target)
    (hstate : target.state = .exited) :
    Represents (w.reclaim supply handle.slot).scheduler (o.reclaim supply handle.slot target) := by
  have hget := (Table.lookup_eq_some_iff.mp hlookup).1
  refine h.reclaim supply hget ?_ (ho.placed.not_mem_waiting hget (by simp [hstate]))
  rw [ho.placed.mem_ready_iff hget, hstate]
  decide

theorem join (h : Represents s o) (ho : o.Sound) (supply : Supply) (handle : Handle) :
    o.Follows supply (.join handle) (s.perform supply (.join handle)) := by
  cases hcurrent : s.current with
  | none =>
      simp only [Scheduler.perform, Scheduler.join, hcurrent]
      exact h.follows_of_failed rfl
  | some cur =>
      rcases h.running_of_current ho hcurrent with ⟨b, hb, hrunning⟩
      cases hjoinable : s.joinable cur handle with
      | error e =>
          simp only [Scheduler.perform, Scheduler.join, hcurrent, hjoinable]
          exact h.follows_of_failed rfl
      | ok target =>
          cases hfinished : Scheduler.finished? target with
          | some code =>
              rcases joinable_eq_ok hjoinable with ⟨hlookup, hne, hattached, hjoiner⟩
              rcases finished?_eq_some hfinished with ⟨hexited, hcode⟩
              have hcur : o.current = some cur := h.current.trans hcurrent
              have hget : o.table.get? cur = some b.bare := by
                rw [h.get?_eq, hb]
                rfl
              have htarget := h.lookup_of_lookup hlookup
              simp only [Scheduler.perform, Scheduler.join, hcurrent, hjoinable, hfinished]
              exact ⟨_, .delivered hcur hget htarget (.join hne hattached hjoiner) hexited
                hcode, Represents.reclaimed (w := s.work) h ho supply htarget hexited⟩
          | none =>
              cases hempty : s.ready.isEmpty with
              | false => exact h.follows_of_departs ho hrunning (.joins hjoinable hfinished hempty)
              | true =>
                  simp only [Scheduler.perform, Scheduler.join, hcurrent, hjoinable, hfinished,
                    hempty, if_true]
                  exact h.follows_of_failed rfl

theorem tryJoin (h : Represents s o) (ho : o.Sound) (supply : Supply) (handle : Handle) :
    o.Follows supply (.tryJoin handle) (s.perform supply (.tryJoin handle)) := by
  unfold Scheduler.perform Scheduler.tryJoin
  cases hcurrent : s.current with
  | none => exact h.follows_of_failed rfl
  | some cur =>
      rcases h.runner ho hcurrent with ⟨b, hcur, hget, -⟩
      simp only
      cases hjoinable : s.joinable cur handle with
      | error e => exact h.follows_of_failed rfl
      | ok target =>
          rcases joinable_eq_ok hjoinable with ⟨hlookup, hne, hattached, hjoiner⟩
          have htarget := h.lookup_of_lookup hlookup
          cases hfinished : Scheduler.finished? target with
          | some code =>
              rcases finished?_eq_some hfinished with ⟨hexited, hcode⟩
              simp only [hfinished]
              exact ⟨_, .delivered hcur hget htarget (.tryJoin hne hattached hjoiner) hexited
                hcode, Represents.reclaimed (w := s.work) h ho supply htarget hexited⟩
          | none =>
              simp only [hfinished]
              exact ⟨o, .idle .polled, h⟩

theorem collect (h : Represents s o) (ho : o.Sound) (supply : Supply) (handle : Handle) :
    o.Follows supply (.collect handle) (s.perform supply (.collect handle)) := by
  unfold Scheduler.perform Scheduler.collect Scheduler.running
  cases hcurrent : s.current with
  | none => exact h.follows_of_failed rfl
  | some cur =>
      rcases h.runner ho hcurrent with ⟨b, hcur, hget, -, hhandle, -⟩
      simp only [hhandle]
      cases hlookup : s.table.lookup handle with
      | none => exact h.follows_of_failed rfl
      | some target =>
          have htarget := h.lookup_of_lookup hlookup
          by_cases hjoiner : target.joiner = some ⟨cur, b.id⟩
          · simp only [hjoiner, if_true]
            cases hcode : target.exitCode with
            | none => exact h.follows_of_failed rfl
            | some code =>
                have hcoherent := ho.placed.coherent (Table.lookup_eq_some_iff.mp htarget).1
                have hexited : target.bare.state = .exited :=
                  hcoherent.exitCode.mp (by show target.exitCode.isSome = true; rw [hcode]; rfl)
                exact ⟨_, .delivered hcur hget htarget (.collect hjoiner) hexited hcode,
                  Represents.reclaimed (w := s.work) h ho supply htarget hexited⟩
          · simp only [hjoiner, if_false]
            exact h.follows_of_failed rfl

theorem detach (h : Represents s o) (ho : o.Sound) (supply : Supply) (handle : Handle) :
    o.Follows supply (.detach handle) (s.perform supply (.detach handle)) := by
  unfold Scheduler.perform Scheduler.detach
  cases hcurrent : s.current with
  | none => exact h.follows_of_failed rfl
  | some cur =>
      simp only
      cases hlookup : s.table.lookup handle with
      | none => exact h.follows_of_failed rfl
      | some target =>
          have hcur : o.current = some cur := h.current.trans hcurrent
          have htarget := h.lookup_of_lookup hlookup
          have hget := (Table.lookup_eq_some_iff.mp htarget).1
          cases hjoiner : target.joiner with
          | some j =>
              simp only [hjoiner, Option.isSome_some, if_true]
              exact h.follows_of_failed rfl
          | none =>
              have hdetached := h.modify handle.slot (f := Block.detach) (fun _ => rfl)
                fun _ lane => by cases lane <;> rfl
              simp only [hjoiner, Option.isSome_none]
              by_cases hexited : target.state = .exited
              · have hget' : (o.modify handle.slot Block.detach).table.get? handle.slot =
                    some target.bare.detach := by
                  simp [Outline.modify, hget]
                have hreclaimed := Represents.reclaim (w := s.work.modify handle.slot Block.detach)
                  hdetached supply hget'
                  (by
                    show handle.slot ∉ o.ready
                    rw [ho.placed.mem_ready_iff hget]
                    simp [hexited])
                  (ho.placed.not_mem_waiting hget (by simp [hexited]))
                have hsame : (o.modify handle.slot Block.detach).reclaim supply handle.slot
                    target.bare.detach = o.reclaim supply handle.slot target.bare := by
                  show ({ o with table := ((o.table.modify handle.slot
                    Block.detach).remove handle.slot).2 }.release supply
                      target.stack).countReclaimed = _
                  rw [Table.remove_modify hget Block.detach]
                  rfl
                rw [hsame] at hreclaimed
                simp only [hexited, if_true]
                exact ⟨_, .dropped hcur htarget hjoiner hexited, hreclaimed⟩
              · simp only [hexited, if_false]
                exact ⟨_, .detached hcur htarget hjoiner hexited, hdetached⟩

/-!
# Interrupts, and the end of a switch
-/

theorem interrupt (h : Represents s o) (ho : o.Sound) (supply : Supply) (line : Line) :
    o.Follows supply (.interrupt line) (s.perform supply (.interrupt line)) := by
  rcases Represents.fire (w := s.work) h ho.toOrderly line with ⟨hcount, hfired⟩
  refine ⟨o.wakeAll [line], ?_, hfired⟩
  have hstep : o.Step supply (.interrupt line) _ _ := .woken rfl
  rw [show o.waiters [line] = (Scheduler.fire s.work line).1 by simp [Outline.waiters, hcount]]
    at hstep
  exact hstep

theorem interrupts (h : Represents s o) (ho : o.Sound) (supply : Supply) (mask : Mask) :
    o.Follows supply (.interrupts mask) (s.perform supply (.interrupts mask)) := by
  have hlines : (Mask.lines mask).Nodup := (List.nodup_finRange 32).filter _
  rcases Represents.fireAll (w := s.work) h ho.toOrderly _ hlines with ⟨hcount, hfired⟩
  refine ⟨o.wakeAll (Mask.lines mask), ?_, hfired⟩
  have hstep : o.Step supply (.interrupts mask) _ _ := .woken rfl
  rw [← hcount] at hstep
  exact hstep

theorem completeSwitch (h : Represents s o) (supply : Supply) :
    o.Follows supply .completeSwitch (s.perform supply .completeSwitch) := by
  have hsettled : Represents (s.perform supply .completeSwitch).scheduler
      ({ o with graveyard := none }.release supply o.graveyard) := by
    unfold Scheduler.perform Scheduler.completeSwitch
    rw [h.graveyard]
    cases hgraveyard : s.graveyard with
    | none =>
        refine { h with graveyard := ?_ }
        exact hgraveyard.symm
    | some stack =>
        have hcleared : Represents { s with graveyard := none } { o with graveyard := none } :=
          { h with graveyard := rfl }
        exact Represents.releaseAny (w := { scheduler := { s with graveyard := none } }) hcleared
          supply (some stack)
  have hresult : (s.perform supply .completeSwitch).result = .ok .done := by
    unfold Scheduler.perform Scheduler.completeSwitch
    cases s.graveyard <;> rfl
  refine ⟨_, ?_, hsettled⟩
  rw [hresult]
  exact .idle .settled

/-!
# Every operation is a step
-/

theorem perform (h : Represents s o) (ho : o.Sound) (supply : Supply) (request : Request β) :
    o.Follows supply request (s.perform supply request) := by
  cases request with
  | bootstrap => exact h.bootstrap ho supply
  | spawn spec body => exact h.spawn ho supply spec body
  | takeBody => exact h.takeBody ho supply
  | yield => exact h.yield ho supply
  | wait line => exact h.wait ho supply line
  | exit code => exact h.exit ho supply code
  | join target => exact h.join ho supply target
  | collect target => exact h.collect ho supply target
  | tryJoin target => exact h.tryJoin ho supply target
  | detach target => exact h.detach ho supply target
  | interrupt line => exact h.interrupt ho supply line
  | interrupts mask => exact h.interrupts ho supply mask
  | completeSwitch => exact h.completeSwitch supply

end Represents

namespace Outline

variable {β : Type}

theorem sound_create (config : Config) : (create config : Outline β).Sound where
  packed := .empty config.maxThreads
  numbered := .empty config.maxThreads
  placed := by
    refine ⟨List.nodup_nil, fun _ => List.nodup_nil, ?_⟩
    intro slot
    constructor <;> simp [create, Table.state?, Table.line?]
  joins := .empty config.maxThreads
  deserted := by simp [create]

end Outline

namespace Scheduler

variable {β : Type} {s : Scheduler β}

def Shaped (s : Scheduler β) (o : Outline β) : Prop :=
  Represents s o ∧ o.Sound

theorem shaped_create (config : Config) : (create config : Scheduler β).Shaped (.create config) :=
  ⟨Represents.create config, Outline.sound_create config⟩

theorem Shaped.perform {o : Outline β} (h : s.Shaped o) (supply : Supply) (request : Request β) :
    ∃ o', o.Step supply request (s.perform supply request).result o' ∧
      (s.perform supply request).scheduler.Shaped o' := by
  rcases h.1.perform h.2 supply request with ⟨o', hstep, hrepresents⟩
  exact ⟨o', hstep, hrepresents, hstep.sound h.2⟩

theorem Shaped.after {o : Outline β} (h : s.Shaped o) (requests : List (Request β × Supply)) :
    ∃ o', (s.after requests).Shaped o' := by
  induction requests generalizing s o with
  | nil => exact ⟨o, h⟩
  | cons entry rest ih =>
      rcases h.perform entry.2 entry.1 with ⟨o', -, hshaped⟩
      exact ih hshaped

theorem Reachable.shaped (h : s.Reachable) : ∃ o, s.Shaped o := by
  rcases h with ⟨config, requests, rfl⟩
  exact (shaped_create config).after requests

end Scheduler

end Coop
