import Coop.Proofs.Scheduler.Outline

/-!
# What an operation can do

All that an operation of the scheduler can do is said here once, as a relation
between outlines.  An operation that fails does nothing, up to the memory it may
have asked for.  One that gives up the processor takes the running thread from
its place, and then hands the processor to the first ready thread.  The others
adopt, create, change, wake or reclaim threads.
-/

namespace Coop

open Thread (Block Handle Id Spec Table)

namespace Outline

variable {β : Type}

/-!
# Steps that touch no thread
-/

/-- Outlines that differ in the memory that is at hand, and in nothing else. -/
def Alike (o o' : Outline β) : Prop :=
  ∃ slotRoom vacantRoom pool graveyard,
    o' =
      { o with
        table := { o.table with slotRoom := slotRoom, vacantRoom := vacantRoom }
        pool := pool
        graveyard := graveyard }

/-- The operations that touch no thread. -/
inductive Idle (supply : Supply) (o : Outline β) :
    Request β → Except Error (Answer β) → Outline β → Prop where
  | failed {request : Request β} {e : Error} : Idle supply o request (.error e) o
  | noRoom {request : Request β} {cause : Shortage} :
      (o.table.reserve supply.slots supply.vacant).1 = .error cause →
        Idle supply o request (.error (.shortage cause)) (o.reserve supply)
  | noStack {spec : Spec} {body : β} {cause : Shortage} :
      ((o.reserve supply).pool.allocateBytes supply.stack (o.config.stackSize spec.stackSize)).1 =
          .error cause →
        Idle supply o (.spawn spec body) (.error (.shortage cause))
          ((o.reserve supply).allocate supply (o.config.stackSize spec.stackSize))
  | noBody : o.current = none → Idle supply o .takeBody (.ok (.body none)) o
  | stayed : o.ready = [] → Idle supply o .yield (.ok .done) o
  | polled {h : Handle} : Idle supply o (.tryJoin h) (.ok .done) o
  | settled : Idle supply o .completeSwitch (.ok .done)
      ({ o with graveyard := none }.release supply o.graveyard)

/-!
# Steps that change hands
-/

/--
How the running thread in slot `cur` gives up the processor: which requests take
it from its place, and where they leave it.
-/
inductive Leaves (supply : Supply) (o : Outline β) (cur : Nat) (b : Block β) :
    Request β → Outline β → Prop where
  | yields : o.ready ≠ [] → Leaves supply o cur b .yield (o.makeReady cur)
  | parks {line : Line} : Leaves supply o cur b (.wait line) (o.park cur line)
  | exits {code : Int32} : b.isDetached = false →
      Leaves supply o cur b (.exit code) (o.finish cur code b.joiner)
  | vanishes {code : Int32} : b.isDetached = true →
      Leaves supply o cur b (.exit code) (o.bury supply cur b)
  | awaits {h : Handle} {target : Block β} :
      o.table.lookup h = some target → h.slot ≠ cur → target.isDetached = false →
        target.joiner = none → target.state ≠ .exited →
          Leaves supply o cur b (.join h) (o.await cur ⟨cur, b.id⟩ h)

/-!
# Steps that reclaim or wake
-/

/-- The requests of a caller that are answered with the code of an exited target. -/
inductive Fetches (caller h : Handle) (target : Block β) : Request β → Prop where
  | join : h.slot ≠ caller.slot → target.isDetached = false → target.joiner = none →
      Fetches caller h target (.join h)
  | tryJoin : h.slot ≠ caller.slot → target.isDetached = false → target.joiner = none →
      Fetches caller h target (.tryJoin h)
  | collect : target.joiner = some caller → Fetches caller h target (.collect h)

end Outline

def Request.lines? {β : Type} : Request β → Option (List Line)
  | .interrupt line => some [line]
  | .interrupts mask => some (Mask.lines mask)
  | _ => none

namespace Outline

variable {β : Type}

/-- All that an operation can do. -/
inductive Step (supply : Supply) (o : Outline β) :
    Request β → Except Error (Answer β) → Outline β → Prop where
  | idle {request : Request β} {result : Except Error (Answer β)} {o' : Outline β} :
      Idle supply o request result o' → Step supply o request result o'
  | bootstrapped :
      o.current = none → (o.table.reserve supply.slots supply.vacant).1 = .ok () →
        Step supply o .bootstrap (.ok (.handle ⟨o.table.nextSlot, o.nextId⟩))
          (o.reserve supply).adopt
  | spawned {cur : Nat} {spec : Spec} {body : β} {stack : Stack} :
      o.current = some cur → (o.table.reserve supply.slots supply.vacant).1 = .ok () →
        (o.pool.allocateBytes supply.stack (o.config.stackSize spec.stackSize)).1 = .ok stack →
          Step supply o (.spawn spec body) (.ok (.handle ⟨o.table.nextSlot, o.nextId⟩))
            (((o.reserve supply).allocate supply (o.config.stackSize spec.stackSize)).enroll
              (.fresh o.nextId (o.prepare stack) body spec))
  | took {cur : Nat} {b : Block β} :
      o.current = some cur → o.table.get? cur = some b →
        Step supply o .takeBody (.ok (.body b.body)) (o.modify cur fun b => { b with body := none })
  | switched {cur slot : Nat} {rest : List Nat} {b c : Block β} {request : Request β}
      {o₁ : Outline β} :
      o.current = some cur → o.table.get? cur = some b → Leaves supply o cur b request o₁ →
        o₁.ready = slot :: rest → o₁.table.get? slot = some c →
          Step supply o request (.ok (.transfer ⟨⟨cur, b.id⟩, ⟨slot, c.id⟩⟩))
            (o₁.dispatch slot rest)
  | delivered {cur : Nat} {b target : Block β} {h : Handle} {code : Int32}
      {request : Request β} :
      o.current = some cur → o.table.get? cur = some b → o.table.lookup h = some target →
        Fetches ⟨cur, b.id⟩ h target request → target.state = .exited →
          target.exitCode = some code →
            Step supply o request (.ok (.code code)) (o.reclaim supply h.slot target)
  | detached {cur : Nat} {target : Block β} {h : Handle} :
      o.current = some cur → o.table.lookup h = some target → target.joiner = none →
        target.state ≠ .exited →
          Step supply o (.detach h) (.ok .done) (o.modify h.slot Block.detach)
  | dropped {cur : Nat} {target : Block β} {h : Handle} :
      o.current = some cur → o.table.lookup h = some target → target.joiner = none →
        target.state = .exited →
          Step supply o (.detach h) (.ok .done) (o.reclaim supply h.slot target)
  | woken {request : Request β} {lines : List Line} :
      request.lines? = some lines →
        Step supply o request (.ok (.woken (o.waiters lines))) (o.wakeAll lines)

/-!
# Outlines that are alike
-/

namespace Alike

variable {o o' : Outline β}

theorem refl (o : Outline β) : o.Alike o :=
  ⟨o.table.slotRoom, o.table.vacantRoom, o.pool, o.graveyard, rfl⟩

theorem current (h : o.Alike o') : o'.current = o.current := by
  rcases h with ⟨_, _, _, _, rfl⟩
  rfl

theorem get? (h : o.Alike o') (slot : Nat) : o'.table.get? slot = o.table.get? slot := by
  rcases h with ⟨_, _, _, _, rfl⟩
  rfl

theorem lookup (h : o.Alike o') (handle : Handle) :
    o'.table.lookup handle = o.table.lookup handle := by
  rcases h with ⟨_, _, _, _, rfl⟩
  rfl

theorem nextSlot (h : o.Alike o') : o'.table.nextSlot = o.table.nextSlot := by
  rcases h with ⟨_, _, _, _, rfl⟩
  rfl

theorem nextId (h : o.Alike o') : o'.nextId = o.nextId := by
  rcases h with ⟨_, _, _, _, rfl⟩
  rfl

theorem reserve (o : Outline β) (supply : Supply) : o.Alike (o.reserve supply) := by
  rcases Table.snd_reserve o.table supply.slots supply.vacant with ⟨slotRoom, vacantRoom, h⟩
  refine ⟨slotRoom, vacantRoom, o.pool, o.graveyard, ?_⟩
  rw [Outline.reserve, h]

theorem allocate (h : o.Alike o') (supply : Supply) (bytes : Nat) :
    o.Alike (o'.allocate supply bytes) := by
  rcases h with ⟨slotRoom, vacantRoom, pool, graveyard, rfl⟩
  exact ⟨slotRoom, vacantRoom, _, graveyard, rfl⟩

theorem release (o : Outline β) (graveyard : Option Stack) (supply : Supply)
    (stack : Option Stack) : o.Alike ({ o with graveyard }.release supply stack) := by
  cases stack with
  | none => exact ⟨o.table.slotRoom, o.table.vacantRoom, o.pool, graveyard, rfl⟩
  | some stack => exact ⟨o.table.slotRoom, o.table.vacantRoom, _, graveyard, rfl⟩

end Alike

theorem Idle.alike {supply : Supply} {o o' : Outline β} {request : Request β}
    {result : Except Error (Answer β)} (h : Idle supply o request result o') : o.Alike o' := by
  cases h with
  | failed => exact Alike.refl o
  | noRoom _ => exact Alike.reserve o supply
  | noStack _ => exact (Alike.reserve o supply).allocate supply _
  | noBody _ => exact Alike.refl o
  | stayed _ => exact Alike.refl o
  | polled => exact Alike.refl o
  | settled => exact Alike.release o none supply o.graveyard

end Outline

end Coop
