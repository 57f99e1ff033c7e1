import Coop.Proofs.Thread.Families
import Coop.Scheduler.Request

/-!
# Outlines of schedulers

An outline is a scheduler whose queues are lists of slots: the links of its
control blocks are blank, and no head, tail or length is stored.  A scheduler has
an outline when each of its queues holds the list that the outline gives it.
What an operation does is said and proved about outlines, because lists are
appended to and shortened where links have to be rewritten.
-/

namespace Coop

open Thread (Block Family Handle Id Lane Queue Table)

/-- A scheduler with its queues as lists of slots. -/
structure Outline (β : Type) where
  config : Config
  table : Table β
  ready : List Nat
  waiting : Line → List Nat
  pool : Pool
  current : Option Nat
  nextId : Id
  graveyard : Option Stack
  counters : Counters

namespace Outline

variable {β : Type}

def create (config : Config) : Outline β where
  config
  table := .empty config.maxThreads
  ready := []
  waiting := fun _ => []
  pool := { budget := config.stackBudget }
  current := none
  nextId := 1
  graveyard := none
  counters := {}

def modify (o : Outline β) (slot : Nat) (f : Block β → Block β) : Outline β :=
  { o with table := o.table.modify slot f }

def reserve (o : Outline β) (supply : Supply) : Outline β :=
  { o with table := (o.table.reserve supply.slots supply.vacant).2 }

def store (o : Outline β) (b : Block β) : Outline β :=
  { o with table := (o.table.insert b).2, nextId := o.nextId + 1 }

def allocate (o : Outline β) (supply : Supply) (bytes : Nat) : Outline β :=
  { o with pool := (o.pool.allocateBytes supply.stack bytes).2 }

def prepare (o : Outline β) (stack : Stack) : Stack :=
  if o.config.stackCanary then stack.guarded else stack

/-!
# Queues
-/

def makeReady (o : Outline β) (slot : Nat) : Outline β :=
  { o with
    table := o.table.modify slot Block.ready
    ready := o.ready ++ [slot] }

def park (o : Outline β) (slot : Nat) (line : Line) : Outline β :=
  { o with
    table := o.table.modify slot fun b => b.park line
    waiting := Function.update o.waiting line (o.waiting line ++ [slot]) }

def wakeFirst (o : Outline β) (line : Line) : Outline β :=
  match o.waiting line with
  | [] => o
  | slot :: rest =>
      { o with
        table := o.table.modify slot fun b => b.unpark.ready
        ready := o.ready ++ [slot]
        waiting := Function.update o.waiting line rest }

theorem wakeFirst_nil {o : Outline β} {line : Line} (h : o.waiting line = []) :
    o.wakeFirst line = o := by
  simp [wakeFirst, h]

theorem wakeFirst_cons {o : Outline β} {line : Line} {slot : Nat} {rest : List Nat}
    (h : o.waiting line = slot :: rest) :
    o.wakeFirst line =
      { o with
        table := o.table.modify slot fun b => b.unpark.ready
        ready := o.ready ++ [slot]
        waiting := Function.update o.waiting line rest } := by
  simp [wakeFirst, h]

def wakeMany (o : Outline β) (line : Line) : Nat → Outline β
  | 0 => o
  | count + 1 => (o.wakeFirst line).wakeMany line count

def wake (o : Outline β) (line : Line) : Outline β :=
  let woken := (o.waiting line).length
  let o := o.wakeMany line woken
  { o with counters := { o.counters with interruptWakeups := o.counters.interruptWakeups + woken } }

def wakeAll (o : Outline β) (lines : List Line) : Outline β :=
  lines.foldl wake o

def waiters (o : Outline β) (lines : List Line) : Nat :=
  (lines.flatMap o.waiting).length

/-- The processor goes to a thread that the ready queue held in front of the rest. -/
def dispatch (o : Outline β) (slot : Nat) (rest : List Nat) : Outline β :=
  { o with
    table := o.table.modify slot Block.run
    ready := rest
    current := some slot
    counters := { o.counters with contextSwitches := o.counters.contextSwitches + 1 } }

/-!
# Beginnings of threads
-/

def adopt (o : Outline β) : Outline β :=
  { o.store (.main o.nextId) with current := some o.table.nextSlot }

def enroll (o : Outline β) (b : Block β) : Outline β :=
  { (o.store b).makeReady o.table.nextSlot with
    counters := { o.counters with spawned := o.counters.spawned + 1 } }

/-!
# Ends of threads
-/

def release (o : Outline β) (supply : Supply) : Option Stack → Outline β
  | none => o
  | some stack => { o with pool := o.pool.release supply.cache stack }

def countReclaimed (o : Outline β) : Outline β :=
  { o with counters := { o.counters with reclaimed := o.counters.reclaimed + 1 } }

def countExited (o : Outline β) : Outline β :=
  { o with counters := { o.counters with exited := o.counters.exited + 1 } }

def reclaim (o : Outline β) (supply : Supply) (slot : Nat) (b : Block β) : Outline β :=
  ({ o with table := (o.table.remove slot).2 }.release supply b.stack).countReclaimed

def retire (o : Outline β) (supply : Supply) : Option Stack → Outline β
  | none => o
  | some stack => { o with graveyard := some stack }.release supply o.graveyard

/-- A detached thread ends: only its stack stays for a while. -/
def bury (o : Outline β) (supply : Supply) (slot : Nat) (b : Block β) : Outline β :=
  ({ o.countExited with table := (o.table.remove slot).2 }.retire supply b.stack).countReclaimed

def finish (o : Outline β) (slot : Nat) (code : Int32) (joiner : Option Handle) : Outline β :=
  let o := (o.modify slot fun b => b.exit code).countExited
  match joiner with
  | none => o
  | some h => o.makeReady h.slot

def await (o : Outline β) (slot : Nat) (caller target : Handle) : Outline β :=
  (o.modify target.slot fun b => { b with joiner := some caller }).modify slot fun b =>
    { b with state := .blockedOnJoin }

end Outline

/-!
# The outline of a scheduler
-/

/-- The queues of a scheduler hold the lists of an outline; all else is the same. -/
structure Represents {β : Type} (s : Scheduler β) (o : Outline β) : Prop where
  config : o.config = s.config
  table : o.table = s.table.bare
  ready : Family s.table (fun _ : Unit => s.ready) (fun _ => o.ready)
  waiting : Family s.table s.waits.bucket o.waiting
  tidy : ∀ lane, s.table.Tidy lane
  pool : o.pool = s.pool
  current : o.current = s.current
  nextId : o.nextId = s.nextId
  graveyard : o.graveyard = s.graveyard
  counters : o.counters = s.counters

namespace Represents

variable {β : Type} {s : Scheduler β} {o : Outline β}

theorem create (config : Config) :
    Represents (Scheduler.create config : Scheduler β) (.create config) where
  config := rfl
  table := by simp [Scheduler.create, Outline.create, Table.bare, Table.empty]
  ready := ⟨fun _ => .nil _, by simp [Outline.create], by simp [Scheduler.create, Table.link]⟩
  waiting := by
    refine ⟨?_, by simp [Outline.create], by simp [Scheduler.create, Table.link]⟩
    intro line
    have hbucket : (Scheduler.create config : Scheduler β).waits.bucket line = {} := by
      simp [Scheduler.create, Waits.bucket]
    rw [hbucket]
    exact .nil _
  tidy := by
    intro lane slot _
    simp [Scheduler.create, Table.link]
  pool := rfl
  current := rfl
  nextId := rfl
  graveyard := rfl
  counters := rfl

theorem get?_eq (h : Represents s o) (slot : Nat) :
    o.table.get? slot = (s.table.get? slot).map Block.bare := by
  rw [h.table, Table.get?_bare]

theorem lookup_eq (h : Represents s o) (handle : Handle) :
    o.table.lookup handle = (s.table.lookup handle).map Block.bare := by
  rw [h.table, Table.lookup_bare]

theorem isEmpty_eq (h : Represents s o) : s.ready.isEmpty = o.ready.isEmpty :=
  (h.ready.holds ()).isEmpty_eq

theorem isOccupied_of_get? (h : Represents s o) {slot : Nat} {b : Block β}
    (hget : o.table.get? slot = some b) : s.table.isOccupied slot = true := by
  rw [h.get?_eq] at hget
  rcases Option.map_eq_some_iff.mp hget with ⟨b', hb', -⟩
  exact Table.isOccupied_eq_true_iff.mpr ⟨b', hb'⟩

theorem ready_unlinked (h : Represents s o) {slot : Nat} (hslot : slot ∉ o.ready) :
    (s.table.link .ready slot).linked = false :=
  h.ready.unlinked slot fun _ => hslot

end Represents

end Coop
