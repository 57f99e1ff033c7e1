import Coop.Error
import Coop.Fault
import Coop.Memory.Supply
import Coop.Stack.Basic

/-!
# Pool of stacks

The pool hands out stacks and takes them back.  Returned stacks are cached by
size class, and the one returned last is handed out first.  An optional budget
bounds the bytes that the pool holds, in use or cached; when a fresh stack would
exceed it, the caches are emptied first.
-/

namespace Coop

structure Cache where
  /-- The stack returned last comes first. -/
  kept : List Stack := []
  room : Nat := 0
  deriving DecidableEq, Repr

namespace Cache

def bytes (c : Cache) : Nat :=
  c.kept.foldr (fun stack bytes => stack.size + bytes) 0

end Cache

structure Pool where
  budget : Option Nat
  caches : Vector Cache 5 := Vector.replicate 5 {}
  /-- Stacks obtained from the allocator. -/
  allocated : Nat := 0
  /-- Stacks returned to the pool. -/
  deallocated : Nat := 0
  inUse : Nat := 0
  /-- Bytes held, in use or cached. -/
  reserved : Nat := 0
  deriving DecidableEq, Repr

namespace Pool

def cache (p : Pool) (c : SizeClass) : Cache :=
  p.caches[c.index]

def setCache (p : Pool) (c : SizeClass) (cache : Cache) : Pool :=
  { p with caches := p.caches.set c.index cache }

def cachedBytes (p : Pool) : Nat :=
  p.caches.toList.foldr (fun cache bytes => cache.bytes + bytes) 0

def fits (p : Pool) (bytes : Nat) : Bool :=
  match p.budget with
  | none => true
  | some budget => p.reserved + bytes ≤ budget

/-- Gives every cached stack back to the allocator. -/
def trim (p : Pool) : Pool :=
  { p with
    caches := p.caches.map fun cache => { cache with kept := [] }
    reserved := p.reserved - p.cachedBytes }

/--
The pool with its caches emptied if a fresh stack of that many bytes would not
fit otherwise.
-/
def makeRoom (p : Pool) (bytes : Nat) : Pool :=
  if p.fits bytes then p else p.trim

def grant (p : Pool) (c : SizeClass) : Stack × Pool :=
  (.fresh p.allocated c,
    { p with
      allocated := p.allocated + 1
      inUse := p.inUse + 1
      reserved := p.reserved + c.size })

/--
Hands out a stack of the given class: the one cached last, or else a fresh one,
which needs both the budget and the allocator to agree.
-/
def allocate (p : Pool) (granted : Bool) (c : SizeClass) : Option Stack × Pool :=
  match (p.cache c).kept with
  | stack :: rest =>
      (some stack, { p.setCache c { p.cache c with kept := rest } with inUse := p.inUse + 1 })
  | [] =>
      let p := p.makeRoom c.size
      if p.fits c.size && granted then
        let (stack, p) := p.grant c
        (some stack, p)
      else
        (none, p)

def allocateBytes (p : Pool) (granted : Bool) (bytes : Nat) : Except Shortage Stack × Pool :=
  match SizeClass.holding? bytes with
  | none => (.error (.stackTooLarge bytes), p)
  | some c =>
      match p.allocate granted c with
      | (some stack, p) => (.ok stack, p)
      | (none, p) => (.error (.stack bytes), p)

/--
Takes a stack back.  It is cached, or given to the allocator if the cache cannot
grow.
-/
def release (p : Pool) (g : Growth) (stack : Stack) : Pool :=
  let cache := p.cache stack.sizeClass
  let p := { p with inUse := p.inUse - 1, deallocated := p.deallocated + 1 }
  match g.reserve cache.kept.length cache.room 1 with
  | some room => p.setCache stack.sizeClass ⟨stack :: cache.kept, room⟩
  | none => { p with reserved := p.reserved - stack.size }

/-!
# Expectations

Counts are natural numbers, so lowering one below zero would go unnoticed.
-/

def trimFaults (p : Pool) : List Fault :=
  Fault.reservedBytes.unless (p.cachedBytes ≤ p.reserved)

def allocateFaults (p : Pool) (c : SizeClass) : List Fault :=
  if (p.cache c).kept.isEmpty && !p.fits c.size then p.trimFaults else []

def allocateBytesFaults (p : Pool) (bytes : Nat) : List Fault :=
  match SizeClass.holding? bytes with
  | none => []
  | some c => p.allocateFaults c

def releaseFaults (p : Pool) (g : Growth) (stack : Stack) : List Fault :=
  let cache := p.cache stack.sizeClass
  Fault.inUseCount.unless (0 < p.inUse) ++
    Fault.reservedBytes.unless
      ((g.reserve cache.kept.length cache.room 1).isSome || stack.size ≤ p.reserved)

/-!
# Caches by class
-/

@[simp] theorem cache_setCache_same (p : Pool) (c : SizeClass) (cache : Cache) :
    (p.setCache c cache).cache c = cache := by
  simp [Pool.cache, setCache]

theorem cache_setCache_of_ne (p : Pool) {c d : SizeClass} (cache : Cache) (h : d ≠ c) :
    (p.setCache c cache).cache d = p.cache d := by
  have hne : (c.index : Nat) ≠ d.index := fun e =>
    h (SizeClass.index_inj.mp (Fin.ext e.symm))
  simp [Pool.cache, setCache, hne]

@[simp] theorem cache_trim (p : Pool) (c : SizeClass) :
    p.trim.cache c = { p.cache c with kept := [] } := by
  simp [Pool.cache, trim]

end Pool

end Coop
