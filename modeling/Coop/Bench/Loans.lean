import Coop.Stack.Pool

/-!
# A pool of stacks on the bench

Stacks that were handed out are numbered in the order in which they were
obtained, and each is held until it is returned or dropped.
-/

namespace Coop
namespace Bench

/-- A pool and the stacks it handed out; a stack that is gone leaves a gap. -/
structure Loans where
  pool : Pool
  lent : Array (Option Stack) := #[]
  deriving DecidableEq, Repr

inductive StackStep where
  | free (growth : Growth)
  /-- Lets go of the stack without telling the pool. -/
  | drop
  | install (value : Nat)
  | check (value : Nat)
  | poke (offset : Nat) (byte : UInt8)
  | word
  | describe
  deriving DecidableEq, Repr

inductive LoansStep where
  | allocateBytes (bytes : Nat) (granted : Bool)
  | allocate (c : SizeClass) (granted : Bool)
  | trim
  | onStack (k : Nat) (step : StackStep)
  deriving DecidableEq, Repr

inductive LoansResult where
  | done
  | stack (k : Nat) (stack : Stack)
  | unavailable
  | refused (cause : Shortage)
  | flag (b : Bool)
  | word (bytes : List UInt8)
  | text (s : String)
  /-- No stack of that number is held. -/
  | unknown
  deriving DecidableEq, Repr

namespace Loans

def hold (s : Loans) (pool : Pool) (stack : Stack) : LoansResult × Loans :=
  (.stack s.lent.size stack, { pool, lent := s.lent.push (some stack) })

def setStack (s : Loans) (k : Nat) (stack : Option Stack) : Loans :=
  { s with lent := s.lent.setIfInBounds k stack }

end Loans

def StackStep.perform (s : Loans) (k : Nat) (stack : Stack) : StackStep → LoansResult × Loans
  | free growth => (.done, { s.setStack k none with pool := s.pool.release growth stack })
  | drop => (.done, s.setStack k none)
  | install value => (.done, s.setStack k (some (stack.install value)))
  | check value => (.flag (stack.holds value), s)
  | poke offset byte =>
      match stack.poke? offset byte with
      | none => (.flag false, s)
      | some stack => (.flag true, s.setStack k (some stack))
  | word => (.word stack.word, s)
  | describe => (.text stack.description, s)

def LoansStep.perform (s : Loans) : LoansStep → LoansResult × Loans
  | allocateBytes bytes granted =>
      match s.pool.allocateBytes granted bytes with
      | (.ok stack, pool) => s.hold pool stack
      | (.error cause, pool) => (.refused cause, { s with pool })
  | allocate c granted =>
      match s.pool.allocate granted c with
      | (some stack, pool) => s.hold pool stack
      | (none, pool) => (.unavailable, { s with pool })
  | trim => (.done, { s with pool := s.pool.trim })
  | onStack k step =>
      match s.lent[k]?.join with
      | none => (.unknown, s)
      | some stack => step.perform s k stack

end Bench
end Coop
