import Coop.System.Basic

/-!
# Thread code

The code of a thread is a machine of its own: given the memory all threads
share, its own state, and the response to what it asked for last, it takes a
turn and asks for something else.  It may leave notes for whoever watches the
run.
-/

namespace Coop

open Thread (Handle Id)

inductive Body (σ : Type) where
  | code (start : σ)
  /-- Yields for ever, and halts the processor whenever no other thread is ready. -/
  | idle
  deriving DecidableEq, Repr

inductive Ask (σ : Type) (δ : Type := Int32) where
  | call (c : Call (Body σ))
  /-- Creates an interrupt guard, which the thread holds until it drops it. -/
  | mask
  /-- Drops the guard created last. -/
  | unmask
  | setInterrupts (on : Bool)
  | interruptsEnabled
  /-- Halts the processor until the next interrupt, in a critical section. -/
  | halt
  /-- Takes a mutex, yielding after each attempt that fails. -/
  | lock (m : Nat)
  | tryLock (m : Nat)
  | unlock (m : Nat)
  | isLocked (m : Nat)
  | update (m : Nat) (f : δ → δ)
  | pause
  /-- The body returns, and its value is the exit code. -/
  | finish (code : Int32)
  | panic (p : Panic)

inductive Response (δ : Type := Int32) where
  | started
  | done
  | flag (b : Bool)
  | count (n : Nat)
  | called (r : Except Error Reply)
  | locked (data : δ)
  | busy
  | data (value : δ)
  | notHeld
  | noSuchMutex
  /-- The processor cannot be halted with interrupts off. -/
  | masked

structure Turn (μ σ ν : Type) (δ : Type := Int32) where
  memory : μ
  state : σ
  ask : Ask σ δ
  notes : List ν := []

/--
What surrounds the machine: the code its threads run, over shared memory `μ`,
thread states `σ`, notes `ν` and data `δ` of mutexes, and the allocator, which
answers each stage of each call as it pleases.
-/
structure World (μ σ ν : Type) (δ : Type := Int32) where
  turn : μ → σ → Response δ → Turn μ σ ν δ
  supply : Nat → Supply := fun _ => .ample

end Coop
