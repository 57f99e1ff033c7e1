/-!
# Threads: identity, state and flags
-/

namespace Coop
namespace Thread

/-- Thread identifiers count from one, and none is ever used twice. -/
abbrev Id := Nat

namespace Id

def ofNat? (n : Nat) : Option Id :=
  if n = 0 then none else some n

end Id

/--
A reference to a thread.  It is a plain value that may outlive the thread: it
resolves only while the slot holds a control block with this identifier.
-/
structure Handle where
  slot : Nat
  id : Id
  deriving DecidableEq, Repr

inductive State where
  | ready
  | running
  | blockedOnInterrupt
  | blockedOnJoin
  /-- Finished, and not reclaimed yet. -/
  | exited
  deriving DecidableEq, Repr

namespace State

def label : State → String
  | ready => "Ready"
  | running => "Running"
  | blockedOnInterrupt => "BlockedOnInterrupt"
  | blockedOnJoin => "BlockedOnJoin"
  | exited => "Exited"

def ofLabel? (label : String) : Option State :=
  [ready, running, blockedOnInterrupt, blockedOnJoin, exited].find? fun s => s.label = label

def number : State → Nat
  | ready => 0
  | running => 1
  | blockedOnInterrupt => 2
  | blockedOnJoin => 3
  | exited => 4

def isRunnable : State → Bool
  | ready | running => true
  | _ => false

def isBlocked : State → Bool
  | blockedOnInterrupt | blockedOnJoin => true
  | _ => false

end State

/-- The flags of a thread, and equally a choice among them. -/
structure Flags where
  /-- The thread is reclaimed when it exits, and cannot be joined. -/
  detached : Bool := false
  waiting : Bool := false
  deriving DecidableEq, Repr

namespace Flags

def both : Flags := ⟨true, true⟩

def bits (f : Flags) : Nat :=
  (if f.detached then 1 else 0) + (if f.waiting then 2 else 0)

def insert (f choice : Flags) : Flags :=
  ⟨f.detached || choice.detached, f.waiting || choice.waiting⟩

def remove (f choice : Flags) : Flags :=
  ⟨f.detached && !choice.detached, f.waiting && !choice.waiting⟩

def toggle (f choice : Flags) : Flags :=
  ⟨f.detached ^^ choice.detached, f.waiting ^^ choice.waiting⟩

def set (f choice : Flags) (on : Bool) : Flags :=
  if on then f.insert choice else f.remove choice

def contains (f choice : Flags) : Bool :=
  (f.detached || !choice.detached) && (f.waiting || !choice.waiting)

inductive Change where
  | insert
  | remove
  | toggle
  | set (on : Bool)
  deriving DecidableEq, Repr

def change (f choice : Flags) : Change → Flags
  | .insert => f.insert choice
  | .remove => f.remove choice
  | .toggle => f.toggle choice
  | .set on => f.set choice on

end Flags

structure Spec where
  /-- Zero asks for the configured default. -/
  stackSize : Nat := 0
  detached : Bool := false
  name : Option String := none
  deriving DecidableEq, Repr

end Thread
end Coop
