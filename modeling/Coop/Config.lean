/-!
# Configuration

The limits a runtime is created with, and the settings that change them one at a
time.
-/

namespace Coop

structure Config where
  /-- Most threads alive at one time, the main thread included. -/
  maxThreads : Nat := 32
  /-- Stack size of a thread that asks for none, in bytes. -/
  defaultStackSize : Nat := 4096
  /-- Upper bound on the bytes held for stacks, in use or cached. -/
  stackBudget : Option Nat := none
  /-- Whether a known word at the low end of each stack reveals an overflow. -/
  stackCanary : Bool := true
  deriving DecidableEq, Repr

inductive Setting where
  | maxThreads (count : Nat)
  | defaultStackSize (bytes : Nat)
  | stackBudget (bytes : Nat)
  | stackCanary (on : Bool)
  deriving DecidableEq, Repr

namespace Config

def set (c : Config) : Setting → Config
  | .maxThreads count => { c with maxThreads := count }
  | .defaultStackSize bytes => { c with defaultStackSize := bytes }
  | .stackBudget bytes => { c with stackBudget := some bytes }
  | .stackCanary on => { c with stackCanary := on }

def ofSettings (settings : List Setting) : Config :=
  settings.foldl set {}

/-- The stack size meant by a request, where zero asks for the default. -/
def stackSize (c : Config) (requested : Nat) : Nat :=
  if requested = 0 then c.defaultStackSize else requested

end Config

end Coop
