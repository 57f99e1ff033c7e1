/-!
# Masking interrupts

A processor has one flag that says whether interrupts are taken.  A guard turns
it off for a critical section: it remembers whether the flag was on, and turns
it on again when it is dropped only if it was.  A processor that cannot mask
interrupts takes them always; its guards remember that and change nothing.
-/

namespace Coop

/-- The interrupt flag of a processor, and how often it was asked to change it. -/
structure Cpu where
  /-- Whether the flag can be turned off at all. -/
  maskable : Bool := true
  enabled : Bool := true
  enables : Nat := 0
  disables : Nat := 0
  deriving DecidableEq, Repr

namespace Cpu

def enable (c : Cpu) : Cpu :=
  { c with enabled := true, enables := c.enables + 1 }

def disable (c : Cpu) : Cpu :=
  { c with enabled := !c.maskable && c.enabled, disables := c.disables + 1 }

theorem enabled_disable {c : Cpu} (hmaskable : c.maskable = true) : c.disable.enabled = false := by
  simp [disable, hmaskable]

end Cpu

/-- What a guard remembers: whether the flag was on when it was created. -/
structure Guard where
  wasEnabled : Bool
  deriving DecidableEq, Repr

namespace Guard

def create (c : Cpu) : Guard × Cpu :=
  (⟨c.enabled⟩, c.disable)

def drop (g : Guard) (c : Cpu) : Cpu :=
  if g.wasEnabled then c.enable else c

theorem maskable_drop (guard : Guard) (c : Cpu) : (guard.drop c).maskable = c.maskable := by
  unfold drop
  split <;> rfl

theorem enabled_drop (guard : Guard) (c : Cpu) :
    (guard.drop c).enabled = (guard.wasEnabled || c.enabled) := by
  unfold drop
  cases guard.wasEnabled <;> rfl

theorem maskable_dropAll (guards : List Guard) (c : Cpu) :
    (guards.foldl (fun cpu (guard : Guard) => guard.drop cpu) c).maskable = c.maskable := by
  induction guards generalizing c with
  | nil => rfl
  | cons guard rest ih => exact (ih (guard.drop c)).trans (maskable_drop guard c)

end Guard

end Coop
