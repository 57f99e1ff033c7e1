import Coop.Interrupt.Guard
import Coop.Machine.Program

/-!
# Suspended threads

A thread that gave up the processor leaves a frame behind, which says how it
goes on.  A thread that never ran has none.
-/

namespace Coop

open Thread (Id)

/-- Who made a call, and so who is answered. -/
inductive Caller (σ : Type) where
  | code (state : σ)
  /-- An attempt to take a mutex failed, and another one follows. -/
  | locking (m : Nat) (state : σ)
  | idle
  deriving DecidableEq, Repr

/-- How a suspended thread goes on. -/
structure Frame (σ : Type) where
  guards : List Guard
  locks : List Nat
  /-- The guard of the call that gave up the processor. -/
  guard : Guard
  resume : Resume
  caller : Caller σ
  deriving DecidableEq, Repr

structure Frames (σ : Type) where
  entries : List (Id × Frame σ) := []
  deriving DecidableEq, Repr

namespace Frames

variable {σ : Type}

def get? (f : Frames σ) (id : Id) : Option (Frame σ) :=
  f.entries.lookup id

def erase (f : Frames σ) (id : Id) : Frames σ :=
  ⟨f.entries.filter fun entry => entry.1 != id⟩

def put (f : Frames σ) (id : Id) (frame : Frame σ) : Frames σ :=
  ⟨(id, frame) :: (f.erase id).entries⟩

theorem get?_erase (f : Frames σ) (id other : Id) :
    (f.erase id).get? other = if other = id then none else f.get? other := by
  obtain ⟨entries⟩ := f
  simp only [get?, erase]
  induction entries with
  | nil => simp
  | cons entry rest ih =>
      obtain ⟨key, frame⟩ := entry
      by_cases hkey : key = id
      · subst hkey
        by_cases ho : other = key
        · subst ho
          simpa using ih
        · have hne : (other == key) = false := by simpa using ho
          simpa [List.lookup_cons, hne, ho] using ih
      · by_cases ho : other = key
        · subst ho
          simp [hkey]
        · have hne : (other == key) = false := by simpa using ho
          simpa [List.lookup_cons, hkey, hne] using ih

theorem get?_put (f : Frames σ) (id other : Id) (frame : Frame σ) :
    (f.put id frame).get? other = if other = id then some frame else f.get? other := by
  have herase := get?_erase f id other
  simp only [get?] at herase
  by_cases h : other = id
  · simp [get?, put, h]
  · have hne : (other == id) = false := by simpa using h
    simp [get?, put, List.lookup_cons, hne, h, herase]

end Frames

end Coop
