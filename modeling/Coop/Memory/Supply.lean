/-!
# Supply of memory

Memory may run short at any request, and nothing in the library assumes that it
does not.  A `Growth` says what the allocator answers when a list has to grow,
and a `Supply` collects the answers one operation will get.  Every operation
that may need memory takes its supply as an argument, so a statement about all
supplies covers refusals at every point.

A growable list is described by its length and its room: the room is what it can
hold before it has to grow again.  Room never shrinks.
-/

namespace Coop

/-- The allocator's answer to a list that has to grow. -/
inductive Growth where
  | refused
  /-- Just enough for what was asked, and `spare` places more. -/
  | exact (spare : Nat)
  /-- At least twice the room there was, and never fewer than four places. -/
  | doubling
  deriving DecidableEq, Repr

namespace Growth

/--
The room of a list of the given length after place was made for `more` elements,
or nothing if the list had to grow and was refused.
-/
def reserve (g : Growth) (length room more : Nat) : Option Nat :=
  if length + more ≤ room then
    some room
  else
    match g with
    | refused => none
    | exact spare => some (length + more + spare)
    | doubling => some (max 4 (max (2 * room) (length + more)))

theorem le_of_reserve {g : Growth} {length room more room' : Nat}
    (h : g.reserve length room more = some room') : length + more ≤ room' := by
  unfold reserve at h
  split at h
  · simp_all
  · cases g <;> simp at h <;> omega

theorem room_le_of_reserve {g : Growth} {length room more room' : Nat}
    (h : g.reserve length room more = some room') : room ≤ room' := by
  unfold reserve at h
  split at h
  · simp_all
  · cases g <;> simp at h <;> omega

theorem reserve_eq_none_iff {g : Growth} {length room more : Nat} :
    g.reserve length room more = none ↔ room < length + more ∧ g = refused := by
  unfold reserve
  split
  · simp; omega
  · cases g with
    | refused =>
        simp
        omega
    | exact spare => simp
    | doubling => simp

end Growth

/-- The allocator's answers during one operation. -/
structure Supply where
  /-- Whether fresh memory for a stack is granted. -/
  stack : Bool := true
  slots : Growth := .doubling
  /-- Growth of the table's list of vacant slots. -/
  vacant : Growth := .doubling
  /-- Growth of a cache of returned stacks. -/
  cache : Growth := .doubling
  deriving DecidableEq, Repr

namespace Supply

/-- The supply that never refuses. -/
def ample : Supply := {}

end Supply

end Coop
