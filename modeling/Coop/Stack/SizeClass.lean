/-!
# Size classes of stacks

Stacks come in five sizes.  A request is served by the smallest class that holds
it.
-/

namespace Coop

inductive SizeClass where
  | tiny
  | small
  | medium
  | large
  | extraLarge
  deriving DecidableEq, Repr

namespace SizeClass

def all : List SizeClass :=
  [tiny, small, medium, large, extraLarge]

def size : SizeClass → Nat
  | tiny => 1024
  | small => 4096
  | medium => 16384
  | large => 65536
  | extraLarge => 262144

def label : SizeClass → String
  | tiny => "Tiny"
  | small => "Small"
  | medium => "Medium"
  | large => "Large"
  | extraLarge => "ExtraLarge"

def index : SizeClass → Fin 5
  | tiny => 0
  | small => 1
  | medium => 2
  | large => 3
  | extraLarge => 4

/-- The smallest class that holds the given number of bytes. -/
def holding? (bytes : Nat) : Option SizeClass :=
  all.find? fun c => bytes ≤ c.size

theorem mem_all (c : SizeClass) : c ∈ all := by
  cases c <;> simp [all]

theorem index_inj {c d : SizeClass} : c.index = d.index ↔ c = d := by
  cases c <;> cases d <;> decide

theorem le_size_of_holding? {bytes : Nat} {c : SizeClass} (h : holding? bytes = some c) :
    bytes ≤ c.size := by
  simpa using List.find?_some h

theorem size_le_of_holding? {bytes : Nat} {c d : SizeClass} (h : holding? bytes = some c)
    (hd : bytes ≤ d.size) : c.size ≤ d.size := by
  simp only [holding?, all, List.find?_cons, List.find?_nil] at h
  cases d <;> (simp only [size] at *; grind)

theorem holding?_eq_none_iff {bytes : Nat} : holding? bytes = none ↔ extraLarge.size < bytes := by
  constructor
  · intro h
    have := List.find?_eq_none.mp h extraLarge (mem_all _)
    simpa using this
  · intro h
    refine List.find?_eq_none.mpr fun c _ => ?_
    have : c.size ≤ extraLarge.size := by cases c <;> decide
    simp
    omega

end SizeClass

end Coop
