/-!
# Interrupt lines

There are thirty-two interrupt lines.  An interrupt flags word has one bit for
each of them.
-/

namespace Coop

abbrev Line := Fin 32

/-- An interrupt flags word: the set of lines whose bit is on. -/
abbrev Mask := BitVec 32

namespace Line

def ofNat? (n : Nat) : Option Line :=
  if h : n < 32 then some ⟨n, h⟩ else none

def all : List Line :=
  List.finRange 32

def mask (line : Line) : Mask :=
  BitVec.twoPow 32 line

def label (line : Line) : String :=
  s!"IRQ{line.val}"

theorem mem_all (line : Line) : line ∈ all :=
  List.mem_finRange line

end Line

namespace Mask

def has (mask : Mask) (line : Line) : Bool :=
  mask.getLsbD line

/-- The lines a word selects, lowest first. -/
def lines (mask : Mask) : List Line :=
  Line.all.filter fun line => has mask line

theorem mem_lines {mask : Mask} {line : Line} : line ∈ lines mask ↔ has mask line = true := by
  simp [lines, Line.mem_all]

theorem has_or (mask other : Mask) (line : Line) :
    has (mask ||| other) line = (has mask line || has other line) := by
  simp [has]

end Mask

end Coop
