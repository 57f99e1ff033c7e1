import Coop.Stack.SizeClass

/-!
# Stacks and their contents

A stack is a block of memory of one size class.  Fresh memory is all zero, and
memory that comes back from a cache keeps its bytes.  The lowest eight bytes of
a stack form its word.  A known word put there when a stack is handed out is a
canary: a thread that runs over the end of its stack destroys it.
-/

namespace Coop

/--
The contents of a block of memory: the bytes written so far by their offset from
the lowest address.  Any other byte is zero.
-/
structure Memory where
  written : List (Nat × UInt8)
  deriving DecidableEq, Repr

namespace Memory

def zero : Memory := ⟨[]⟩

def read (m : Memory) (offset : Nat) : UInt8 :=
  (m.written.lookup offset).getD 0

def write (m : Memory) (offset : Nat) (byte : UInt8) : Memory :=
  ⟨(offset, byte) :: m.written.filter fun entry => entry.1 != offset⟩

def word (m : Memory) : List UInt8 :=
  (List.range 8).map m.read

/-- The eight bytes of a number below `2 ^ 64`, least significant first. -/
def wordOf (value : Nat) : List UInt8 :=
  (List.range 8).map fun i => UInt8.ofNat (value >>> (8 * i))

def hexDigits (byte : UInt8) : List Char :=
  [Nat.digitChar (byte.toNat / 16), Nat.digitChar (byte.toNat % 16)]

/-- A word as a number in hexadecimal digits, so its last byte comes first. -/
def wordText (word : List UInt8) : String :=
  String.ofList (word.reverse.flatMap hexDigits)

def writeWord (m : Memory) (value : Nat) : Memory :=
  (wordOf value).zipIdx.foldl (fun m entry => m.write entry.2 entry.1) m

/-!
# What reading sees

A write is seen at its own offset and nowhere else, so a word reads back as it
was written.
-/

theorem lookup_filter_ne (entries : List (Nat × UInt8)) {offset other : Nat} (h : other ≠ offset) :
    (entries.filter fun entry => entry.1 != offset).lookup other = entries.lookup other := by
  induction entries with
  | nil => rfl
  | cons entry rest ih =>
      obtain ⟨at', byte⟩ := entry
      by_cases hat : at' = offset
      · subst hat
        have hne : (other == at') = false := by simpa using h
        simp [List.lookup_cons, hne, ih]
      · simp [hat, List.lookup_cons, ih]

theorem read_write (m : Memory) (offset other : Nat) (byte : UInt8) :
    (m.write offset byte).read other = if other = offset then byte else m.read other := by
  by_cases h : other = offset
  · simp [read, write, h]
  · have hne : (other == offset) = false := by simpa using h
    simp [read, write, List.lookup_cons, hne, h, lookup_filter_ne m.written h]

@[simp] theorem read_write_same (m : Memory) (offset : Nat) (byte : UInt8) :
    (m.write offset byte).read offset = byte := by
  simp [read_write]

theorem read_write_of_ne (m : Memory) {offset other : Nat} (byte : UInt8) (h : other ≠ offset) :
    (m.write offset byte).read other = m.read other := by
  simp [read_write, h]

@[simp] theorem word_writeWord (m : Memory) (value : Nat) :
    (m.writeWord value).word = wordOf value := by
  simp [word, writeWord, wordOf, List.range_succ, read_write]

end Memory

structure Stack where
  /-- Fresh stacks are numbered in the order in which the allocator granted them. -/
  serial : Nat
  sizeClass : SizeClass
  memory : Memory
  deriving DecidableEq, Repr

namespace Stack

/-- The word that shows a stack was not overrun. -/
def canary : Nat := 0xDEADBEEFCAFEBABE

def size (s : Stack) : Nat :=
  s.sizeClass.size

def fresh (serial : Nat) (sizeClass : SizeClass) : Stack :=
  ⟨serial, sizeClass, .zero⟩

def word (s : Stack) : List UInt8 :=
  s.memory.word

def install (s : Stack) (value : Nat) : Stack :=
  { s with memory := s.memory.writeWord value }

def holds (s : Stack) (value : Nat) : Bool :=
  s.word == Memory.wordOf value

def guarded (s : Stack) : Stack :=
  s.install canary

def isIntact (s : Stack) : Bool :=
  s.holds canary

/-- Writes one byte, or nothing if the offset is outside the stack. -/
def poke? (s : Stack) (offset : Nat) (byte : UInt8) : Option Stack :=
  if offset < s.size then
    some { s with memory := s.memory.write offset byte }
  else
    none

def description (s : Stack) : String :=
  "Stack \x7b top: <ptr>, bottom: <ptr>, size_class: " ++ s.sizeClass.label ++ " \x7d"

end Stack

end Coop
