import Std.Data.TreeMap
import BoardSupport.Bus

/-!
# Register Files

Storage that behaves like registers and nothing more.

A register map holds one 64-bit word per offset. Offsets are names here, not
positions: registers at neighbouring offsets never overlap, whatever width
they are accessed in. An access narrower than the word takes its low bits, and
a narrow write clears the bits above it. A register never stored to holds
zero.

A register file adds a log of the writes made to it, which is what a test of a
driver looks at. Presetting a register goes past the log.

## Main definitions

* `RegisterMap`: One 64-bit word per offset.
* `RegisterFile`: A register map with a log of writes.
* `RegisterFile.device`: A register file as a device.
-/

namespace BoardSupport

/-- One 64-bit word per offset, zero where nothing has been stored. -/
structure RegisterMap where
  words : Std.TreeMap Nat (BitVec 64)

namespace RegisterMap

/-- Every word is zero. -/
def empty : RegisterMap :=
  ⟨∅⟩

/-- The word at an offset. -/
def peek (m : RegisterMap) (offset : Nat) : BitVec 64 :=
  m.words.getD offset 0

/-- Replace the word at an offset. -/
def poke (m : RegisterMap) (offset : Nat) (word : BitVec 64) : RegisterMap :=
  ⟨m.words.insert offset word⟩

/-- Every register ever stored to with its word, by ascending offset. -/
def toList (m : RegisterMap) : List (Nat × BitVec 64) :=
  m.words.toList

@[simp] theorem peek_empty (offset : Nat) : empty.peek offset = 0 := by
  simp [peek, empty]

/-- A word just stored is read back, and no other offset is affected. -/
theorem peek_poke (m : RegisterMap) (offset other : Nat) (word : BitVec 64) :
    (m.poke offset word).peek other = if other = offset then word else m.peek other := by
  simp [peek, poke, Std.TreeMap.getD_insert, eq_comm (a := other)]

end RegisterMap

/-- A register map with the writes made to it, earliest first. -/
structure RegisterFile where
  registers : RegisterMap
  writes : List (Nat × BitVec 64)

namespace RegisterFile

/-- A file in which every register holds zero and nothing has been written. -/
def empty : RegisterFile :=
  ⟨.empty, []⟩

/-- Set a register without leaving a trace in the log. -/
def preset (f : RegisterFile) (offset : Nat) (word : BitVec 64) : RegisterFile :=
  { f with registers := f.registers.poke offset word }

/-- The word a register holds. -/
def peek (f : RegisterFile) (offset : Nat) : BitVec 64 :=
  f.registers.peek offset

/-- The words written to one offset, earliest first. -/
def writesTo (f : RegisterFile) (offset : Nat) : List (BitVec 64) :=
  (f.writes.filter fun w => w.1 == offset).map (·.2)

/-- Forget the writes made so far. -/
def clearLog (f : RegisterFile) : RegisterFile :=
  { f with writes := [] }

/-- Reads truncate the stored word, writes extend the value with zeros and are
    logged. -/
def device : Device RegisterFile where
  read bits offset f := ((f.peek offset).setWidth bits, f)
  write _ offset value f :=
    let word := value.setWidth 64
    ⟨f.registers.poke offset word, f.writes ++ [(offset, word)]⟩

end RegisterFile

end BoardSupport
