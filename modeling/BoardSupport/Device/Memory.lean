import Std.Data.TreeMap
import BoardSupport.Bus

/-!
# Memory Windows

Registers that are plain memory: bytes at addresses, wider words in
little-endian order.

Unlike registers named by offset, words in memory overlap: a wide word is made
of the bytes at its address and after it, lowest first.

## Main definitions

* `Memory`: A byte per address.
* `Memory.load`, `Memory.store`: Words made of consecutive bytes.
* `Memory.device`: A memory window as a device.
-/

namespace BoardSupport

/-- A byte per address, zero where nothing has been stored. -/
structure Memory where
  bytes : Std.TreeMap Nat UInt8

namespace Memory

/-- Every byte is zero. -/
def zeroed : Memory :=
  ⟨∅⟩

/-- The byte at an address. -/
def byte (m : Memory) (address : Nat) : UInt8 :=
  m.bytes.getD address 0

/-- Replace the byte at an address. -/
def setByte (m : Memory) (address : Nat) (value : UInt8) : Memory :=
  ⟨m.bytes.insert address value⟩

/-- The number made of `count` bytes from an address on, lowest first. -/
def load (m : Memory) : (count address : Nat) → Nat
  | 0, _ => 0
  | count + 1, address => (m.byte address).toNat + 256 * m.load count (address + 1)

/-- Store the low `count` bytes of a number from an address on, lowest first. -/
def store : (count address n : Nat) → Memory → Memory
  | 0, _, _, m => m
  | count + 1, address, n, m =>
    store count (address + 1) (n / 256) (m.setByte address (UInt8.ofNat (n % 256)))

/-- Every byte that is not zero with its address, ascending. -/
def nonZero (m : Memory) : List (Nat × UInt8) :=
  m.bytes.toList.filter fun b => b.2 != 0

/-- Every access takes as many bytes as fit in its width. -/
def device : Device Memory where
  read bits offset m := (BitVec.ofNat bits (m.load (bits / 8) offset), m)
  write bits offset value m := m.store (bits / 8) offset value.toNat

@[simp] theorem byte_zeroed (address : Nat) : zeroed.byte address = 0 := by
  simp [byte, zeroed]

/-- A byte just stored is read back, and no other address is affected. -/
theorem byte_setByte (m : Memory) (address other : Nat) (value : UInt8) :
    (m.setByte address value).byte other =
      if other = address then value else m.byte other := by
  simp [byte, setByte, Std.TreeMap.getD_insert, eq_comm (a := other)]

end Memory

end BoardSupport
