import BoardSupport.Text.Hex

/-!
# Physical Addresses

Addresses on a 64-bit physical bus.

An address is a number with a fixed spelling: `0x` and sixteen upper-case
digits. Sums that would leave the address space have no value; nothing here
wraps around.

## Main definitions

* `PhysicalAddress`: A 64-bit address.
* `PhysicalAddress.add?`: The address a distance further up, if there is one.
* `PhysicalAddress.offsetFrom?`: The distance from a lower address.
* `PhysicalAddress.isAligned?`: Whether an address is a multiple of a power of
  two.
-/

namespace BoardSupport

/-- A 64-bit physical address. -/
structure PhysicalAddress where
  value : UInt64
  deriving DecidableEq, Repr

namespace PhysicalAddress

instance : Inhabited PhysicalAddress := ⟨⟨0⟩⟩

/-- The address `distance` further up, unless that leaves the address space. -/
def add? (a : PhysicalAddress) (distance : UInt64) : Option PhysicalAddress :=
  if a.value.toNat + distance.toNat < UInt64.size then some ⟨a.value + distance⟩ else none

/-- How far `a` lies above `base`; nothing if it lies below. -/
def offsetFrom? (a base : PhysicalAddress) : Option UInt64 :=
  if base.value ≤ a.value then some (a.value - base.value) else none

/-- Whether exactly one bit of `n` is set. -/
def isPowerOfTwo (n : UInt64) : Bool :=
  n != 0 && n &&& (n - 1) == 0

/-- Whether the address is a multiple of `alignment`. The question makes sense
    for powers of two only. -/
def isAligned? (a : PhysicalAddress) (alignment : UInt64) : Option Bool :=
  if isPowerOfTwo alignment then some (a.value &&& (alignment - 1) == 0) else none

/-- Addresses are ordered as numbers. -/
def compare (a b : PhysicalAddress) : Ordering :=
  Ord.compare a.value b.value

/-- The one spelling of an address: `0x` and sixteen upper-case digits. -/
def display (a : PhysicalAddress) : String :=
  "0x" ++ Hex.spell .upper 16 a.value.toNat

/-- The spelling of an address inside a larger value. -/
def debug (a : PhysicalAddress) : String :=
  s!"PhysicalAddress({a.display})"

end PhysicalAddress

end BoardSupport
