import BoardSupport.Text.Fields
import BoardSupport.Text.Hex

/-!
# Globally Unique Identifiers

Sixteen bytes that name a vendor. They are written in five groups of digits
joined by hyphens; the first three groups are numbers kept lowest byte first,
so their bytes appear in reverse.

## Main definitions

* `Guid`: Sixteen bytes.
* `Guid.display`: The written form.
* `Guid.ofText?`: Reading the written form.
-/

namespace BoardSupport

/-- The sixteen bytes of an identifier, in the order they have in memory. -/
structure Guid where
  bytes : Vector UInt8 16
  deriving DecidableEq, Repr

namespace Guid

/-- Where the bytes of the written form lie in memory, group by group. -/
def groups : List (List Nat) :=
  [[3, 2, 1, 0], [5, 4], [7, 6], [8, 9], [10, 11, 12, 13, 14, 15]]

/-- The identifier in five groups of lower-case digits. -/
def display (g : Guid) : String :=
  "-".intercalate (groups.map fun group =>
    Hex.bytes (group.map fun i => g.bytes[i]?.getD 0))

/-- The identifier a written form denotes, in either letter case. -/
def ofText? (text : String) : Option Guid := do
  let parts := Text.split '-' text.toList
  if parts.length ≠ groups.length then
    none
  else
    let read ← (parts.zip groups).mapM fun (part, group) => do
      let value ← Hex.value? part
      if part.length ≠ 2 * group.length then
        none
      else
        pure (group.zip ((List.range group.length).reverse.map fun place =>
          UInt8.ofNat ((value >>> (8 * place)) % 256)))
    pure ⟨Vector.ofFn fun i => (read.flatten.lookup i.val).getD 0⟩

end Guid

end BoardSupport
