import BoardSupport.Config.Error
import BoardSupport.Text.Fields
import BoardSupport.Text.Hex

/-!
# Whom a Request Is Addressed To

A request names the variable it is about by vendor and name. The vendor's
bytes are spelled with two digits each; the name is spelled with four digits
for each of its UTF-16 units. Letter case does not matter. A request has to
name the vendor, and may leave out the name.

## Main definitions

* `Config.variable`: The variable that holds the configuration.
* `Config.Header.display`: The header of a request for it.
* `Config.Header.isAddressed`: Whether a request is about it.
-/

namespace BoardSupport

namespace Config

/-- The vendor of the configuration variable. -/
def vendor : Guid where
  bytes := #v[0xd5, 0x37, 0x76, 0xf9, 0x25, 0xa7, 0xbd, 0x4d,
    0xa1, 0x80, 0xd9, 0x55, 0x49, 0x20, 0x54, 0x5d]

/-- The name of the configuration variable. -/
def variableName : String := "PlatformConfig"

/-- The variable that holds the configuration. -/
def variableId : VariableId :=
  ⟨vendor, variableName⟩

/-- The configuration is kept over reboots and is out of reach once the
    operating system runs. -/
def attributes : UInt32 := 3

/-- The number by which forms refer to the configuration. -/
def varstoreId : Nat := 0x1234

namespace Header

/-- The numbers the vendor is spelled by: its bytes. -/
def vendorCodes : List Nat :=
  vendor.bytes.toList.map (·.toNat)

/-- The numbers the name is spelled by: its UTF-16 units, which for a name in
    ASCII are its characters. -/
def nameCodes : List Nat :=
  variableName.toList.map (·.toNat)

/-- Numbers spelled one after another with a fixed count of digits each. -/
def spell (width : Nat) (codes : List Nat) : String :=
  String.join (codes.map (Hex.spell .lower width))

/-- Whether `spelling` spells exactly these numbers with `width` digits each, in
    either letter case. -/
def spells (width : Nat) : (codes : List Nat) → (spelling : List Char) → Bool
  | [], spelling => spelling.isEmpty
  | code :: codes, spelling =>
    (spelling.take width).length == width && Hex.value? (spelling.take width) == some code &&
      spells width codes (spelling.drop width)

/-- The header of a request for the configuration. -/
def display : String :=
  s!"GUID={spell 2 vendorCodes}&NAME={spell 4 nameCodes}"

/-- Go through the fields of a request: the vendor and the name given last
    decide. -/
def readFields (vendorMatches nameMatches : Bool) : List Text.Field → Bool
  | [] => vendorMatches && nameMatches
  | f :: rest =>
    if f.key = "GUID".toList then
      readFields (spells 2 vendorCodes f.value) nameMatches rest
    else if f.key = "NAME".toList then
      readFields vendorMatches (spells 4 nameCodes f.value) rest
    else
      readFields vendorMatches nameMatches rest

/-- Whether a request is about the configuration. -/
def isAddressed (request : String) : Bool :=
  readFields false true (Text.fields request)

/-- Refuse a request that is not about the configuration. -/
def check (request : String) : Except Error Unit :=
  if isAddressed request then .ok () else .error .headerMismatch

end Header

end Config

end BoardSupport
