import BoardSupport.Config.Error
import BoardSupport.Text.Fields
import BoardSupport.Text.Hex

/-!
# Blocks of the Configuration

A request can ask for a part of the configuration by its offset and width,
both written in base sixteen. A request that gives neither asks for all of it;
one that gives only one of them makes no sense. Where a field is given more
than once, the last one counts, but every one has to be a number.

The block of a request is any pair of 64-bit numbers. Whether it lies within
the configuration is a separate question, answered without wrapping around.

## Main definitions

* `Config.Block`: An offset and a width.
* `Config.Block.parse`: The block a request asks for.
* `Config.Block.within`: The part of a given size that a block covers.
-/

namespace BoardSupport

namespace Config

/-- A run of bytes. -/
structure Block where
  offset : UInt64
  width : UInt64
  deriving DecidableEq, Repr

/-- A run of bytes that lies within a given size. -/
structure Span (size : Nat) where
  start : Nat
  stop : Nat
  start_le_stop : start ≤ stop
  stop_le_size : stop ≤ size
  deriving DecidableEq, Repr

/-- The number of bytes in the run. -/
def Span.length {size : Nat} (s : Span size) : Nat :=
  s.stop - s.start

namespace Block

/-- The block that is the whole image. -/
def whole : Block :=
  ⟨0, UInt64.ofNat maxCpus⟩

/-- The number a field's value denotes, if it is one and fits in 64 bits. -/
def number (value : List Char) : Except Error UInt64 :=
  match Hex.value? value with
  | none => .error .malformedRequest
  | some n => if n < UInt64.size then .ok (UInt64.ofNat n) else .error .malformedRequest

/-- Go through the fields of a request, keeping the offset and the width given
    last. -/
def readFields (offset width : Option UInt64) :
    List Text.Field → Except Error (Option UInt64 × Option UInt64)
  | [] => .ok (offset, width)
  | f :: rest =>
    if f.key = "OFFSET".toList then
      match number f.value with
      | .error cause => .error cause
      | .ok n => readFields (some n) width rest
    else if f.key = "WIDTH".toList then
      match number f.value with
      | .error cause => .error cause
      | .ok n => readFields offset (some n) rest
    else
      readFields offset width rest

/-- The block a request asks for. -/
def parse (request : String) : Except Error Block :=
  match readFields none none (Text.fields request) with
  | .error cause => .error cause
  | .ok (some offset, some width) => .ok ⟨offset, width⟩
  | .ok (none, none) => .ok whole
  | .ok _ => .error .malformedRequest

/-- The bytes of a block, if they all lie within `size`. -/
def within (b : Block) (size : Nat) : Except Error (Span size) :=
  if h : b.offset.toNat + b.width.toNat ≤ size then
    .ok ⟨b.offset.toNat, b.offset.toNat + b.width.toNat, Nat.le_add_right _ _, h⟩
  else
    .error (.blockOutOfRange b.offset.toNat b.width.toNat)

/-- The block as the fields of a request. -/
def display (b : Block) : String :=
  s!"OFFSET={Hex.upper b.offset.toNat}&WIDTH={Hex.spell .upper 16 b.width.toNat}"

/-- The block with its fields named. -/
def debug (b : Block) : String :=
  s!"BlockRequest \x7b offset: {b.offset.toNat}, width: {b.width.toNat} \x7d"

end Block

end Config

end BoardSupport
