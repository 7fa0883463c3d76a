/-!
# Hexadecimal Numerals

Writing natural numbers in base sixteen, and reading them back.

Every diagnostic of this library prints addresses, register contents and
bytes in base sixteen, in one of three manners: bare, with leading zeros up
to a width, or behind a `0x` mark. Requests for configuration blocks are
written and read in the same base, so the reader lives beside the printer.

A numeral is worked out as a list of digit values, most significant first,
and only then spelled. Reading goes the other way and accepts either letter
case, any number of leading zeros, and nothing but ASCII digits.

## Main definitions

* `Hex.digits`: The digit values of a number, most significant first.
* `Hex.spell`: A numeral in a given letter case with a least width.
* `Hex.marked`: A lower-case numeral behind `0x`.
* `Hex.value?`: The number a numeral denotes.
-/

namespace BoardSupport

namespace Hex

/-- The two ways to write the digits ten to fifteen. -/
inductive Case where
  | lower
  | upper
  deriving DecidableEq, Repr

/-- The character of one digit value. -/
def digitChar (letters : Case) (d : Nat) : Char :=
  if d < 10 then
    Char.ofNat (48 + d)
  else
    match letters with
    | .lower => Char.ofNat (87 + d)
    | .upper => Char.ofNat (55 + d)

/-- The base-sixteen digits of a number, most significant first. Zero has the
    one digit zero. -/
def digits (n : Nat) : List Nat :=
  if n < 16 then [n] else digits (n / 16) ++ [n % 16]
termination_by n

/-- The numeral of `n` as characters, with leading zeros up to `width` digits.
    A number that needs more digits than that is written in full. -/
def spellChars (letters : Case) (width n : Nat) : List Char :=
  let ds := digits n
  List.replicate (width - ds.length) '0' ++ ds.map (digitChar letters)

/-- The numeral of `n`, with leading zeros up to `width` digits. -/
def spell (letters : Case) (width n : Nat) : String :=
  String.ofList (spellChars letters width n)

/-- The shortest lower-case numeral of `n`. -/
def lower (n : Nat) : String :=
  spell .lower 1 n

/-- The shortest upper-case numeral of `n`. -/
def upper (n : Nat) : String :=
  spell .upper 1 n

/-- The lower-case numeral of `n` behind `0x`, at least `width` digits long. -/
def marked (width n : Nat) : String :=
  "0x" ++ spell .lower width n

/-- The value of an ASCII hexadecimal digit of either case. -/
def digitValue? (c : Char) : Option Nat :=
  if '0' ≤ c ∧ c ≤ '9' then some (c.toNat - 48)
  else if 'a' ≤ c ∧ c ≤ 'f' then some (c.toNat - 87)
  else if 'A' ≤ c ∧ c ≤ 'F' then some (c.toNat - 55)
  else none

/-- Read on from a value already read: each digit shifts it by one place. -/
def continueValue? (read : Nat) : List Char → Option Nat
  | [] => some read
  | c :: rest =>
    match digitValue? c with
    | none => none
    | some d => continueValue? (16 * read + d) rest

/-- The number a non-empty string of hexadecimal digits denotes. -/
def value? : List Char → Option Nat
  | [] => none
  | c :: rest => continueValue? 0 (c :: rest)

/-- Bytes as two lower-case digits each, with nothing between them. -/
def bytes (bs : List UInt8) : String :=
  String.join (bs.map fun b => spell .lower 2 b.toNat)

/-- Bytes as a bracketed list of two-digit numerals. -/
def byteList (bs : List UInt8) : String :=
  "[" ++ ", ".intercalate (bs.map fun b => spell .lower 2 b.toNat) ++ "]"

end Hex

end BoardSupport
