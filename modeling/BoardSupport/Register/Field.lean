/-!
# Fields of a Register Word

Registers pack several small values into one word. A field says where one of
them sits and what kind of value it is: a flag of one bit, a number, or one of
a few named choices. A layout is the list of a register's fields, lowest bit
first.

A number can be too large for its field. Writing one is refused; the word is
then left alone. A flag takes any non-zero number as set, and a choice is
taken by its low bits, so those two never refuse.

Drivers name the few fields they use; layouts list all of them, for decoding a
whole word.

## Main definitions

* `Register.Field`: The place and kind of one field.
* `Register.Field.get`: The contents of a field.
* `Register.Field.put`: A word with one field replaced.
* `Register.Field.put?`: The same, refusing numbers that do not fit.
* `Register.Layout`: All fields of a register.
* `Register.Layout.debug`: A word with its fields spelled out.
-/

namespace BoardSupport

namespace Register

/-- What a field holds. -/
inductive Kind where
  | flag
  | number
  | choice (names : List String)
  deriving DecidableEq, Repr

/-- A field `width` bits wide whose lowest bit is bit `offset` of the word. -/
structure Field where
  name : String
  offset : Nat
  width : Nat
  kind : Kind
  deriving DecidableEq, Repr

/-- A decoded field. -/
inductive Value where
  | flag (isSet : Bool)
  | number (n : Nat)
  | choice (name : String)
  deriving DecidableEq, Repr

/-- A field of one bit. -/
def flag (name : String) (offset : Nat) : Field :=
  ⟨name, offset, 1, .flag⟩

/-- A field that holds a number. -/
def number (name : String) (offset width : Nat) : Field :=
  ⟨name, offset, width, .number⟩

/-- A field that holds one of several named values, numbered from zero. -/
def choice (name : String) (offset width : Nat) (names : List String) : Field :=
  ⟨name, offset, width, .choice names⟩

namespace Field

variable {bits : Nat}

/-- The first number that is too large for the field. -/
def limit (f : Field) : Nat :=
  1 <<< f.width

/-- The bits of the word that belong to the field. -/
def mask (f : Field) (bits : Nat) : BitVec bits :=
  BitVec.ofNat bits (f.limit - 1) <<< f.offset

/-- The contents of the field as a number. -/
def get (f : Field) (word : BitVec bits) : Nat :=
  (word >>> f.offset).toNat % f.limit

/-- Whether the field is not zero. -/
def isSet (f : Field) (word : BitVec bits) : Bool :=
  f.get word != 0

/-- The word with the field replaced by the low bits of `value`. -/
def put (f : Field) (value : Nat) (word : BitVec bits) : BitVec bits :=
  (word &&& ~~~f.mask bits) ||| (BitVec.ofNat bits (value % f.limit) <<< f.offset)

/-- The contents that stand for a number: a flag is set by any number but zero,
    a choice is taken by its low bits, and a number that does not fit stands
    for nothing. -/
def contents? (f : Field) (value : Nat) : Option Nat :=
  match f.kind with
  | .flag => some (if value = 0 then 0 else 1)
  | .number => if value < f.limit then some value else none
  | .choice _ => some (value % f.limit)

/-- The word with the field replaced, unless the value does not fit. -/
def put? (f : Field) (value : Nat) (word : BitVec bits) : Option (BitVec bits) :=
  (f.contents? value).map fun contents => f.put contents word

/-- The decoded contents of the field. -/
def value (f : Field) (word : BitVec bits) : Value :=
  match f.kind with
  | .flag => .flag (f.isSet word)
  | .number => .number (f.get word)
  | .choice names => .choice (names.getD (f.get word) "")

end Field

/-- How a decoded field is written. -/
def Value.debug : Value → String
  | flag isSet => toString isSet
  | number n => toString n
  | choice name => name

/-- The fields cover a word from its bit `next` on, without gaps and lowest bit
    first. -/
def Field.cover (bits next : Nat) : List Field → Bool
  | [] => next == bits
  | f :: rest => f.offset == next && Field.cover bits (next + f.width) rest

/-- A register `bits` wide with all its fields, which cover it. -/
structure Layout where
  name : String
  bits : Nat
  fields : List Field
  covers : Field.cover bits 0 fields = true := by decide
  deriving Repr

namespace Layout

/-- The field of a name, if the register has one. -/
def field? (l : Layout) (name : String) : Option Field :=
  l.fields.find? fun f => f.name == name

/-- The decoded fields of a word, lowest bit first. -/
def values (l : Layout) (word : BitVec l.bits) : List (String × Value) :=
  l.fields.map fun f => (f.name, f.value word)

/-- A word with its fields spelled out. -/
def debug (l : Layout) (word : BitVec l.bits) : String :=
  let written := (l.values word).map fun (name, value) => s!"{name}: {value.debug}"
  l.name ++ " \x7b " ++ ", ".intercalate written ++ " \x7d"

end Layout

end Register

end BoardSupport
