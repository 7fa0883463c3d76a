import BoardSupport.Config.Header
import BoardSupport.Proofs.Config.Request
import BoardSupport.Proofs.Text.Digits
import BoardSupport.Proofs.Text.Fields
import BoardSupport.Proofs.Text.LetterCase

/-!
# Which Requests Are Addressed to the Configuration

A request is about the configuration exactly if it spells the vendor, and the name if it
gives one, the way the written header does, up to letter case.

Where a key is given more than once, the last value counts. A value is looked at group by
group, each group having the digits of one number, and since the groups have a fixed width
this comes to a comparison of the whole value.

On the machine a value is a row of bytes. It is cut into groups without regard for its
characters, and a group of digits is taken as text before it is read. `spellsInBytes` is
that computation, with every cut and every conversion put to the test. That it always
comes to the same says that none of them fails, whatever the bytes are. Values that are
digits throughout are their own characters, so there both computations go in step. In all
others the bytes that are no digits are met by both, before or after a number that does
not fit.

## Main definitions

* `Config.Header.vendorDigits`, `Config.Header.nameDigits`: How the header spells.
* `Config.Header.spellsInBytes`, `Config.Header.isAddressedInBytes`: The comparison in
  bytes of the machine.
* `Config.Header.Recognised`: What is to be known about a request.

## Theorems

* `Config.Header.spells_iff`: Group by group or as a whole.
* `Config.Header.readFields_eq`: The values given last decide.
* `Config.Header.denoteInBytes_cons`: One group of bytes.
* `Config.Header.denoteInBytes_of_digits`, `Config.Header.denoteInBytes_of_not_digit`: All
  groups of them.
* `Config.Header.spellsInBytes_eq`, `Config.Header.isAddressedInBytes_eq`: No cut and no
  conversion fails.
* `Config.Header.request_recognised`: What is known about every request.
-/

namespace BoardSupport

namespace Config

namespace Header

open Text (EqUpToCase eqUpToCase_append fields fromUTF8?_digits last? last?_cons
  map_ofUInt8_utf8 utf8 utf8_digits)

/-- How the header spells the vendor. -/
def vendorDigits : List Char :=
  (spell 2 vendorCodes).toList

/-- How the header spells the name. -/
def nameDigits : List Char :=
  (spell 4 nameCodes).toList

section Spelling

variable (width : Nat) (codes : List Nat) (spelling : List Char)

/-- What is looked at group by group is the whole spelling, in either letter case. -/
theorem spells_iff (hwidth : 0 < width) (h : ∀ code ∈ codes, code < 16 ^ width) :
    spells width codes spelling = true ↔ EqUpToCase spelling (spell width codes).toList := by
  rw [toList_spell]
  induction codes generalizing spelling with
  | nil =>
      rw [spells, List.isEmpty_iff, List.flatMap_nil, EqUpToCase, List.map_nil,
        List.map_eq_nil_iff]
  | cons code rest ih =>
      have hcode : code < 16 ^ width := h code List.mem_cons_self
      have hrest := ih (spelling.drop width) fun other hother =>
        h other (List.mem_cons_of_mem code hother)
      have hgroup := Hex.value?_eq_some_iff_eqUpToCase width code hwidth hcode (spelling.take width)
      have hlength := Hex.length_spellChars .lower width code hwidth hcode
      rw [List.flatMap_cons, eqUpToCase_append, hlength, ← hgroup, ← hrest, spells,
        Bool.and_eq_true, Bool.and_eq_true, beq_iff_eq, beq_iff_eq]

/-- A spelling has as many characters as its groups together. -/
theorem length_of_spells (h : spells width codes spelling = true) :
    spelling.length = codes.length * width := by
  induction codes generalizing spelling with
  | nil =>
      rw [spells, List.isEmpty_iff] at h
      rw [h, List.length_nil, List.length_nil, Nat.zero_mul]
  | cons code rest ih =>
      rw [spells, Bool.and_eq_true, Bool.and_eq_true, beq_iff_eq] at h
      have hrest := ih _ h.2
      have hgroup := h.1.1
      rw [List.length_drop] at hrest
      rw [List.length_take] at hgroup
      rw [List.length_cons, Nat.succ_mul]
      omega

/-- A spelling consists of digits. -/
theorem isDigit_of_spells (h : spells width codes spelling = true) :
    ∀ b ∈ utf8 spelling, Hex.IsDigit b := by
  induction codes generalizing spelling with
  | nil =>
      rw [spells, List.isEmpty_iff] at h
      rw [h]
      exact fun b hb => absurd hb List.not_mem_nil
  | cons code rest ih =>
      rw [spells, Bool.and_eq_true, Bool.and_eq_true, beq_iff_eq, beq_iff_eq] at h
      have hgroup := (Hex.value?_eq_some_iff _ _).mp h.1.2
      have hparts : utf8 spelling = utf8 (spelling.take width) ++ utf8 (spelling.drop width) := by
        rw [utf8, utf8, utf8, ← List.flatMap_append, List.take_append_drop]
      rw [hparts]
      exact List.forall_mem_append.mpr ⟨hgroup.2.1, ih _ h.2⟩

end Spelling

/-- The values given last decide, or else what was known before. -/
theorem readFields_eq (vendorMatches nameMatches : Bool) (fs : List Text.Field) :
    readFields vendorMatches nameMatches fs =
      (((last? "GUID" fs).map (spells 2 vendorCodes)).getD vendorMatches &&
        ((last? "NAME" fs).map (spells 4 nameCodes)).getD nameMatches) := by
  have hkeys : "NAME".toList ≠ "GUID".toList := by decide
  induction fs generalizing vendorMatches nameMatches with
  | nil => rfl
  | cons f rest ih =>
      rw [readFields, last?_cons, last?_cons]
      by_cases hguid : f.key = "GUID".toList
      · have hname : f.key ≠ "NAME".toList := fun h => hkeys (h.symm.trans hguid)
        rw [if_pos hguid, if_pos hguid, if_neg hname, ih, Option.or_none]
        cases last? "GUID" rest <;> rfl
      · rw [if_neg hguid, if_neg hguid, Option.or_none]
        by_cases hname : f.key = "NAME".toList
        · rw [if_pos hname, if_pos hname, ih]
          cases last? "NAME" rest <;> rfl
        · rw [if_neg hname, if_neg hname, ih, Option.or_none]

/-- The next bytes of a row, as many as a group has. Fewer cannot be cut off. -/
def cutGroup? (width : Nat) (bytes : List UInt8) : Option (List UInt8 × List UInt8) :=
  if width ≤ bytes.length then some (bytes.take width, bytes.drop width) else none

/-- The number of a group of digits. The group is taken as text, and the text is read as a
    number of 32 bits. -/
def convert? (group : List UInt8) : Option Nat := do
  let text ← String.fromUTF8? group.toByteArray
  let n ← Hex.value? text.toList
  if n < UInt32.size then some n else none

/-- Whether groups of bytes denote these numbers. A group that is not all digits denotes
    none. Nothing comes of it if a group cannot be cut off or digits cannot be converted. -/
def denoteInBytes (width : Nat) : (codes : List Nat) → (bytes : List UInt8) → Option Bool
  | [], _ => some true
  | code :: codes, bytes => do
    let (group, later) ← cutGroup? width bytes
    if group ≠ [] ∧ group.all (Hex.IsDigit ·) then do
      let n ← convert? group
      if n = code then denoteInBytes width codes later else some false
    else
      some false

/-- Whether bytes spell exactly these numbers. They are cut into groups only if there are as
    many of them as there should be. -/
def spellsInBytes (width : Nat) (codes : List Nat) (bytes : List UInt8) : Option Bool :=
  if bytes.length = codes.length * width then denoteInBytes width codes bytes else some false

/-- Going through the fields of a request, with their values compared in bytes. -/
def readFieldsInBytes (vendorMatches nameMatches : Bool) : List Text.Field → Option Bool
  | [] => some (vendorMatches && nameMatches)
  | f :: rest =>
    if f.key = "GUID".toList then do
      let vendorMatches ← spellsInBytes 2 vendorCodes (utf8 f.value)
      readFieldsInBytes vendorMatches nameMatches rest
    else if f.key = "NAME".toList then do
      let nameMatches ← spellsInBytes 4 nameCodes (utf8 f.value)
      readFieldsInBytes vendorMatches nameMatches rest
    else
      readFieldsInBytes vendorMatches nameMatches rest

/-- Whether a request is about the configuration, in bytes of the machine. -/
def isAddressedInBytes (request : String) : Option Bool :=
  readFieldsInBytes false true (fields request)

/-- A group of digits is converted, and comes to what is read of it as text. -/
theorem convert?_digits (group : List UInt8) (hne : group ≠ [])
    (h : ∀ b ∈ group, Hex.IsDigit b) (hlength : group.length ≤ 8) :
    ∃ n, convert? group = some n ∧ Hex.value? (group.map Char.ofUInt8) = some n := by
  have hvalue : Hex.value? (group.map Char.ofUInt8) = some (Hex.denoted group) := by
    refine (Hex.value?_eq_some_iff _ _).mpr ⟨mt List.map_eq_nil_iff.mp hne, ?_⟩
    rw [utf8_digits group h]
    exact ⟨h, rfl⟩
  refine ⟨Hex.denoted group, ?_, hvalue⟩
  have hread : convert? group = (Hex.value? (group.map Char.ofUInt8)).bind fun n =>
      if n < UInt32.size then some n else none := by
    simp only [convert?, fromUTF8?_digits group h, String.toList_ofList, Option.bind_eq_bind,
      Option.bind_some]
  have hsmall : Hex.denoted group < UInt32.size :=
    Nat.lt_of_lt_of_le (Hex.denoted_lt group h) (Nat.pow_le_pow_right (n := 16) (by decide) hlength)
  rw [hread, hvalue, Option.bind_some, if_pos hsmall]

theorem all_isDigit {bytes : List UInt8} :
    bytes.all (Hex.IsDigit ·) = true ↔ ∀ b ∈ bytes, Hex.IsDigit b := by
  simp only [List.all_eq_true, decide_eq_true_eq]

/-- Where there are bytes for one more group, it is cut off and compared, and then the
    others. -/
theorem denoteInBytes_cons (width : Nat) (hwidth : 0 < width ∧ width ≤ 8) (code : Nat)
    (rest : List Nat) (bytes : List UInt8)
    (hlength : bytes.length = (code :: rest).length * width) :
    denoteInBytes width (code :: rest) bytes =
      if (bytes.take width).all (Hex.IsDigit ·) ∧
          Hex.value? ((bytes.take width).map Char.ofUInt8) = some code then
        denoteInBytes width rest (bytes.drop width)
      else
        some false := by
  have hle : width ≤ bytes.length := by
    rw [hlength, List.length_cons, Nat.succ_mul]
    exact Nat.le_add_left width _
  have hgroup : (bytes.take width).length = width := List.length_take_of_le hle
  have hne : bytes.take width ≠ [] := by
    intro hnil
    rw [hnil, List.length_nil] at hgroup
    omega
  simp only [denoteInBytes, cutGroup?, if_pos hle, Option.bind_eq_bind, Option.bind_some]
  by_cases hdigits : (bytes.take width).all (Hex.IsDigit ·)
  · obtain ⟨n, hconvert, hvalue⟩ :=
      convert?_digits _ hne (all_isDigit.mp hdigits) (hgroup.trans_le hwidth.2)
    rw [if_pos ⟨hne, hdigits⟩, hconvert, hvalue, Option.bind_some]
    by_cases hcode : n = code
    · rw [if_pos hcode, if_pos ⟨hdigits, congrArg some hcode⟩]
    · rw [if_neg hcode, if_neg fun h => hcode (Option.some.inj h.2)]
  · rw [if_neg fun h => hdigits h.2, if_neg fun h => hdigits h.1]

/-- Digits are compared alike as bytes and as characters. -/
theorem denoteInBytes_of_digits (width : Nat) (hwidth : 0 < width ∧ width ≤ 8)
    (codes : List Nat) (bytes : List UInt8) (hlength : bytes.length = codes.length * width)
    (h : ∀ b ∈ bytes, Hex.IsDigit b) :
    denoteInBytes width codes bytes = some (spells width codes (bytes.map Char.ofUInt8)) := by
  induction codes generalizing bytes with
  | nil =>
      rw [List.length_nil, Nat.zero_mul] at hlength
      rw [List.eq_nil_of_length_eq_zero hlength]
      rfl
  | cons code rest ih =>
      have hgroup : ∀ b ∈ bytes.take width, Hex.IsDigit b := fun b hb =>
        h b (List.mem_of_mem_take hb)
      have htotal : bytes.length = rest.length * width + width := by
        rw [hlength, List.length_cons, Nat.succ_mul]
      have hlater : (bytes.drop width).length = rest.length * width := by
        rw [List.length_drop]
        omega
      have htaken : (bytes.take width).length = width := by
        rw [List.length_take]
        omega
      rw [denoteInBytes_cons width hwidth code rest bytes hlength,
        ih _ hlater fun b hb => h b (List.mem_of_mem_drop hb), spells, ← List.map_take,
        ← List.map_drop, List.length_map, htaken]
      by_cases hcode : Hex.value? ((bytes.take width).map Char.ofUInt8) = some code
      · rw [if_pos ⟨all_isDigit.mpr hgroup, hcode⟩, hcode, beq_self_eq_true, beq_self_eq_true,
          Bool.true_and, Bool.true_and]
      · rw [if_neg fun hboth => hcode hboth.2, beq_eq_false_iff_ne.mpr hcode, Bool.and_false,
          Bool.false_and]

/-- Bytes that are not all digits spell nothing. -/
theorem denoteInBytes_of_not_digit (width : Nat) (hwidth : 0 < width ∧ width ≤ 8)
    (codes : List Nat) (bytes : List UInt8) (hlength : bytes.length = codes.length * width)
    (h : ¬∀ b ∈ bytes, Hex.IsDigit b) :
    denoteInBytes width codes bytes = some false := by
  induction codes generalizing bytes with
  | nil =>
      rw [List.length_nil, Nat.zero_mul] at hlength
      rw [List.eq_nil_of_length_eq_zero hlength] at h
      exact absurd (fun b hb => absurd hb List.not_mem_nil) h
  | cons code rest ih =>
      rw [denoteInBytes_cons width hwidth code rest bytes hlength]
      split
      next hgroup =>
        -- The group is all digits, so what is no digit comes later.
        refine ih (bytes.drop width) ?_ fun hlater => h fun b hb => ?_
        · rw [List.length_drop, hlength, List.length_cons, Nat.succ_mul, Nat.add_sub_cancel]
        · rw [← List.take_append_drop width bytes] at hb
          exact (List.mem_append.mp hb).elim (all_isDigit.mp hgroup.1 b) (hlater b)
      next => rfl

/-- Nothing fails in the comparison of a value, and it comes to the same in bytes. -/
theorem spellsInBytes_eq (width : Nat) (hwidth : 0 < width ∧ width ≤ 8) (codes : List Nat)
    (value : List Char) :
    spellsInBytes width codes (utf8 value) = some (spells width codes value) := by
  rw [spellsInBytes]
  by_cases hdigits : ∀ b ∈ utf8 value, Hex.IsDigit b
  · have hsame := map_ofUInt8_utf8 value hdigits
    by_cases hlength : (utf8 value).length = codes.length * width
    · rw [if_pos hlength, denoteInBytes_of_digits width hwidth codes _ hlength hdigits, hsame]
    · have hnot : spells width codes value ≠ true := by
        intro hspells
        have hchars := length_of_spells width codes value hspells
        rw [← hsame, List.length_map] at hchars
        exact hlength hchars
      rw [if_neg hlength, Bool.eq_false_iff.mpr hnot]
  · have hnot : spells width codes value ≠ true := fun hspells =>
      hdigits (isDigit_of_spells width codes value hspells)
    rw [Bool.eq_false_iff.mpr hnot]
    by_cases hlength : (utf8 value).length = codes.length * width
    · rw [if_pos hlength, denoteInBytes_of_not_digit width hwidth codes _ hlength hdigits]
    · rw [if_neg hlength]

theorem readFieldsInBytes_eq (vendorMatches nameMatches : Bool) (fs : List Text.Field) :
    readFieldsInBytes vendorMatches nameMatches fs =
      some (readFields vendorMatches nameMatches fs) := by
  induction fs generalizing vendorMatches nameMatches with
  | nil => rfl
  | cons f rest ih =>
      rw [readFieldsInBytes, readFields]
      split
      next =>
        rw [spellsInBytes_eq 2 (by omega), Option.bind_eq_bind, Option.bind_some]
        exact ih _ nameMatches
      next =>
        split
        next =>
          rw [spellsInBytes_eq 4 (by omega), Option.bind_eq_bind, Option.bind_some]
          exact ih vendorMatches _
        next => exact ih vendorMatches nameMatches

/-- No cut and no conversion fails on any request. -/
theorem isAddressedInBytes_eq (request : String) :
    isAddressedInBytes request = some (isAddressed request) :=
  readFieldsInBytes_eq false true (fields request)

/-- Which requests are addressed to the configuration, and that nothing fails in finding
    out. -/
structure Recognised (request : String) : Prop where
  /-- The header is the two rows of digits behind their keys. -/
  written : display =
    "GUID=" ++ String.ofList vendorDigits ++ "&NAME=" ++ String.ofList nameDigits
  /-- Each row has its length and is digits throughout. -/
  digits : (vendorDigits.length = 32 ∧ ∀ b ∈ utf8 vendorDigits, Hex.IsDigit b) ∧
    nameDigits.length = 56 ∧ ∀ b ∈ utf8 nameDigits, Hex.IsDigit b
  /-- The fields of the request are its pieces between separators that hold an equals sign,
      each divided at the first one. -/
  fields : fields request =
    ((request.toList.splitOn '&').filter ('=' ∈ ·)).map fun piece =>
      ⟨piece.takeWhile (· ≠ '='), (piece.dropWhile (· ≠ '=')).tail⟩
  /-- The vendor has to be given, and the name only if it is given at all. Both are spelled
      as in the header, up to letter case, by the value given last. -/
  addressed_iff : isAddressed request = true ↔
    (∃ value, last? "GUID" (Text.fields request) = some value ∧
      EqUpToCase value vendorDigits) ∧
    ∀ value, last? "NAME" (Text.fields request) = some value → EqUpToCase value nameDigits
  /-- The bytes of a request can be cut and converted wherever that is done, and the outcome
      is the same. -/
  inBytes : isAddressedInBytes request = some (isAddressed request)

theorem spells_vendor_iff (value : List Char) :
    spells 2 vendorCodes value = true ↔ EqUpToCase value vendorDigits :=
  spells_iff 2 vendorCodes value (by omega) (by decide)

theorem spells_name_iff (value : List Char) :
    spells 4 nameCodes value = true ↔ EqUpToCase value nameDigits :=
  spells_iff 4 nameCodes value (by omega) (by decide)

/-- A request is recognised by the digits of the header. -/
theorem request_recognised (request : String) : Recognised request where
  written := by
    rw [vendorDigits, nameDigits, String.ofList_toList, String.ofList_toList]
    rfl
  digits := by
    have hvendor := (spells_vendor_iff vendorDigits).mpr rfl
    have hname := (spells_name_iff nameDigits).mpr rfl
    exact ⟨⟨length_of_spells 2 vendorCodes _ hvendor, isDigit_of_spells 2 vendorCodes _ hvendor⟩,
      length_of_spells 4 nameCodes _ hname, isDigit_of_spells 4 nameCodes _ hname⟩
  fields := Text.fields_eq request
  addressed_iff := by
    rw [isAddressed, readFields_eq, Bool.and_eq_true]
    refine and_congr ?_ ?_
    · cases last? "GUID" (fields request) with
      | none => simp
      | some value => simp [spells_vendor_iff]
    · cases last? "NAME" (fields request) with
      | none => simp
      | some value => simp [spells_name_iff]
  inBytes := isAddressedInBytes_eq request

end Header

end Config

end BoardSupport
