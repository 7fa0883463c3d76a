import BoardSupport.Config.Block
import BoardSupport.Proofs.Text.Fields
import BoardSupport.Proofs.Text.Numeral

/-!
# Which Requests Are Understood

The requests that a block is read from, and the block that each of them asks for.

A request is refused for two reasons only. Some offset or width that it gives is not a
number of 64 bits, be it one that a later field would replace. Or it gives offsets and
no width, or widths and no offset. Every other request is understood: without offset
and width it asks for the whole configuration, and otherwise for the block of the
offset and the width given last.

Reading goes through the fields from the front and keeps what was given last, so the
induction over the fields carries what was kept so far and gives way to whatever comes
later.

## Main definitions

* `Config.Block.NotANumber`: A value that denotes no number of 64 bits.
* `Config.Block.word`: The number of 64 bits that a value denotes.
* `Config.Block.Misstates`: A field with such a value for an offset or a width.
* `Config.Block.Malformed`: A request that makes no sense.
* `Config.Block.Understood`: What is read from a request.

## Theorems

* `Config.Block.number_eq`: Reading one value.
* `Config.Block.readFields_cons`, `Config.Block.readFields_eq`: Reading one field, and
  reading all fields.
* `Config.Block.parse_of_malformed`, `Config.Block.parse_of_omits`,
  `Config.Block.parse_of_not_omits`: The three kinds of requests.
* `Config.Block.parse_understood`: What is read from every request.
-/

namespace BoardSupport

namespace Config

namespace Block

open Text (Omits exists_of_last? fields last? last?_cons last?_eq_none_iff utf8)

/-- A value that denotes no number of 64 bits: it is empty, some byte of it is no digit,
    or the number is too large. -/
def NotANumber (value : List Char) : Prop :=
  value = [] ∨ (∃ b ∈ utf8 value, ¬ Hex.IsDigit b) ∨ 2 ^ 64 ≤ Hex.denoted (utf8 value)

instance (value : List Char) : Decidable (NotANumber value) :=
  inferInstanceAs (Decidable (_ ∨ _))

/-- The number of 64 bits that a value denotes. -/
def word (value : List Char) : UInt64 :=
  UInt64.ofNat (Hex.denoted (utf8 value))

/-- A field that gives an offset or a width which is not a number of 64 bits. -/
def Misstates (f : Text.Field) : Prop :=
  (f.key = "OFFSET".toList ∨ f.key = "WIDTH".toList) ∧ NotANumber f.value

instance (f : Text.Field) : Decidable (Misstates f) :=
  inferInstanceAs (Decidable (_ ∧ _))

/-- A request that makes no sense: some offset or width that it gives is not a number of
    64 bits, or it gives the one and not the other. -/
def Malformed (request : String) : Prop :=
  (∃ f ∈ fields request, Misstates f) ∨ ¬ (Omits request "OFFSET" ↔ Omits request "WIDTH")

instance (request : String) : Decidable (Malformed request) :=
  inferInstanceAs (Decidable (_ ∨ _))

theorem notANumber_iff (value : List Char) :
    NotANumber value ↔
      ¬ (value ≠ [] ∧ (∀ b ∈ utf8 value, Hex.IsDigit b) ∧
        Hex.denoted (utf8 value) < 2 ^ 64) := by
  simp only [NotANumber, not_and_or, not_not, not_forall, exists_prop, not_lt]

/-- A value is read as the number it denotes. -/
theorem number_eq (value : List Char) :
    number value =
      if NotANumber value then .error .malformedRequest else .ok (word value) := by
  have hsize : UInt64.size = 2 ^ 64 := rfl
  rw [number, hsize]
  cases hvalue : Hex.value? value with
  | none =>
      have hbad : NotANumber value := by
        refine (notANumber_iff value).mpr fun ⟨hne, hdigits, _⟩ => ?_
        rw [(Hex.value?_eq_some_iff value _).mpr ⟨hne, hdigits, rfl⟩] at hvalue
        cases hvalue
      rw [if_pos hbad]
  | some n =>
      obtain ⟨hne, hdigits, rfl⟩ := (Hex.value?_eq_some_iff value n).mp hvalue
      simp only
      by_cases hlt : Hex.denoted (utf8 value) < 2 ^ 64
      · rw [if_pos hlt, if_neg fun h => (notANumber_iff value).mp h ⟨hne, hdigits, hlt⟩]
        rfl
      · rw [if_neg hlt, if_pos ((notANumber_iff value).mpr fun h => hlt h.2.2)]

/-- One field is read: it replaces what was kept for its key. -/
theorem readFields_cons (offset width : Option UInt64) (f : Text.Field)
    (rest : List Text.Field) :
    readFields offset width (f :: rest) =
      if Misstates f then .error .malformedRequest
      else readFields (if f.key = "OFFSET".toList then some (word f.value) else offset)
        (if f.key = "WIDTH".toList then some (word f.value) else width) rest := by
  have hkeys : "WIDTH".toList ≠ "OFFSET".toList := by decide
  rw [readFields, number_eq]
  by_cases hoffset : f.key = "OFFSET".toList
  · have hwidth : f.key ≠ "WIDTH".toList := fun h => hkeys (h.symm.trans hoffset)
    rw [if_pos hoffset, if_pos hoffset, if_neg hwidth]
    by_cases hvalue : NotANumber f.value
    · rw [if_pos hvalue, if_pos ⟨Or.inl hoffset, hvalue⟩]
    · rw [if_neg hvalue, if_neg fun h => hvalue h.2]
  · rw [if_neg hoffset, if_neg hoffset]
    by_cases hwidth : f.key = "WIDTH".toList
    · rw [if_pos hwidth, if_pos hwidth]
      by_cases hvalue : NotANumber f.value
      · rw [if_pos hvalue, if_pos ⟨Or.inr hwidth, hvalue⟩]
      · rw [if_neg hvalue, if_neg fun h => hvalue h.2]
    · rw [if_neg hwidth, if_neg hwidth, if_neg fun h => h.1.elim hoffset hwidth]

/-- What counts for a key is what is given last, or else what was kept before. -/
theorem last?_cons_or (key : String) (kept : Option UInt64) (f : Text.Field)
    (rest : List Text.Field) :
    ((last? key (f :: rest)).map word).or kept =
      ((last? key rest).map word).or
        (if f.key = key.toList then some (word f.value) else kept) := by
  rw [last?_cons, Option.map_or, Option.or_assoc]
  by_cases hkey : f.key = key.toList
  · rw [if_pos hkey, if_pos hkey]
    rfl
  · rw [if_neg hkey, if_neg hkey]
    rfl

/-- All fields are read, and what is given last counts, or else what was kept before. -/
theorem readFields_eq (offset width : Option UInt64) (fs : List Text.Field) :
    readFields offset width fs =
      if ∃ f ∈ fs, Misstates f then .error .malformedRequest
      else .ok (((last? "OFFSET" fs).map word).or offset,
        ((last? "WIDTH" fs).map word).or width) := by
  induction fs generalizing offset width with
  | nil => rfl
  | cons f rest ih =>
      rw [readFields_cons, last?_cons_or, last?_cons_or]
      by_cases hf : Misstates f
      · rw [if_pos hf, if_pos ⟨f, List.mem_cons_self, hf⟩]
      · have hrest : (∃ g ∈ f :: rest, Misstates g) ↔ ∃ g ∈ rest, Misstates g := by
          simp only [List.mem_cons, exists_eq_or_imp, hf, false_or]
        rw [if_neg hf, ih]
        exact if_congr hrest.symm rfl rfl

theorem omits_iff (request key : String) :
    Omits request key ↔ last? key (fields request) = none :=
  (last?_eq_none_iff key (fields request)).symm

/-- A number of 64 bits is kept as it is. -/
theorem toNat_word (value : List Char) (h : ¬ NotANumber value) :
    (word value).toNat = Hex.denoted (utf8 value) :=
  UInt64.toNat_ofNat_of_lt' (Nat.lt_of_not_le fun hlarge => h (Or.inr (Or.inr hlarge)))

section Parse

variable (request : String)

/-- A request that makes sense gives both keys or none. -/
theorem omits_iff_omits (h : ¬ Malformed request) :
    Omits request "OFFSET" ↔ Omits request "WIDTH" :=
  Decidable.not_not.mp fun hone => h (Or.inr hone)

/-- What is read from a request whose offsets and widths are numbers. -/
theorem parse_eq (h : ¬ ∃ f ∈ fields request, Misstates f) :
    parse request =
      match last? "OFFSET" (fields request), last? "WIDTH" (fields request) with
      | some offset, some width => .ok ⟨word offset, word width⟩
      | none, none => .ok whole
      | _, _ => .error .malformedRequest := by
  rw [parse, readFields_eq, if_neg h, Option.or_none, Option.or_none]
  cases last? "OFFSET" (fields request) <;> cases last? "WIDTH" (fields request) <;> rfl

/-- A request that makes no sense is refused. -/
theorem parse_of_malformed (h : Malformed request) :
    parse request = .error .malformedRequest := by
  by_cases hbad : ∃ f ∈ fields request, Misstates f
  · rw [parse, readFields_eq, if_pos hbad]
  · have hone := h.resolve_left hbad
    rw [omits_iff, omits_iff] at hone
    rw [parse_eq request hbad]
    cases hoffset : last? "OFFSET" (fields request) with
    | none =>
        cases hwidth : last? "WIDTH" (fields request) with
        | none => exact absurd (iff_of_true hoffset hwidth) hone
        | some width => rfl
    | some offset =>
        cases hwidth : last? "WIDTH" (fields request) with
        | none => rfl
        | some width =>
            rw [hoffset, hwidth] at hone
            exact absurd (iff_of_false (Option.some_ne_none _) (Option.some_ne_none _)) hone

/-- A request that gives neither offset nor width asks for everything. -/
theorem parse_of_omits (hoffset : Omits request "OFFSET") (hwidth : Omits request "WIDTH") :
    parse request = .ok whole := by
  have hbad : ¬ ∃ f ∈ fields request, Misstates f := by
    rintro ⟨f, hf, hkey | hkey, _⟩
    · exact hoffset f hf hkey
    · exact hwidth f hf hkey
  rw [parse_eq request hbad, (omits_iff request _).mp hoffset, (omits_iff request _).mp hwidth]

/-- A request that makes sense and gives an offset asks for the block that is given last. -/
theorem parse_of_not_omits (h : ¬ Malformed request) (hgiven : ¬ Omits request "OFFSET") :
    ∃ offset width b, last? "OFFSET" (fields request) = some offset ∧
      last? "WIDTH" (fields request) = some width ∧ parse request = .ok b ∧
      b.offset.toNat = Hex.denoted (utf8 offset) ∧ b.width.toNat = Hex.denoted (utf8 width) := by
  have hgood : ∀ f ∈ fields request, ¬ Misstates f := fun f hf hbad => h (Or.inl ⟨f, hf, hbad⟩)
  have hgiven' : ¬ Omits request "WIDTH" := fun homits =>
    hgiven ((omits_iff_omits request h).mpr homits)
  obtain ⟨offset, hoffset⟩ := Option.ne_none_iff_exists'.mp (mt (omits_iff request _).mpr hgiven)
  obtain ⟨width, hwidth⟩ := Option.ne_none_iff_exists'.mp (mt (omits_iff request _).mpr hgiven')
  obtain ⟨f, hf, hfkey, rfl⟩ := exists_of_last? _ _ _ hoffset
  obtain ⟨g, hg, hgkey, rfl⟩ := exists_of_last? _ _ _ hwidth
  refine ⟨f.value, g.value, ⟨word f.value, word g.value⟩, hoffset, hwidth, ?_,
    toNat_word _ fun hbad => hgood f hf ⟨Or.inl hfkey, hbad⟩,
    toNat_word _ fun hbad => hgood g hg ⟨Or.inr hgkey, hbad⟩⟩
  rw [parse_eq request fun ⟨f, hf, hbad⟩ => hgood f hf hbad, hoffset, hwidth]

/-- Only a request that makes no sense is refused. -/
theorem malformed_of_parse (cause : Error) (h : parse request = .error cause) :
    Malformed request := by
  by_contra hsense
  by_cases hoffset : Omits request "OFFSET"
  · rw [parse_of_omits request hoffset ((omits_iff_omits request hsense).mp hoffset)] at h
    cases h
  · obtain ⟨_, _, b, _, _, hb, _⟩ := parse_of_not_omits request hsense hoffset
    rw [hb] at h
    cases h

end Parse

/-- What is read from a request. -/
structure Understood (request : String) : Prop where
  /-- Its fields are the pieces between separators that hold an equals sign, each divided
      at the first one. -/
  fields : fields request =
    ((request.toList.splitOn '&').filter ('=' ∈ ·)).map fun piece =>
      ⟨piece.takeWhile (· ≠ '='), (piece.dropWhile (· ≠ '=')).tail⟩
  /-- It is refused exactly if it makes no sense. -/
  refused_iff : (∃ cause, parse request = .error cause) ↔ Malformed request
  /-- And then it is told so. -/
  cause : ∀ cause, parse request = .error cause → cause = .malformedRequest
  /-- Without offset and width it asks for the whole configuration. -/
  whole : Omits request "OFFSET" → Omits request "WIDTH" → parse request = .ok whole
  /-- Otherwise, if it makes sense, it asks for the block of the offset and the width
      given last. -/
  block : ¬ Malformed request → ¬ Omits request "OFFSET" →
    ∃ offset width b, last? "OFFSET" (Text.fields request) = some offset ∧
      last? "WIDTH" (Text.fields request) = some width ∧ parse request = .ok b ∧
      b.offset.toNat = Hex.denoted (utf8 offset) ∧ b.width.toNat = Hex.denoted (utf8 width)

/-- What is read from every request. -/
theorem parse_understood (request : String) : Understood request := by
  refine ⟨Text.fields_eq request, ⟨fun ⟨cause, herror⟩ => malformed_of_parse request cause herror,
    fun h => ⟨_, parse_of_malformed request h⟩⟩, fun cause herror => ?_,
    parse_of_omits request, parse_of_not_omits request⟩
  rw [parse_of_malformed request (malformed_of_parse request cause herror)] at herror
  cases herror
  rfl

-- A sign is no digit, and a number given later does not make up for it.
example : Malformed "OFFSET=+4&OFFSET=4&WIDTH=1" := by decide

-- A second equals sign belongs to the value.
example : Malformed "OFFSET=1=&WIDTH=1" := by decide

example : ¬ Malformed "PATH&OFFSET=000000000000000000000000000000001A&WIDTH=02" := by decide

end Block

end Config

end BoardSupport
