import BoardSupport.Config.Store
import BoardSupport.Proofs.Text.Fields
import BoardSupport.Proofs.Text.Hex

/-!
# Requests Read Back

A request put together from written parts is understood as what was written.

There are two written forms, that of a block and that of the header. Each is a
pair of fields whose values are numerals, so it is read back because numerals
are. The two differ in how numerals are told apart. A block gives each of them
a field of its own; the header writes them one after another, each in a fixed
number of digits, and is taken apart again by counting.

Reading goes through the fields from the front and keeps what was given last.
Fields with other keys therefore change nothing wherever they stand, and a
written form can be surrounded by any text that does not give its keys again.

## Main definitions

* `Config.requestOf`: A header, some text and a block.

## Theorems

* `Config.Block.readFields_append`: Reading goes on over a second list of
  fields.
* `Config.Block.readFields_display`: A written block is read back.
* `Config.Header.spells_spell`: Numbers written one after another are told
  apart.
* `Config.Header.readFields_display`: The written header is recognised.
* `Config.Block.omits_display`, `Config.Header.omits_display`: The keys that the
  written forms do not give.
* `Config.request_understood`: A request is understood as it was written, in
  any surroundings.
-/

namespace BoardSupport

namespace Config

namespace Block

open Text (Omits)

/-- A numeral for a word of 64 bits denotes that word. -/
theorem number_spell (letters : Hex.Case) (width : Nat) (n : UInt64) :
    number (Hex.spellChars letters width n.toNat) = .ok n := by
  rw [number, Hex.value?_spellChars]
  simp only [if_pos n.toNat_lt_size, UInt64.ofNat_toNat]

theorem readFields_offset (offset width : Option UInt64) (letters : Hex.Case) (digits : Nat)
    (n : UInt64) (rest : List Text.Field) :
    readFields offset width (⟨"OFFSET".toList, Hex.spellChars letters digits n.toNat⟩ :: rest) =
      readFields (some n) width rest := by
  rw [readFields, number_spell]
  dsimp only
  exact if_pos (Eq.refl "OFFSET".toList)

theorem readFields_width (offset width : Option UInt64) (letters : Hex.Case) (digits : Nat)
    (n : UInt64) (rest : List Text.Field) :
    readFields offset width (⟨"WIDTH".toList, Hex.spellChars letters digits n.toNat⟩ :: rest) =
      readFields offset (some n) rest := by
  have hkey : "WIDTH".toList ≠ "OFFSET".toList := by decide
  rw [readFields, number_spell]
  dsimp only
  exact (if_neg hkey).trans (if_pos (Eq.refl "WIDTH".toList))

/-- Reading goes on over a second list of fields with what the first gave. -/
theorem readFields_append (offset width : Option UInt64) (first rest : List Text.Field) :
    readFields offset width (first ++ rest) =
      match readFields offset width first with
      | .error cause => .error cause
      | .ok (offset, width) => readFields offset width rest := by
  induction first generalizing offset width with
  | nil => rfl
  | cons f more ih =>
      rw [List.cons_append, readFields, readFields]
      by_cases hoffset : f.key = "OFFSET".toList
      · rw [if_pos hoffset, if_pos hoffset]
        cases number f.value with
        | error cause => rfl
        | ok n => exact ih (some n) width
      · rw [if_neg hoffset, if_neg hoffset]
        by_cases hwidth : f.key = "WIDTH".toList
        · rw [if_pos hwidth, if_pos hwidth]
          cases number f.value with
          | error cause => rfl
          | ok n => exact ih offset (some n)
        · rw [if_neg hwidth, if_neg hwidth]
          exact ih offset width

/-- Fields with other keys change nothing. -/
theorem readFields_of_omits (offset width : Option UInt64) (fs : List Text.Field)
    (hoffset : ∀ f ∈ fs, f.key ≠ "OFFSET".toList) (hwidth : ∀ f ∈ fs, f.key ≠ "WIDTH".toList) :
    readFields offset width fs = .ok (offset, width) := by
  induction fs with
  | nil => rfl
  | cons f rest ih =>
      rw [readFields, if_neg (hoffset f List.mem_cons_self), if_neg (hwidth f List.mem_cons_self)]
      exact ih (fun g hg => hoffset g (List.mem_cons_of_mem f hg))
        fun g hg => hwidth g (List.mem_cons_of_mem f hg)

/-- A written block is two fields. -/
theorem fields_display (b : Block) :
    Text.fields b.display =
      [⟨"OFFSET".toList, Hex.spellChars .upper 1 b.offset.toNat⟩,
        ⟨"WIDTH".toList, Hex.spellChars .upper 16 b.width.toNat⟩] := by
  have hline : b.display =
      "OFFSET" ++ "=" ++ Hex.upper b.offset.toNat ++ "&" ++
        ("WIDTH" ++ "=" ++ Hex.spell .upper 16 b.width.toNat) := by
    have hoffset : ("OFFSET=" : String) = "OFFSET" ++ "=" := by decide
    have hwidth : ("&WIDTH=" : String) = "&" ++ ("WIDTH" ++ "=") := by decide
    simp only [display, toString, hoffset, hwidth, String.append_assoc]
  have hupper : '&' ∉ (Hex.upper b.offset.toNat).toList := by
    rw [Hex.upper, Hex.spell, String.toList_ofList]
    exact Hex.not_mem_spellChars _ _ _ _ (by decide)
  have hspell : '&' ∉ (Hex.spell .upper 16 b.width.toNat).toList := by
    rw [Hex.spell, String.toList_ofList]
    exact Hex.not_mem_spellChars _ _ _ _ (by decide)
  rw [hline, Text.fields_append, Text.fields_pair _ _ (by decide) (by decide) hupper,
    Text.fields_pair _ _ (by decide) (by decide) hspell]
  simp only [Hex.upper, Hex.spell, String.toList_ofList, List.singleton_append]

/-- A written block is read back, whatever was given before it. -/
theorem readFields_display (offset width : Option UInt64) (b : Block) :
    readFields offset width (Text.fields b.display) = .ok (some b.offset, some b.width) := by
  rw [fields_display, readFields_offset, readFields_width, readFields]

/-- A written block is understood behind any text that gives no block. -/
theorem parse_append_display (p : String) (b : Block) (hoffset : Omits p "OFFSET")
    (hwidth : Omits p "WIDTH") : parse (p ++ "&" ++ b.display) = .ok b := by
  rw [parse, Text.fields_append, readFields_append, readFields_of_omits _ _ _ hoffset hwidth]
  simp only [readFields_display]

/-- And it is understood in front of such a text. -/
theorem parse_display_append (p : String) (b : Block) (hoffset : Omits p "OFFSET")
    (hwidth : Omits p "WIDTH") : parse (b.display ++ "&" ++ p) = .ok b := by
  rw [parse, Text.fields_append, readFields_append, readFields_display]
  simp only [readFields_of_omits _ _ _ hoffset hwidth]

end Block

namespace Header

open Text (Omits)

theorem readFields_guid (vendorMatches nameMatches : Bool) (value : List Char)
    (rest : List Text.Field) :
    readFields vendorMatches nameMatches (⟨"GUID".toList, value⟩ :: rest) =
      readFields (spells 2 vendorCodes value) nameMatches rest := by
  rw [readFields]
  dsimp only
  exact if_pos (Eq.refl "GUID".toList)

theorem readFields_name (vendorMatches nameMatches : Bool) (value : List Char)
    (rest : List Text.Field) :
    readFields vendorMatches nameMatches (⟨"NAME".toList, value⟩ :: rest) =
      readFields vendorMatches (spells 4 nameCodes value) rest := by
  have hkey : "NAME".toList ≠ "GUID".toList := by decide
  rw [readFields]
  dsimp only
  exact (if_neg hkey).trans (if_pos (Eq.refl "NAME".toList))

/-- Fields with other keys change nothing. -/
theorem readFields_of_omits (vendorMatches nameMatches : Bool) (fs : List Text.Field)
    (hguid : ∀ f ∈ fs, f.key ≠ "GUID".toList) (hname : ∀ f ∈ fs, f.key ≠ "NAME".toList) :
    readFields vendorMatches nameMatches fs = (vendorMatches && nameMatches) := by
  induction fs with
  | nil => rfl
  | cons f rest ih =>
      rw [readFields, if_neg (hguid f List.mem_cons_self), if_neg (hname f List.mem_cons_self)]
      exact ih (fun g hg => hguid g (List.mem_cons_of_mem f hg))
        fun g hg => hname g (List.mem_cons_of_mem f hg)

/-- Nor do they behind those that decide. -/
theorem readFields_append_of_omits (vendorMatches nameMatches : Bool)
    (first rest : List Text.Field) (hguid : ∀ f ∈ rest, f.key ≠ "GUID".toList)
    (hname : ∀ f ∈ rest, f.key ≠ "NAME".toList) :
    readFields vendorMatches nameMatches (first ++ rest) =
      readFields vendorMatches nameMatches first := by
  induction first generalizing vendorMatches nameMatches with
  | nil => exact readFields_of_omits vendorMatches nameMatches rest hguid hname
  | cons f more ih =>
      rw [List.cons_append, readFields, readFields]
      by_cases hkey : f.key = "GUID".toList
      · rw [if_pos hkey, if_pos hkey]
        exact ih _ _
      · rw [if_neg hkey, if_neg hkey]
        by_cases hkey' : f.key = "NAME".toList
        · rw [if_pos hkey', if_pos hkey']
          exact ih _ _
        · rw [if_neg hkey', if_neg hkey']
          exact ih _ _

theorem toList_spell (width : Nat) (codes : List Nat) :
    (spell width codes).toList = codes.flatMap (Hex.spellChars .lower width) := by
  simp only [spell, String.toList_join, List.flatMap_map, Hex.spell, String.toList_ofList]

/-- Numbers written one after another are told apart by their width. -/
theorem spells_spell (width : Nat) (codes : List Nat) (hwidth : 0 < width)
    (h : ∀ code ∈ codes, code < 16 ^ width) :
    spells width codes (spell width codes).toList = true := by
  rw [toList_spell]
  induction codes with
  | nil => rfl
  | cons code rest ih =>
      have hlength : (Hex.spellChars .lower width code).length = width :=
        Hex.length_spellChars .lower width code hwidth (h code List.mem_cons_self)
      have hrest := ih fun other hother => h other (List.mem_cons_of_mem code hother)
      -- The first `width` characters are the first number and the others are
      -- the rest.
      rw [List.flatMap_cons, spells, List.take_left' hlength, List.drop_left' hlength, hlength,
        Hex.value?_spellChars, hrest]
      simp only [beq_self_eq_true, Bool.and_self]

/-- No separator stands in numbers written one after another. -/
theorem not_mem_spell (width : Nat) (codes : List Nat) : '&' ∉ (spell width codes).toList := by
  rw [toList_spell]
  intro hmem
  rcases List.mem_flatMap.mp hmem with ⟨code, _, hcode⟩
  exact Hex.not_mem_spellChars .lower width code '&' (by decide) hcode

/-- The written header is two fields. -/
theorem fields_display :
    Text.fields display =
      [⟨"GUID".toList, (spell 2 vendorCodes).toList⟩,
        ⟨"NAME".toList, (spell 4 nameCodes).toList⟩] := by
  have hline : display =
      "GUID" ++ "=" ++ spell 2 vendorCodes ++ "&" ++ ("NAME" ++ "=" ++ spell 4 nameCodes) := by
    have hguid : ("GUID=" : String) = "GUID" ++ "=" := by decide
    have hname : ("&NAME=" : String) = "&" ++ ("NAME" ++ "=") := by decide
    simp only [display, toString, hguid, hname, String.append_assoc]
  rw [hline, Text.fields_append,
    Text.fields_pair _ _ (by decide) (by decide) (not_mem_spell 2 vendorCodes),
    Text.fields_pair _ _ (by decide) (by decide) (not_mem_spell 4 nameCodes)]
  rfl

/-- The written header is recognised, whatever was given before it. -/
theorem readFields_display (vendorMatches nameMatches : Bool) :
    readFields vendorMatches nameMatches (Text.fields display) = true := by
  have hvendor : spells 2 vendorCodes (spell 2 vendorCodes).toList = true :=
    spells_spell 2 vendorCodes (by decide) (by decide)
  have hname : spells 4 nameCodes (spell 4 nameCodes).toList = true :=
    spells_spell 4 nameCodes (by decide) (by decide)
  rw [fields_display, readFields_guid, hvendor, readFields_name, hname, readFields]
  rfl

/-- A request is addressed to the configuration if the header is followed by
    text that names neither a vendor nor a variable. -/
theorem isAddressed_display_append (rest : String) (hguid : Omits rest "GUID")
    (hname : Omits rest "NAME") : isAddressed (display ++ "&" ++ rest) = true := by
  rw [isAddressed, Text.fields_append, readFields_append_of_omits _ _ _ _ hguid hname,
    readFields_display]

end Header

open Text (Omits omits_append)

-- Neither written form gives the keys of the other.
theorem Block.omits_display (b : Block) (key : String)
    (h : "OFFSET".toList ≠ key.toList ∧ "WIDTH".toList ≠ key.toList) : Omits b.display key := by
  intro f hf
  rw [Block.fields_display, List.mem_cons, List.mem_singleton] at hf
  rcases hf with rfl | rfl
  · exact h.1
  · exact h.2

theorem Header.omits_display (key : String)
    (h : "GUID".toList ≠ key.toList ∧ "NAME".toList ≠ key.toList) : Omits Header.display key := by
  intro f hf
  rw [Header.fields_display, List.mem_cons, List.mem_singleton] at hf
  rcases hf with rfl | rfl
  · exact h.1
  · exact h.2

/-- A request is a header, some text and a block. -/
def requestOf (p : String) (b : Block) : String :=
  Header.display ++ "&" ++ p ++ "&" ++ b.display

/-- A block is understood as it was written, before or after any text that gives
    no block of its own. With the header in front, and if the text names no one
    else either, the request is answered like the block itself. -/
theorem request_understood (b : Block) (p : String) (hoffset : Omits p "OFFSET")
    (hwidth : Omits p "WIDTH") :
    Block.parse (p ++ "&" ++ b.display) = .ok b ∧
      Block.parse (b.display ++ "&" ++ p) = .ok b ∧
      (Omits p "GUID" → Omits p "NAME" →
        Header.isAddressed (requestOf p b) = true ∧
        ∀ (s : Store) (room : Nat),
          s.extract (some (requestOf p b)) room = s.current.extract b room) := by
  refine ⟨Block.parse_append_display p b hoffset hwidth,
    Block.parse_display_append p b hoffset hwidth, fun hguid hname => ?_⟩
  have haddressed : Header.isAddressed (requestOf p b) = true := by
    have hrest : requestOf p b = Header.display ++ "&" ++ (p ++ "&" ++ b.display) := by
      simp only [requestOf, String.append_assoc]
    rw [hrest]
    exact Header.isAddressed_display_append _
      ((omits_append _ _ _).mpr ⟨hguid, b.omits_display _ (by decide)⟩)
      ((omits_append _ _ _).mpr ⟨hname, b.omits_display _ (by decide)⟩)
  have hparsed : Block.parse (requestOf p b) = .ok b := by
    rw [requestOf]
    exact Block.parse_append_display _ b
      ((omits_append _ _ _).mpr ⟨Header.omits_display _ (by decide), hoffset⟩)
      ((omits_append _ _ _).mpr ⟨Header.omits_display _ (by decide), hwidth⟩)
  refine ⟨haddressed, fun s room => ?_⟩
  have hcheck : Header.check (requestOf p b) = .ok () := if_pos haddressed
  simp only [Store.extract, hcheck, hparsed]
  rfl

theorem request_understood_surrounded :
    Omits "PATH=0104&=OFFSET&OFFSETS" "OFFSET" ∧ Omits "PATH=0104&=OFFSET&OFFSETS" "WIDTH" ∧
      Block.parse ("PATH=0104&=OFFSET&OFFSETS" ++ "&" ++ Block.display ⟨0xFFFFFFFFFFFFFFFA, 11⟩) =
        .ok ⟨0xFFFFFFFFFFFFFFFA, 11⟩ ∧
      Header.isAddressed (requestOf "PATH=0104&=OFFSET&OFFSETS" ⟨2, 3⟩) = true ∧
      Store.new.extract (some (requestOf "PATH=0104&=OFFSET&OFFSETS" ⟨2, 3⟩)) 8 =
        .ok [1, 1, 1] := by
  have hoffset : Omits "PATH=0104&=OFFSET&OFFSETS" "OFFSET" := by decide
  have hwidth : Omits "PATH=0104&=OFFSET&OFFSETS" "WIDTH" := by decide
  rcases request_understood ⟨2, 3⟩ _ hoffset hwidth with ⟨_, _, hanswered⟩
  rcases hanswered (by decide) (by decide) with ⟨haddressed, hextract⟩
  refine ⟨hoffset, hwidth, (request_understood _ _ hoffset hwidth).1, haddressed, ?_⟩
  rw [hextract]
  rfl

end Config

end BoardSupport
