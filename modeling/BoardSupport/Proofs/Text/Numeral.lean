import Mathlib.Data.Nat.Digits.Defs
import BoardSupport.Proofs.Text.Hex

/-!
# Which Texts Are Numerals

A text is read as a number exactly if it is not empty and all its bytes are digits,
and what is read is the number that the digits denote in base sixteen.

Reading goes character by character, while the rule is about bytes. Below 128 a
character is one byte, and there are few enough to look at all of them. From there on
a character is written as several bytes, none of which is a digit, so no character is
a digit unless its bytes are. What a row of digits denotes is taken from the library,
least digit first; reading starts at the other end, and each digit read shifts what
was read before.

## Main definitions

* `Text.utf8`: The bytes of a text.
* `Hex.IsDigit`: The bytes that are digits.
* `Hex.byteValue`: The value of a digit.
* `Hex.denoted`: The number that digits denote.

## Theorems

* `Hex.digitValue?_cases`: Which characters are read as digits.
* `Hex.continueValue?_eq_some_iff`: Reading on over some text.
* `Hex.value?_eq_some_iff`: Which texts are numerals, and what they denote.
-/

namespace BoardSupport

namespace Text

/-- The bytes of a text. -/
def utf8 (text : List Char) : List UInt8 :=
  text.flatMap String.utf8EncodeChar

theorem utf8_cons (c : Char) (rest : List Char) :
    utf8 (c :: rest) = String.utf8EncodeChar c ++ utf8 rest :=
  List.flatMap_cons

end Text

namespace Hex

open Text (utf8 utf8_cons)

/-- The bytes that are digits: `0` to `9`, `A` to `F` and `a` to `f`. -/
def IsDigit (b : UInt8) : Prop :=
  (48 ≤ b ∧ b ≤ 57) ∨ (65 ≤ b ∧ b ≤ 70) ∨ (97 ≤ b ∧ b ≤ 102)

instance (b : UInt8) : Decidable (IsDigit b) :=
  inferInstanceAs (Decidable (_ ∨ _))

/-- The value of a digit. -/
def byteValue (b : UInt8) : Nat :=
  if b ≤ 57 then b.toNat - 48 else if b ≤ 70 then b.toNat - 55 else b.toNat - 87

/-- The number that digits denote, the most significant first. -/
def denoted (digits : List UInt8) : Nat :=
  Nat.ofDigits 16 (digits.reverse.map byteValue)

/-- The first digit counts for as much as the others are many. -/
theorem denoted_cons (b : UInt8) (rest : List UInt8) :
    denoted (b :: rest) = 16 ^ rest.length * byteValue b + denoted rest := by
  rw [denoted, List.reverse_cons, List.map_append, Nat.ofDigits_append, List.length_map,
    List.length_reverse, List.map_singleton, Nat.ofDigits_singleton, Nat.add_comm]
  rfl

/-- The digits are ASCII. -/
theorem not_isDigit_ofNat (n : Nat) (hlow : 128 ≤ n) (hhigh : n < 256) :
    ¬ IsDigit (UInt8.ofNat n) := by
  have hn : (UInt8.ofNat n).toNat = n := UInt8.toNat_ofNat_of_lt' hhigh
  unfold IsDigit
  simp only [UInt8.le_iff_toNat_le, UInt8.reduceToNat, hn]
  omega

/-- A character from 128 on has a byte that is no digit. -/
theorem exists_not_isDigit (c : Char) (h : 128 ≤ c.toNat) :
    ∃ b ∈ String.utf8EncodeChar c, ¬ IsDigit b := by
  have hwide : ¬ c.val.toNat ≤ 127 := Nat.not_le_of_lt h
  unfold String.utf8EncodeChar
  simp only
  rw [if_neg hwide]
  by_cases htwo : c.val.toNat ≤ 2047
  · rw [if_pos htwo]
    exact ⟨_, List.mem_cons_self, not_isDigit_ofNat _ (by omega) (by omega)⟩
  · rw [if_neg htwo]
    by_cases hthree : c.val.toNat ≤ 65535
    · rw [if_pos hthree]
      exact ⟨_, List.mem_cons_self, not_isDigit_ofNat _ (by omega) (by omega)⟩
    · rw [if_neg hthree]
      exact ⟨_, List.mem_cons_self, not_isDigit_ofNat _ (by omega) (by omega)⟩

/-- A character from 128 on is not read as a digit. -/
theorem digitValue?_of_le (c : Char) (h : 128 ≤ c.toNat) : digitValue? c = none := by
  have hle (d : Char) (hd : d.toNat < 128) : ¬ c ≤ d := fun hcd =>
    Nat.not_le_of_lt hd (Nat.le_trans h (UInt32.le_iff_toNat_le.mp hcd))
  unfold digitValue?
  rw [if_neg fun hc => hle '9' (by decide) hc.2, if_neg fun hc => hle 'f' (by decide) hc.2,
    if_neg fun hc => hle 'F' (by decide) hc.2]

/-- A character below 128 is read by its one byte. -/
theorem digitValue?_of_lt (c : Char) (h : c.toNat < 128) :
    digitValue? c =
      if IsDigit c.val.toUInt8 then some (byteValue c.val.toUInt8) else none := by
  have hall : ∀ n : Fin 128, digitValue? (Char.ofNat n) =
      if IsDigit (Char.ofNat n).val.toUInt8 then some (byteValue (Char.ofNat n).val.toUInt8)
      else none := by
    decide
  have hc := hall ⟨c.toNat, h⟩
  rwa [Char.ofNat_toNat] at hc

/-- A character is read as a digit if it is a single byte that is one, and otherwise it
    has a byte that is none. -/
theorem digitValue?_cases (c : Char) :
    (∃ b, String.utf8EncodeChar c = [b] ∧ IsDigit b ∧ digitValue? c = some (byteValue b)) ∨
      ((∃ b ∈ String.utf8EncodeChar c, ¬ IsDigit b) ∧ digitValue? c = none) := by
  rcases Nat.lt_or_ge c.toNat 128 with hlt | hge
  · have hbyte : String.utf8EncodeChar c = [c.val.toUInt8] :=
      String.utf8EncodeChar_eq_singleton
        (Char.utf8Size_eq_one_iff.mpr (UInt32.le_iff_toNat_le.mpr (Nat.le_of_lt_succ hlt)))
    rw [digitValue?_of_lt c hlt]
    by_cases hdigit : IsDigit c.val.toUInt8
    · rw [if_pos hdigit]
      exact Or.inl ⟨_, hbyte, hdigit, rfl⟩
    · rw [if_neg hdigit, hbyte]
      exact Or.inr ⟨⟨_, List.mem_singleton_self _, hdigit⟩, rfl⟩
  · exact Or.inr ⟨exists_not_isDigit c hge, digitValue?_of_le c hge⟩

/-- Reading on over some text: all its bytes have to be digits. What was read before is
    shifted by as many places as they are, and what they denote is added. -/
theorem continueValue?_eq_some_iff (read n : Nat) (text : List Char) :
    continueValue? read text = some n ↔
      (∀ b ∈ utf8 text, IsDigit b) ∧
        16 ^ (utf8 text).length * read + denoted (utf8 text) = n := by
  induction text generalizing read with
  | nil => simp [continueValue?, utf8, denoted]
  | cons c rest ih =>
      rw [continueValue?, utf8_cons]
      rcases digitValue?_cases c with ⟨b, hbyte, hdigit, hvalue⟩ | ⟨⟨b, hmem, hdigit⟩, hvalue⟩
      · have hall : (∀ d ∈ b :: utf8 rest, IsDigit d) ↔ ∀ d ∈ utf8 rest, IsDigit d :=
          List.forall_mem_cons.trans (and_iff_right hdigit)
        have hshift : 16 ^ (utf8 rest).length * (16 * read + byteValue b) + denoted (utf8 rest) =
            16 ^ (b :: utf8 rest).length * read + denoted (b :: utf8 rest) := by
          rw [denoted_cons, List.length_cons, Nat.pow_succ, Nat.mul_add, Nat.mul_assoc,
            Nat.add_assoc]
        rw [hvalue, hbyte]
        simp only
        rw [ih, List.singleton_append, hall, hshift]
      · rw [hvalue]
        simp only
        exact iff_of_false (Option.some_ne_none n).symm
          fun h => hdigit (h.1 b (List.mem_append_left _ hmem))

/-- A text is a numeral if it is not empty and all its bytes are digits. It is read as the
    number they denote. -/
theorem value?_eq_some_iff (text : List Char) (n : Nat) :
    value? text = some n ↔
      text ≠ [] ∧ (∀ b ∈ utf8 text, IsDigit b) ∧ denoted (utf8 text) = n := by
  cases text with
  | nil => exact iff_of_false (Option.some_ne_none n).symm fun h => h.1 rfl
  | cons c rest =>
      rw [value?, continueValue?_eq_some_iff, Nat.mul_zero, Nat.zero_add]
      exact (and_iff_right (List.cons_ne_nil c rest)).symm

end Hex

end BoardSupport
