import Mathlib.Algebra.Group.Nat.Defs
import BoardSupport.Text.Hex

/-!
# Reading Numerals Back

A number that was written in base sixteen is read back, in either letter case
and with any number of leading zeros.

Reading goes on from a value already read, so the induction is on the digits
with that value as its parameter: the digits of `n` shift it by as many places
as they are and add `n`. Leading zeros shift nothing, zero being what reading
starts from.

A number below sixteen to the width fills the width exactly. This is what lets
numerals be written one after another with nothing between them.

## Theorems

* `Hex.digitValue?_digitChar`: A digit is read back.
* `Hex.continueValue?_digits`: Reading the digits of a number.
* `Hex.value?_spellChars`: A numeral is read back.
* `Hex.length_spellChars`: A number that fits fills the width.
* `Hex.not_mem_spellChars`: A numeral is made of digits.
-/

namespace BoardSupport

namespace Hex

/-- A digit in either letter case is read as its value. -/
theorem digitValue?_digitChar (letters : Case) (d : Nat) (h : d < 16) :
    digitValue? (digitChar letters d) = some d := by
  have hall : ∀ d : Fin 16, digitValue? (digitChar letters d.val) = some d.val := by
    cases letters with
    | lower => decide
    | upper => decide
  exact hall ⟨d, h⟩

theorem digits_lt (n : Nat) : ∀ d ∈ digits n, d < 16 := by
  induction n using digits.induct with
  | case1 n hsmall =>
      intro d hd
      rw [digits, if_pos hsmall, List.mem_singleton] at hd
      rw [hd]
      exact hsmall
  | case2 n hlarge ih =>
      intro d hd
      rw [digits, if_neg hlarge, List.mem_append, List.mem_singleton] at hd
      rcases hd with hd | hd
      · exact ih d hd
      · rw [hd]
        exact Nat.mod_lt n (by omega)

theorem digits_ne_nil (n : Nat) : digits n ≠ [] := by
  rw [digits]
  by_cases hsmall : n < 16
  · rw [if_pos hsmall]
    exact List.cons_ne_nil _ _
  · rw [if_neg hsmall]
    exact List.append_ne_nil_of_right_ne_nil _ (List.cons_ne_nil _ _)

/-- A number below sixteen to some width has no more digits than that. -/
theorem length_digits_le (n width : Nat) (hwidth : 0 < width) (h : n < 16 ^ width) :
    (digits n).length ≤ width := by
  -- Each digit taken off the end makes the number and the width smaller.
  induction n using digits.induct generalizing width with
  | case1 n hsmall =>
      rw [digits, if_pos hsmall, List.length_singleton]
      exact hwidth
  | case2 n hlarge ih =>
      obtain ⟨rest, rfl⟩ : ∃ rest, width = rest + 1 := ⟨width - 1, by omega⟩
      have hrest : 0 < rest := by
        rcases Nat.eq_zero_or_pos rest with rfl | hpos
        · exact absurd h hlarge
        · exact hpos
      have hquotient : n / 16 < 16 ^ rest := by
        rw [Nat.pow_succ] at h
        omega
      have hle := ih rest hrest hquotient
      rw [digits, if_neg hlarge, List.length_append, List.length_singleton]
      omega

/-- Reading on over two parts. -/
theorem continueValue?_append (read : Nat) (first rest : List Char) :
    continueValue? read (first ++ rest) =
      (continueValue? read first).bind fun read => continueValue? read rest := by
  induction first generalizing read with
  | nil => rfl
  | cons c more ih =>
      rw [List.cons_append, continueValue?, continueValue?]
      cases digitValue? c with
      | none => rfl
      | some d => exact ih (16 * read + d)

/-- Reading on over the digits of a number shifts what was read by their count
    and adds the number. -/
theorem continueValue?_digits (letters : Case) (read n : Nat) :
    continueValue? read ((digits n).map (digitChar letters)) =
      some (16 ^ (digits n).length * read + n) := by
  induction n using digits.induct generalizing read with
  | case1 n hsmall =>
      rw [digits, if_pos hsmall, List.map_singleton, continueValue?,
        digitValue?_digitChar letters n hsmall, List.length_singleton, Nat.pow_one]
      rfl
  | case2 n hlarge ih =>
      have hlast : n % 16 < 16 := Nat.mod_lt n (by omega)
      have hdigits : digits n = digits (n / 16) ++ [n % 16] := by
        rw [digits, if_neg hlarge]
      have hvalue : 16 * (16 ^ (digits (n / 16)).length * read + n / 16) + n % 16 =
          16 ^ ((digits (n / 16)).length + 1) * read + n := by
        rw [Nat.pow_succ, Nat.mul_add, ← Nat.mul_assoc, Nat.mul_comm 16 (16 ^ _)]
        omega
      rw [hdigits, List.map_append, continueValue?_append, ih read, Option.bind_some,
        List.map_singleton, continueValue?, digitValue?_digitChar letters _ hlast,
        List.length_append, List.length_singleton, ← hvalue]
      rfl

-- Zeros in front of a numeral leave what is read at zero.
theorem continueValue?_zeros (count : Nat) :
    continueValue? 0 (List.replicate count '0') = some 0 := by
  induction count with
  | zero => rfl
  | succ count ih => exact ih

/-- A numeral is read back, whatever its letter case and least width. -/
theorem value?_spellChars (letters : Case) (width n : Nat) :
    value? (spellChars letters width n) = some n := by
  have hread : continueValue? 0 (spellChars letters width n) = some n := by
    simp only [spellChars]
    rw [continueValue?_append, continueValue?_zeros, Option.bind_some,
      continueValue?_digits, Nat.mul_zero, Nat.zero_add]
  cases hchars : spellChars letters width n with
  | nil =>
      -- Every number has a digit.
      rw [spellChars, List.append_eq_nil_iff, List.map_eq_nil_iff] at hchars
      exact absurd hchars.2 (digits_ne_nil n)
  | cons c rest =>
      rw [hchars] at hread
      exact hread

/-- A number that fits the width is spelled with as many digits. -/
theorem length_spellChars (letters : Case) (width n : Nat) (hwidth : 0 < width)
    (h : n < 16 ^ width) : (spellChars letters width n).length = width := by
  have hle := length_digits_le n width hwidth h
  simp only [spellChars, List.length_append, List.length_replicate, List.length_map]
  omega

/-- A character that is no digit stands in no numeral. -/
theorem not_mem_spellChars (letters : Case) (width n : Nat) (c : Char)
    (h : digitValue? c = none) : c ∉ spellChars letters width n := by
  intro hmem
  simp only [spellChars, List.mem_append, List.mem_replicate, List.mem_map] at hmem
  rcases hmem with ⟨_, rfl⟩ | ⟨d, hd, rfl⟩
  · exact absurd h (by decide)
  · rw [digitValue?_digitChar letters d (digits_lt n d hd)] at h
    cases h

end Hex

end BoardSupport
