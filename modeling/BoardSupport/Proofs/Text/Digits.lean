import BoardSupport.Proofs.Text.Numeral

/-!
# Rows of Digits as Text

Bytes that are digits are characters, each of them one.

A row of digits can therefore be taken as text without regard for where characters begin
and end, and a text whose bytes are digits can be taken for these bytes. What such a row
denotes is bounded by how long it is.

## Theorems

* `Text.utf8_digits`, `Text.map_ofUInt8_utf8`: Digits as bytes and as characters.
* `Text.fromUTF8?_digits`: Digits are always text.
* `Hex.denoted_lt`: How large the number is that digits denote.
-/

namespace BoardSupport

namespace Text

/-- Digits are characters of one byte. -/
theorem utf8_digits (digits : List UInt8) (h : ∀ b ∈ digits, Hex.IsDigit b) :
    utf8 (digits.map Char.ofUInt8) = digits := by
  induction digits with
  | nil => rfl
  | cons b rest ih =>
      have hb : b.toNat < 128 := by
        have hdigit := h b List.mem_cons_self
        simp only [Hex.IsDigit, UInt8.le_iff_toNat_le, UInt8.reduceToNat] at hdigit
        omega
      have hsize : (Char.ofUInt8 b).utf8Size = 1 := by
        refine Char.utf8Size_eq_one_iff.mpr (UInt32.le_iff_toNat_le.mpr ?_)
        have hval : (Char.ofUInt8 b).val.toNat = b.toNat := UInt8.toNat_toUInt32 b
        rw [hval]
        exact Nat.le_of_lt_succ hb
      have hbyte : String.utf8EncodeChar (Char.ofUInt8 b) = [b] := by
        rw [String.utf8EncodeChar_eq_singleton hsize]
        exact congrArg (fun byte => [byte]) (UInt8.toUInt8_toUInt32 b)
      rw [List.map_cons, utf8_cons, hbyte, ih fun d hd => h d (List.mem_cons_of_mem b hd)]
      rfl

/-- A text whose bytes are digits consists of these bytes as characters. -/
theorem map_ofUInt8_utf8 (text : List Char) (h : ∀ b ∈ utf8 text, Hex.IsDigit b) :
    (utf8 text).map Char.ofUInt8 = text := by
  induction text with
  | nil => rfl
  | cons c rest ih =>
      rw [utf8_cons] at h ⊢
      obtain ⟨hfirst, hrest⟩ := List.forall_mem_append.mp h
      rcases Nat.lt_or_ge c.toNat 128 with hlt | hge
      · have hbyte : String.utf8EncodeChar c = [c.val.toUInt8] :=
          String.utf8EncodeChar_eq_singleton
            (Char.utf8Size_eq_one_iff.mpr (UInt32.le_iff_toNat_le.mpr (Nat.le_of_lt_succ hlt)))
        have hsame : Char.ofUInt8 c.val.toUInt8 = c := by
          have hsmall : c.val.toNat < 256 := Nat.lt_trans hlt (by omega)
          refine Char.ext (UInt32.toNat_inj.mp ?_)
          calc
            (Char.ofUInt8 c.val.toUInt8).val.toNat = c.val.toUInt8.toNat :=
              UInt8.toNat_toUInt32 _
            _ = c.val.toNat := by rw [UInt32.toNat_toUInt8, Nat.mod_eq_of_lt hsmall]
        rw [hbyte, List.map_append, ih hrest, List.map_singleton, hsame]
        rfl
      · obtain ⟨b, hb, hnot⟩ := Hex.exists_not_isDigit c hge
        exact absurd (hfirst b hb) hnot

/-- Digits are taken as text. -/
theorem fromUTF8?_digits (digits : List UInt8) (h : ∀ b ∈ digits, Hex.IsDigit b) :
    String.fromUTF8? digits.toByteArray = some (String.ofList (digits.map Char.ofUInt8)) := by
  have hbytes : digits.toByteArray = (digits.map Char.ofUInt8).utf8Encode := by
    rw [List.utf8Encode]
    exact congrArg List.toByteArray (utf8_digits digits h).symm
  rw [String.fromUTF8?, dif_pos (.intro _ hbytes), Option.some.injEq]
  exact String.toByteArray_inj.mp hbytes

end Text

namespace Hex

/-- Digits denote less than the next number of more digits. -/
theorem denoted_lt (digits : List UInt8) (h : ∀ b ∈ digits, IsDigit b) :
    denoted digits < 16 ^ digits.length := by
  have hvalue : ∀ d ∈ digits.reverse.map byteValue, d < 16 := by
    intro d hd
    obtain ⟨b, hb, rfl⟩ := List.mem_map.mp hd
    have hdigit := h b (List.mem_reverse.mp hb)
    simp only [IsDigit, byteValue, UInt8.le_iff_toNat_le, UInt8.reduceToNat] at hdigit ⊢
    split
    · omega
    · split <;> omega
  have hlt := Nat.ofDigits_lt_base_pow_length (by decide) hvalue
  rwa [List.length_map, List.length_reverse] at hlt

end Hex

end BoardSupport
