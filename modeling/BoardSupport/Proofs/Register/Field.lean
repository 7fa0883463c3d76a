import BoardSupport.Register.Field

/-!
# Bits of a Field

Replacing a field, bit by bit.

A field is a run of bits of its word. `getLsbD_put` says where every bit of the
word comes from after one field was replaced, and the laws of replacement are
read off it: the last of two replacements counts, and a flag that has been
replaced reads as what it was replaced with.

## Theorems

* `Register.Field.getLsbD_put`, `Register.Field.getLsbD_put_of_outside`: Each bit
  of a word with one field replaced.
* `Register.Field.get_congr`: What a field holds depends on its bits alone.
* `Register.Field.get_put`, `Register.Field.get_put_of_apart`: What a field holds
  after it or another was replaced.
* `Register.Field.setWidth_put`: The bits below a replaced field stay.
* `Register.put?_number`: Numbers that fit are not refused.
* `Register.Field.put_put`: The last of two replacements counts.
* `Register.isSet_put_flag`: A flag reads as what was put there.
* `Register.put_isSet_flag`, `Register.put_zero_flag`: Putting a flag where it is
  already changes nothing.
-/

namespace BoardSupport

namespace Register

variable {bits : Nat}

-- The limit less one has as many ones as the field has bits.
theorem Field.testBit_limit_sub_one (f : Field) (i : Nat) :
    (f.limit - 1).testBit i = decide (i < f.width) := by
  rw [Field.limit, Nat.one_shiftLeft, Nat.testBit_two_pow_sub_one]

-- What is left of a number below the limit are its bits inside the field.
theorem Field.testBit_mod_limit (f : Field) (value i : Nat) :
    (value % f.limit).testBit i = (decide (i < f.width) && value.testBit i) := by
  rw [Field.limit, Nat.one_shiftLeft, Nat.testBit_mod_two_pow]

/-- The bits of the field come from the value, all others stay. -/
theorem Field.getLsbD_put (f : Field) (value : Nat) (word : BitVec bits) (i : Nat) :
    (f.put value word).getLsbD i =
      (decide (i < bits) && if f.offset ≤ i ∧ i < f.offset + f.width then
        value.testBit (i - f.offset) else word.getLsbD i) := by
  unfold Field.put Field.mask
  simp only [BitVec.getLsbD_or, BitVec.getLsbD_and, BitVec.getLsbD_not,
    BitVec.getLsbD_shiftLeft, BitVec.getLsbD_ofNat, f.testBit_limit_sub_one,
    f.testBit_mod_limit]
  -- A bit is above the word, below the field, in it, or above it.
  by_cases hi : i < bits
  · by_cases ho : f.offset ≤ i
    · have hin : i - f.offset < bits := by omega
      by_cases hw : i < f.offset + f.width
      · have hwidth : i - f.offset < f.width := by omega
        simp [*, Nat.not_lt.mpr ho]
      · have hwidth : ¬ i - f.offset < f.width := by omega
        simp [*]
    · simp [hi, ho, Nat.lt_of_not_le ho]
  · simp [hi]

/-- The bits outside the field stay. -/
theorem Field.getLsbD_put_of_outside (f : Field) (value : Nat) (word : BitVec bits) (i : Nat)
    (h : i < f.offset ∨ f.offset + f.width ≤ i) :
    (f.put value word).getLsbD i = word.getLsbD i := by
  have hout : ¬ (f.offset ≤ i ∧ i < f.offset + f.width) := by omega
  rw [f.getLsbD_put, if_neg hout]
  by_cases hin : i < bits
  · rw [decide_eq_true hin, Bool.true_and]
  · rw [BitVec.getLsbD_of_ge word i (by omega), Bool.and_false]

/-- What a field holds depends on its bits alone. -/
theorem Field.get_congr {bits' : Nat} (f : Field) (v : BitVec bits) (w : BitVec bits')
    (h : ∀ i < f.width, v.getLsbD (f.offset + i) = w.getLsbD (f.offset + i)) :
    f.get v = f.get w := by
  refine Nat.eq_of_testBit_eq fun i => ?_
  have hv : (v >>> f.offset).toNat.testBit i = v.getLsbD (f.offset + i) :=
    BitVec.getLsbD_ushiftRight v f.offset i
  have hw : (w >>> f.offset).toNat.testBit i = w.getLsbD (f.offset + i) :=
    BitVec.getLsbD_ushiftRight w f.offset i
  rw [Field.get, Field.get, f.testBit_mod_limit, f.testBit_mod_limit, hv, hw]
  by_cases hi : i < f.width
  · rw [h i hi]
  · rw [decide_eq_false hi, Bool.false_and, Bool.false_and]

/-- A field holds the low bits of what was put there. -/
theorem Field.get_put (f : Field) (value : Nat) (word : BitVec bits)
    (h : f.offset + f.width ≤ bits) : f.get (f.put value word) = value % f.limit := by
  refine Nat.eq_of_testBit_eq fun i => ?_
  have hword : (f.put value word >>> f.offset).toNat.testBit i =
      (f.put value word).getLsbD (f.offset + i) :=
    BitVec.getLsbD_ushiftRight _ f.offset i
  rw [Field.get, f.testBit_mod_limit, f.testBit_mod_limit, hword, f.getLsbD_put]
  by_cases hi : i < f.width
  · have hin : f.offset + i < bits := by omega
    rw [if_pos ⟨by omega, by omega⟩, Nat.add_sub_cancel_left, decide_eq_true hin, Bool.true_and]
  · rw [decide_eq_false hi, Bool.false_and, Bool.false_and]

/-- A field that lies apart from the one replaced holds what it held. -/
theorem Field.get_put_of_apart (f g : Field) (value : Nat) (word : BitVec bits)
    (h : f.offset + f.width ≤ g.offset ∨ g.offset + g.width ≤ f.offset) :
    f.get (g.put value word) = f.get word :=
  f.get_congr _ _ fun i hi => g.getLsbD_put_of_outside value word _ (by omega)

/-- The bits below a field stay when it is replaced. -/
theorem Field.setWidth_put (f : Field) (value low : Nat) (word : BitVec bits)
    (h : low ≤ f.offset) : (f.put value word).setWidth low = word.setWidth low := by
  refine BitVec.eq_of_getLsbD_eq fun i hi => ?_
  rw [BitVec.getLsbD_setWidth, BitVec.getLsbD_setWidth,
    f.getLsbD_put_of_outside value word i (by omega)]

/-- A number that is not too large is put into its field. -/
theorem put?_number (name : String) (offset width value : Nat) (word : BitVec bits)
    (h : value < (number name offset width).limit) :
    (number name offset width).put? value word =
      some ((number name offset width).put value word) := by
  have hcontents : (number name offset width).contents? value = some value := if_pos h
  rw [Field.put?, hcontents, Option.map_some]

/-- The last of two replacements of a field counts. -/
theorem Field.put_put (f : Field) (value value' : Nat) (word : BitVec bits) :
    f.put value (f.put value' word) = f.put value word := by
  refine BitVec.eq_of_getLsbD_eq fun i hi => ?_
  rw [f.getLsbD_put, f.getLsbD_put, f.getLsbD_put]
  by_cases hin : f.offset ≤ i ∧ i < f.offset + f.width
  · rw [if_pos hin, if_pos hin]
  · rw [if_neg hin, if_neg hin, if_neg hin, decide_eq_true hi, Bool.true_and]

/-- A flag is set if its bit is. -/
theorem isSet_flag (name : String) (offset : Nat) (word : BitVec bits) :
    (flag name offset).isSet word = word.getLsbD offset := by
  have hbit : (word >>> offset).getLsbD 0 = word.getLsbD offset := by
    rw [BitVec.getLsbD_ushiftRight, Nat.add_zero]
  rw [← hbit, BitVec.getLsbD, Nat.testBit_zero]
  have hlimit : (flag name offset).limit = 2 := rfl
  unfold Field.isSet Field.get
  rw [hlimit]
  rcases Nat.mod_two_eq_zero_or_one (word >>> offset).toNat with h | h
  · simp only [flag, h]
    rfl
  · simp only [flag, h]
    rfl

/-- A flag reads as what was put there. -/
theorem isSet_put_flag (name : String) (offset value : Nat) (word : BitVec bits)
    (h : offset < bits) :
    (flag name offset).isSet ((flag name offset).put value word) = value.testBit 0 := by
  rw [isSet_flag, Field.getLsbD_put, decide_eq_true h, Bool.true_and,
    if_pos ⟨Nat.le_refl offset, Nat.lt_succ_self offset⟩]
  simp only [flag, Nat.sub_self]

/-- Putting a flag where it is already changes nothing. -/
theorem put_isSet_flag (name : String) (offset : Nat) (word : BitVec bits) (b : Bool)
    (h : (flag name offset).isSet word = b) : (flag name offset).put b.toNat word = word := by
  rw [isSet_flag] at h
  refine BitVec.eq_of_getLsbD_eq fun i hi => ?_
  rw [Field.getLsbD_put, decide_eq_true hi, Bool.true_and]
  by_cases hin : (flag name offset).offset ≤ i ∧
      i < (flag name offset).offset + (flag name offset).width
  · have hio : i = offset := Nat.le_antisymm (Nat.le_of_lt_succ hin.2) hin.1
    rw [if_pos hin, hio, h]
    cases b <;> simp [flag]
  · exact if_neg hin

/-- Dropping a flag that is not set changes nothing. -/
theorem put_zero_flag (name : String) (offset : Nat) (word : BitVec bits)
    (h : (flag name offset).isSet word = false) : (flag name offset).put 0 word = word :=
  put_isSet_flag name offset word false h

end Register

end BoardSupport
