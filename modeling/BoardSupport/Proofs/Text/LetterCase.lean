import BoardSupport.Proofs.Text.Numeral

/-!
# Numerals in Either Letter Case

Two numerals with as many digits denote the same number exactly if they differ at most
in the case of their letters.

A digit counts for the same in either case, so one direction is that reading does not
see the case. For the other the two numerals are read side by side. What was read
before a digit and the digit itself can both be told from what was read after it, so
two rows of digits that end at the same number agree from the end to the beginning.

Together with the width this says which texts a reader with a fixed number of digits
takes for some number: the numeral of that width, in any mixture of the two cases.

## Main definitions

* `Text.EqUpToCase`: Texts that differ at most in letter case.

## Theorems

* `Text.eqUpToCase_append`: Texts are compared part by part.
* `Hex.value?_congr`: Letter case does not matter to a reader.
* `Hex.continueValue?_inj`: Rows of digits that end at the same number.
* `Hex.value?_eq_some_iff_eqUpToCase`: The texts of a fixed width that denote a number.
-/

namespace BoardSupport

namespace Text

/-- The texts differ at most in the case of their ASCII letters. -/
def EqUpToCase (first second : List Char) : Prop :=
  first.map Char.toLower = second.map Char.toLower

instance (first second : List Char) : Decidable (EqUpToCase first second) :=
  inferInstanceAs (Decidable (_ = _))

theorem EqUpToCase.length_eq {first second : List Char} (h : EqUpToCase first second) :
    first.length = second.length := by
  have hlength := congrArg List.length h
  rwa [List.length_map, List.length_map] at hlength

/-- A text is compared with two others in a row by cutting it where the first of them
    ends. -/
theorem eqUpToCase_append (text first second : List Char) :
    EqUpToCase text (first ++ second) ↔
      EqUpToCase (text.take first.length) first ∧
        EqUpToCase (text.drop first.length) second := by
  unfold EqUpToCase
  have hlength : first.length = (first.map Char.toLower).length := by
    rw [List.length_map]
  constructor
  · intro h
    rw [List.map_append] at h
    rw [List.map_take, List.map_drop, h, hlength]
    exact ⟨List.take_left, List.drop_left⟩
  · rintro ⟨hfirst, hsecond⟩
    rw [← List.take_append_drop first.length text, List.map_append, List.map_append, hfirst,
      hsecond]

end Text

namespace Hex

open Text (EqUpToCase)

/-- Only ASCII letters have a case. -/
theorem toLower_of_le (c : Char) (h : 128 ≤ c.toNat) : c.toLower = c := by
  have hupper : ¬(c.val ≥ 'A'.val ∧ c.val ≤ 'Z'.val) := by
    intro hc
    have hle : c.toNat ≤ 90 := UInt32.le_iff_toNat_le.mp hc.2
    omega
  exact dif_neg hupper

-- Below 128 there are few enough characters to look at all of them, and from there on
-- none is a digit.
theorem toLower_cases (c : Char) :
    digitValue? c.toLower = digitValue? c ∧
      ∀ d, digitValue? c = some d → d < 16 ∧ c.toLower = digitChar .lower d := by
  rcases Nat.lt_or_ge c.toNat 128 with hlt | hge
  · have hall : ∀ n : Fin 128,
        digitValue? (Char.ofNat n).toLower = digitValue? (Char.ofNat n) ∧
          (digitValue? (Char.ofNat n)).all fun d =>
            decide (d < 16) && (Char.ofNat n).toLower == digitChar .lower d := by
      decide
    have hc := hall ⟨c.toNat, hlt⟩
    rw [Char.ofNat_toNat] at hc
    refine ⟨hc.1, fun d hd => ?_⟩
    have hletter := hc.2
    rw [hd, Option.all_some, Bool.and_eq_true] at hletter
    exact ⟨of_decide_eq_true hletter.1, beq_iff_eq.mp hletter.2⟩
  · rw [toLower_of_le c hge, digitValue?_of_le c hge]
    exact ⟨rfl, nofun⟩

/-- A digit is read alike in either case. -/
theorem digitValue?_toLower (c : Char) : digitValue? c.toLower = digitValue? c :=
  (toLower_cases c).1

theorem lt_of_digitValue? (c : Char) (d : Nat) (h : digitValue? c = some d) : d < 16 :=
  ((toLower_cases c).2 d h).1

/-- Digits of the same value differ at most in case. -/
theorem toLower_of_digitValue? (c : Char) (d : Nat) (h : digitValue? c = some d) :
    c.toLower = digitChar .lower d :=
  ((toLower_cases c).2 d h).2

theorem continueValue?_toLower (read : Nat) (text : List Char) :
    continueValue? read (text.map Char.toLower) = continueValue? read text := by
  induction text generalizing read with
  | nil => rfl
  | cons c rest ih =>
      rw [List.map_cons, continueValue?, continueValue?, digitValue?_toLower]
      cases digitValue? c with
      | none => rfl
      | some d => exact ih (16 * read + d)

/-- Letter case does not matter to a reader. -/
theorem value?_congr (first second : List Char) (h : EqUpToCase first second) :
    value? first = value? second := by
  have hlower (text : List Char) : value? (text.map Char.toLower) = value? text := by
    cases text with
    | nil => rfl
    | cons c rest => exact continueValue?_toLower 0 (c :: rest)
  rw [← hlower first, ← hlower second, h]

/-- Rows of as many digits that end at the same number started from the same number, and
    differ at most in case. -/
theorem continueValue?_inj (read read' n : Nat) (first second : List Char)
    (hlength : first.length = second.length) (h : continueValue? read first = some n)
    (h' : continueValue? read' second = some n) :
    read = read' ∧ EqUpToCase first second := by
  -- Induction on both rows: what the rest of them started from is the same, and it is
  -- made up of what was read before and a digit below sixteen.
  induction first generalizing read read' second with
  | nil =>
      rw [List.eq_nil_of_length_eq_zero hlength.symm] at h' ⊢
      rw [continueValue?, Option.some.injEq] at h h'
      exact ⟨h.trans h'.symm, rfl⟩
  | cons c rest ih =>
      obtain ⟨c', rest', rfl⟩ := List.exists_cons_of_length_eq_add_one hlength.symm
      rw [continueValue?] at h h'
      cases hc : digitValue? c with
      | none =>
          rw [hc] at h
          cases h
      | some d =>
          cases hc' : digitValue? c' with
          | none =>
              rw [hc'] at h'
              cases h'
          | some d' =>
              rw [hc] at h
              rw [hc'] at h'
              obtain ⟨hstart, hrest⟩ := ih _ _ rest' (Nat.succ.inj hlength) h h'
              have hd := lt_of_digitValue? c d hc
              have hd' := lt_of_digitValue? c' d' hc'
              obtain ⟨rfl, rfl⟩ : read = read' ∧ d = d' := by omega
              refine ⟨rfl, ?_⟩
              unfold EqUpToCase at hrest ⊢
              rw [List.map_cons, List.map_cons, hrest, toLower_of_digitValue? c d hc,
                toLower_of_digitValue? c' d hc']

theorem continueValue?_of_value? (text : List Char) (n : Nat) (h : value? text = some n) :
    continueValue? 0 text = some n := by
  cases text with
  | nil => cases h
  | cons c rest => exact h

/-- With a fixed number of digits, what denotes a number is its numeral in either case. -/
theorem value?_eq_some_iff_eqUpToCase (width n : Nat) (hwidth : 0 < width) (h : n < 16 ^ width)
    (text : List Char) :
    text.length = width ∧ value? text = some n ↔ EqUpToCase text (spellChars .lower width n) := by
  have hlength := length_spellChars .lower width n hwidth h
  have hvalue := value?_spellChars .lower width n
  constructor
  · rintro ⟨htext, hread⟩
    exact (continueValue?_inj 0 0 n text _ (htext.trans hlength.symm)
      (continueValue?_of_value? _ _ hread) (continueValue?_of_value? _ _ hvalue)).2
  · intro hsame
    exact ⟨hsame.length_eq.trans hlength, (value?_congr _ _ hsame).trans hvalue⟩

end Hex

end BoardSupport
