import BoardSupport.I2c.Divisors
import BoardSupport.I2c.Registers
import BoardSupport.Proofs.Register.Field

/-!
# Divisors That Fit

The divisors a search delivers can be put into the control register, and are
read back from it.

The search starts from an estimate in the range of the first divisor and never
leaves that range, since the divisor restarts in the middle of it. Past the
range of the second divisor nothing is found.

The two fields are the upper byte of the control register. Putting divisors
there leaves the lower byte alone, in which everything else is controlled.

## Main definitions

* `I2c.Divisors.Fits`: Divisors that fit the control register.
* `I2c.Divisors.into`: The control register with divisors put into it.
* `I2c.Divisors.ofControl`: The divisors it holds.

## Theorems

* `I2c.Divisors.estimate_fits`: The search starts from such divisors.
* `I2c.Divisors.search_fits`: It finds no others.
* `I2c.Divisors.forFrequency_fits`: Nor does a request deliver others.
* `I2c.Divisors.forFrequency_clock`: The clock reported is theirs.
* `I2c.Divisors.put?_divA`, `I2c.Divisors.put?_divB`: They are not refused.
* `I2c.Divisors.ofControl_into`, `I2c.Divisors.setWidth_into`: They are read
  back, and the lower byte stays.
-/

namespace BoardSupport

namespace I2c

namespace Divisors

/-- Divisors that fit the control register: six bits and two. -/
def Fits (d : Divisors) : Prop :=
  d.a ≤ 63 ∧ d.b ≤ 3

instance (d : Divisors) : Decidable d.Fits :=
  inferInstanceAs (Decidable (d.a ≤ 63 ∧ d.b ≤ 3))

theorem estimate_fits (input requested : UInt32) : (estimate input requested).Fits := by
  unfold estimate
  simp only
  split
  · exact ⟨Nat.zero_le _, Nat.zero_le _⟩
  split
  · rename_i hle
    exact ⟨Nat.le_of_lt_succ (Nat.mod_lt _ (by decide)), hle⟩
  · exact ⟨Nat.le_refl _, Nat.le_refl _⟩

-- The search never leaves the range of the first divisor, and looks at nothing
-- beyond that of the second.
theorem search_fits (input requested : UInt32) (d found : Divisors) (ha : d.a ≤ maxA)
    (h : search input requested d = some found) : found.Fits := by
  induction d using search.induct input requested with
  | case1 d hb hslow =>
      rw [search, if_pos hb, if_pos hslow] at h
      cases h
      exact ⟨ha, hb⟩
  | case2 d hb hfast ih =>
      rw [search, if_pos hb, if_neg hfast] at h
      refine ih ?_ h
      unfold next
      have hA : maxA = 63 := rfl
      split
      · rename_i hlt
        exact hlt
      · simp only [hA]
        omega
  | case3 d hb =>
      rw [search, if_neg hb] at h
      cases h

/-- Divisors that are found fit their fields. -/
theorem forFrequency_fits (input requested : UInt32) (d : Divisors) (actual : Nat)
    (h : forFrequency input requested = .ok (d, actual)) : d.Fits := by
  unfold forFrequency at h
  split at h
  · cases h
  split at h
  · rename_i found hfound
    cases h
    exact search_fits input requested _ _ (estimate_fits input requested).1 hfound
  · cases h

/-- The clock that is reported is the one the divisors give. -/
theorem forFrequency_clock (input requested : UInt32) (d : Divisors) (actual : Nat)
    (h : forFrequency input requested = .ok (d, actual)) : actual = d.clock input := by
  unfold forFrequency at h
  split at h
  · cases h
  split at h
  · cases h
    rfl
  · cases h

/-- The control register with these divisors put into it. -/
def into (d : Divisors) (cr : BitVec 16) : BitVec 16 :=
  Control.divB.put d.b (Control.divA.put d.a cr)

/-- The divisors that the control register holds. -/
def ofControl (cr : BitVec 16) : Divisors :=
  (ofPair? (Control.divA.get cr) (Control.divB.get cr)).getD slowest

section Packed

variable (d : Divisors) (cr : BitVec 16) (h : d.Fits)

include h

-- The limit of a field is one more than the largest divisor.
theorem a_lt_limit : d.a < Control.divA.limit := by
  have hA : Divisors.maxA < Control.divA.limit := by decide
  exact Nat.lt_of_le_of_lt h.1 hA

theorem b_lt_limit : d.b < Control.divB.limit := by
  have hB : Divisors.maxB < Control.divB.limit := by decide
  exact Nat.lt_of_le_of_lt h.2 hB

theorem put?_divA : Control.divA.put? d.a cr = some (Control.divA.put d.a cr) :=
  Register.put?_number "div_a" 8 6 d.a cr (d.a_lt_limit h)

theorem put?_divB : Control.divB.put? d.b cr = some (Control.divB.put d.b cr) :=
  Register.put?_number "div_b" 14 2 d.b cr (d.b_lt_limit h)

/-- Divisors that were put into the control register are read back. -/
theorem ofControl_into : ofControl (d.into cr) = d := by
  -- The fields lie apart, so the second divisor does not spoil the first.
  have ha : Control.divA.get (d.into cr) = d.a := by
    rw [into, Register.Field.get_put_of_apart _ _ _ _ (Or.inl (by decide)),
      Register.Field.get_put _ _ _ (by decide), Nat.mod_eq_of_lt (d.a_lt_limit h)]
  have hb : Control.divB.get (d.into cr) = d.b := by
    rw [into, Register.Field.get_put _ _ _ (by decide), Nat.mod_eq_of_lt (d.b_lt_limit h)]
  have hfit : ofPair? d.a d.b = some d := if_pos h
  rw [ofControl, ha, hb, hfit]
  rfl

end Packed

/-- Below the divisors the control register stays as it was. -/
theorem setWidth_into (d : Divisors) (cr : BitVec 16) :
    (d.into cr).setWidth 8 = cr.setWidth 8 := by
  rw [into, Register.Field.setWidth_put _ _ _ _ (by decide),
    Register.Field.setWidth_put _ _ _ _ (by decide)]

end Divisors

end I2c

end BoardSupport
