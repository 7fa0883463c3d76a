import BoardSupport.Proofs.I2c.Search

/-!
# How Fast a Bus Is Found

Whether a faster bus would have met the request too, and how the clocks found for
different requests compare.

Pairs with the same second divisor form a row. A walk starts somewhere in the row
that the estimate points at, and it does not look at the pairs behind it: those of
earlier rows, and the ones before it in its own. One fact about these pairs is kept
by every step. Either all of them are too fast, or some pair still ahead in the row
is no faster than any of them and no slower than the request. In the second case the
walk stops no later than at that pair, with exactly the clock that was requested.

From this it follows that no pair of the row reached, or of an earlier one, would
have been better. Later rows are not looked at, and a ratio may occur there that the
row reached steps over. The rows divide by multiples of one, two, three and four, so
between two neighbours of a row there is at most one such ratio, that of the `rival`.
What is found is therefore not always the fastest clock there is, but it is close.

What one request finds is missed by no other, though. A row is reached only when no
clock of the rows before it is slower than the request, so whatever was found there is
available to every other request that it does not exceed. A slower request never gets a
faster bus, and a clock that was found is found again when it is asked for.

## Main definitions

* `I2c.Divisors.Behind`: The pairs that a walk has behind it.
* `I2c.Divisors.Passed`: What is known of them.
* `I2c.Divisors.Found`: What a search has found.
* `I2c.Divisors.rival`: The one pair that may be better.
* `I2c.Divisors.Better`: A pair that would have been better.

## Theorems

* `I2c.Divisors.ratio_le_iff`, `I2c.Divisors.ratio_lt_iff`: Ratios compared by what the
  divisors multiply to.
* `I2c.Divisors.clock_le_clock`, `I2c.Divisors.clock_le_of_row`: A larger ratio gives a
  slower clock, and so does a later pair of a row.
* `I2c.Divisors.passed_estimate`, `I2c.Divisors.passed_next`: What is known of the
  pairs behind a walk, where it starts and after each step.
* `I2c.Divisors.forFrequency_found`: What a request delivers was found in this way.
* `I2c.Divisors.Found.le_clock`: No pair behind is slower than the request.
* `I2c.Divisors.Found.clock_le`: No pair of the row, or of an earlier one, is better.
* `I2c.Divisors.Found.clock_le_clock`: Clocks found for different requests.
* `I2c.Divisors.Found.eq_rival`: No pair but the rival is better.
* `I2c.Divisors.forFrequency_fastest_iff`: When the clock found is the fastest.
* `I2c.Divisors.forFrequency_mono`: A slower request never gets a faster bus.
* `I2c.Divisors.forFrequency_idempotent`: A clock that was found is found again.
-/

namespace BoardSupport

namespace I2c

namespace Divisors

section Order

variable (input : UInt32)

theorem ratio_eq_mul (d : Divisors) : d.ratio = 22 * ((d.a + 1) * (d.b + 1)) :=
  Nat.mul_assoc _ _ _

theorem ratio_le_iff (d e : Divisors) :
    e.ratio ≤ d.ratio ↔ (e.a + 1) * (e.b + 1) ≤ (d.a + 1) * (d.b + 1) := by
  rw [ratio_eq_mul, ratio_eq_mul]
  exact Nat.mul_le_mul_left_iff (by decide)

theorem ratio_lt_iff (d e : Divisors) :
    e.ratio < d.ratio ↔ (e.a + 1) * (e.b + 1) < (d.a + 1) * (d.b + 1) := by
  rw [ratio_eq_mul, ratio_eq_mul]
  exact Nat.mul_lt_mul_left (by decide)

/-- A larger ratio gives a slower clock. -/
theorem clock_le_clock (d e : Divisors) (h : e.ratio ≤ d.ratio) :
    d.clock input ≤ e.clock input :=
  Nat.div_le_div_left h e.ratio_pos

theorem ratio_lt_of_clock_lt (d e : Divisors) (h : d.clock input < e.clock input) :
    e.ratio < d.ratio :=
  Nat.lt_of_not_le fun hle => Nat.not_le_of_lt h (clock_le_clock input e d hle)

/-- Smaller divisors have a smaller ratio. -/
theorem ratio_le_ratio (d e : Divisors) (ha : e.a ≤ d.a) (hb : e.b ≤ d.b) :
    e.ratio ≤ d.ratio :=
  (ratio_le_iff d e).mpr (Nat.mul_le_mul (Nat.succ_le_succ ha) (Nat.succ_le_succ hb))

/-- Within a row a smaller first divisor gives a faster clock. -/
theorem clock_le_of_row (d e : Divisors) (hrow : e.b = d.b) (hcol : e.a ≤ d.a) :
    d.clock input ≤ e.clock input :=
  clock_le_clock input d e (ratio_le_ratio d e hcol (Nat.le_of_eq hrow))

/-- Pairs whose divisors multiply to no more than the request calls for are not
    slower than requested. -/
theorem le_clock_of_mul_le (requested : UInt32) (d : Divisors)
    (h : (d.a + 1) * (d.b + 1) ≤ input.toNat / (22 * requested.toNat)) :
    requested.toNat ≤ d.clock input := by
  have hmul : (d.a + 1) * (d.b + 1) * (22 * requested.toNat) ≤ input.toNat :=
    Nat.le_trans (Nat.mul_le_mul_right _ h) (Nat.div_mul_le_self _ _)
  have hratio : requested.toNat * d.ratio = (d.a + 1) * (d.b + 1) * (22 * requested.toNat) := by
    rw [ratio_eq_mul]
    ac_rfl
  exact (Nat.le_div_iff_mul_le d.ratio_pos).mpr (hratio ▸ hmul)

end Order

section Walk

/-- The pairs that a walk standing at `d` has behind it: those of earlier rows, and
    those before it in its own row. -/
def Behind (e d : Divisors) : Prop :=
  e.a ≤ maxA ∧ (e.b < d.b ∨ e.b = d.b ∧ e.a < d.a)

/-- What is known of the pairs that a walk has behind it. -/
inductive Passed (input requested : UInt32) (d : Divisors) : Prop where
  /-- All of them are too fast. -/
  | tooFast (h : ∀ e : Divisors, e.Behind d → requested.toNat < e.clock input)
  /-- None of them is slower than some pair still ahead in the row, and that one is
      not slower than requested. -/
  | covered (m : Divisors) (hrow : m.b = d.b) (hahead : d.a ≤ m.a) (hlast : m.a ≤ maxA)
      (hclock : requested.toNat ≤ m.clock input)
      (h : ∀ e : Divisors, e.Behind d → m.clock input ≤ e.clock input)

/-- None of the pairs behind is slower than requested. -/
theorem Passed.le_clock {input requested : UInt32} {d : Divisors}
    (hd : Passed input requested d) (e : Divisors) (he : e.Behind d) :
    requested.toNat ≤ e.clock input := by
  cases hd with
  | tooFast h => exact Nat.le_of_lt (h e he)
  | covered m hrow hahead hlast hclock h => exact Nat.le_trans hclock (h e he)

variable (input requested : UInt32)

/-- The pairs behind the next one are those behind this one, this one itself, and
    pairs that are faster than it. -/
theorem behind_next (d e : Divisors) (ha : d.a ≤ maxA) (he : e.Behind d.next) :
    e.Behind d ∨ d.clock input ≤ e.clock input := by
  have hA : maxA = 63 := rfl
  obtain ⟨hea, hwhere⟩ := he
  unfold next at hwhere
  by_cases hlt : d.a < maxA
  · rw [if_pos hlt] at hwhere
    simp only at hwhere
    rcases hwhere with hrow | ⟨hrow, hcol⟩
    · exact Or.inl ⟨hea, Or.inl hrow⟩
    · rcases Nat.lt_succ_iff_lt_or_eq.mp hcol with hcol | hcol
      · exact Or.inl ⟨hea, Or.inr ⟨hrow, hcol⟩⟩
      · exact Or.inr (clock_le_of_row input d e hrow (Nat.le_of_eq hcol))
  · rw [if_neg hlt] at hwhere
    simp only at hwhere
    have hlast : d.a = maxA := Nat.le_antisymm ha (Nat.le_of_not_lt hlt)
    refine Or.inr (clock_le_clock input d e ?_)
    rcases hwhere with hrow | ⟨hrow, hcol⟩
    · exact ratio_le_ratio d e (hlast ▸ hea) (Nat.le_of_lt_succ hrow)
    · -- Half of a row divides by less than the whole row before it.
      have hhalf : e.a + 1 ≤ 32 := by omega
      have hle : (e.a + 1) * (d.b + 2) ≤ 64 * (d.b + 1) :=
        Nat.le_trans (Nat.mul_le_mul_right _ hhalf) (by omega)
      rw [ratio_le_iff, hrow, hlast]
      exact hle

/-- A pair that is too fast is passed, and what is known of the pairs behind stays
    known. -/
theorem passed_next (d : Divisors) (ha : d.a ≤ maxA)
    (hfast : requested.toNat < d.clock input) (hd : Passed input requested d) :
    Passed input requested d.next := by
  cases hd with
  | tooFast h =>
      refine Passed.tooFast fun e he => ?_
      rcases behind_next input d e ha he with he | hle
      · exact h e he
      · exact Nat.lt_of_lt_of_le hfast hle
  | covered m hrow hahead hlast hclock h =>
      rcases Nat.lt_or_eq_of_le hahead with hlt | heq
      · -- The pair is still ahead, so the walk stays in the row.
        have hnext : d.next = ⟨d.a + 1, d.b⟩ := if_pos (Nat.lt_of_lt_of_le hlt hlast)
        have hmd : m.clock input ≤ d.clock input :=
          clock_le_of_row input m d hrow.symm hahead
        refine Passed.covered m (hnext ▸ hrow) (hnext ▸ hlt) hlast hclock fun e he => ?_
        rcases behind_next input d e ha he with he | hle
        · exact h e he
        · exact Nat.le_trans hmd hle
      · -- It is the pair the walk is at, so with it all are too fast.
        have hmd : m.clock input = d.clock input := by
          rw [clock, clock, ratio, ratio, hrow, heq]
        refine Passed.tooFast fun e he => Nat.lt_of_lt_of_le hfast ?_
        rcases behind_next input d e ha he with he | hle
        · exact hmd ▸ h e he
        · exact hle

/-- The largest multiple of `b + 1` up to the ratio called for belongs to a pair of the
    row that the estimate points at: not before the estimate, and no smaller than any
    ratio of an earlier row. -/
theorem multiple_in_row (a b quotient : Nat) (ha : a ≤ maxA) (hb : b ≤ maxB)
    (h : quotient = (64 * b + a + 1) / (b + 1)) :
    a + 1 ≤ quotient ∧ quotient ≤ maxA + 1 ∧ 64 * b ≤ quotient * (b + 1) := by
  have hA : maxA = 63 := rfl
  have hB : maxB = 3 := rfl
  have hrow : b = 0 ∨ b = 1 ∨ b = 2 ∨ b = 3 := by omega
  rcases hrow with rfl | rfl | rfl | rfl <;> omega

/-- What is known of the pairs behind an estimate that is read off the ratio. -/
theorem passed_of_ratio (a b : Nat) (ha : a ≤ maxA) (hb : b ≤ maxB)
    (h : input.toNat / (22 * requested.toNat) = 64 * b + a + 1) :
    Passed input requested ⟨a, b⟩ := by
  obtain ⟨quotient, hquotient⟩ : ∃ quotient, quotient = (64 * b + a + 1) / (b + 1) := ⟨_, rfl⟩
  obtain ⟨hahead, hlast, hrows⟩ := multiple_in_row a b quotient ha hb hquotient
  obtain ⟨col, rfl⟩ : ∃ col, quotient = col + 1 := ⟨quotient - 1, by omega⟩
  have hcalled : (col + 1) * (b + 1) ≤ 64 * b + a + 1 :=
    hquotient ▸ Nat.div_mul_le_self _ _
  have hahead : a ≤ col := Nat.le_of_succ_le_succ hahead
  refine Passed.covered ⟨col, b⟩ rfl hahead (Nat.le_of_succ_le_succ hlast)
    (le_clock_of_mul_le input requested _ (h ▸ hcalled)) fun e he => ?_
  rcases he.2 with hrow | ⟨hrow, hcol⟩
  · have hearlier : (e.a + 1) * (e.b + 1) ≤ 64 * b :=
      Nat.mul_le_mul (Nat.succ_le_succ he.1) hrow
    exact clock_le_clock input _ e ((ratio_le_iff _ e).mpr (Nat.le_trans hearlier hrows))
  · exact clock_le_of_row input ⟨col, b⟩ e hrow (Nat.le_of_lt (Nat.lt_of_lt_of_le hcol hahead))

/-- What is known of the pairs behind the estimate. -/
theorem passed_estimate : Passed input requested (estimate input requested) := by
  have hA : maxA = 63 := rfl
  have hB : maxB = 3 := rfl
  unfold estimate
  simp only
  by_cases hzero : input.toNat / (22 * requested.toNat) = 0
  · rw [if_pos hzero]
    refine Passed.tooFast fun e he => ?_
    rcases he.2 with hrow | ⟨_, hcol⟩
    · exact absurd hrow (Nat.not_lt_zero _)
    · exact absurd hcol (Nat.not_lt_zero _)
  · have hpos := Nat.pos_of_ne_zero hzero
    rw [if_neg hzero]
    by_cases hrange : (input.toNat / (22 * requested.toNat) - 1) / 64 ≤ maxB
    · rw [if_pos hrange]
      exact passed_of_ratio input requested _ _ (by omega) hrange (by omega)
    · rw [if_neg hrange]
      refine Passed.covered slowest rfl (Nat.le_refl _) (Nat.le_refl _)
        (le_clock_of_mul_le input requested slowest ?_) fun e he => ?_
      · change 256 ≤ _
        omega
      · refine clock_slowest_le input e ⟨he.1, ?_⟩
        rcases he.2 with hrow | ⟨hrow, _⟩
        · exact Nat.le_of_lt hrow
        · exact Nat.le_of_eq hrow

/-- What is known of the pairs behind a walk is known of what it finds. -/
theorem search_passed (d found : Divisors) (ha : d.a ≤ maxA) (hd : Passed input requested d)
    (h : search input requested d = some found) : Passed input requested found := by
  induction d using search.induct input requested with
  | case1 d hb hslow =>
      rw [search, if_pos hb, if_pos hslow] at h
      cases h
      exact hd
  | case2 d hb hfast ih =>
      rw [search, if_pos hb, if_neg hfast] at h
      exact ih (next_a_le d ha) (passed_next input requested d ha (Nat.lt_of_not_le hfast) hd) h
  | case3 d hb =>
      rw [search, if_neg hb] at h
      cases h

end Walk

section Answer

/-- What a search has found. -/
structure Found (input requested : UInt32) (d : Divisors) : Prop where
  requested_ne_zero : requested ≠ 0
  fits : d.Fits
  /-- Its clock does not exceed the request. -/
  clock_le_requested : d.clock input ≤ requested.toNat
  passed : Passed input requested d

variable {input requested : UInt32} {d : Divisors}

/-- What a request delivers was found by the search, with its own clock. -/
theorem forFrequency_found {actual : Nat}
    (h : forFrequency input requested = .ok (d, actual)) :
    Found input requested d ∧ actual = d.clock input := by
  have hne : requested ≠ 0 := by
    rintro rfl
    cases h
  have hestimate := estimate_fits input requested
  cases hsearch : search input requested (estimate input requested) with
  | none =>
      rw [forFrequency_of_none input requested hne hsearch] at h
      cases h
  | some found =>
      rw [forFrequency_of_some input requested hne found hsearch] at h
      cases h
      have hpassed := passed_estimate input requested
      exact ⟨⟨hne, search_fits input requested _ _ hestimate.1 hsearch,
        search_sound input requested _ _ hsearch,
        search_passed input requested _ _ hestimate.1 hpassed hsearch⟩, rfl⟩

namespace Found

/-- No pair of the row, or of an earlier one, has a faster clock that does not exceed
    the request. -/
theorem clock_le (hd : Found input requested d) (e : Divisors) (ha : e.a ≤ maxA)
    (hb : e.b ≤ d.b) (hslow : e.clock input ≤ requested.toNat) :
    e.clock input ≤ d.clock input := by
  by_cases hbehind : e.Behind d
  · cases hd.passed with
    | tooFast h => exact absurd hslow (Nat.not_le_of_lt (h e hbehind))
    | covered m hrow hahead hlast hclock h =>
        -- What is found is not slower than the pair ahead, whose clock is the one
        -- requested.
        exact Nat.le_trans hslow
          (Nat.le_trans hclock (clock_le_of_row input m d hrow.symm hahead))
  · have hrow : e.b = d.b :=
      Nat.le_antisymm hb (Nat.le_of_not_lt fun hlt => hbehind ⟨ha, Or.inl hlt⟩)
    have hcol : d.a ≤ e.a := Nat.le_of_not_lt fun hlt => hbehind ⟨ha, Or.inr ⟨hrow, hlt⟩⟩
    exact clock_le_of_row input e d hrow.symm hcol

/-- A clock that was found for one request is available to every other request that it
    does not exceed. -/
theorem clock_le_clock {requested' : UInt32} {d' : Divisors} (hd : Found input requested d)
    (hd' : Found input requested' d') (h : d.clock input ≤ requested'.toNat) :
    d.clock input ≤ d'.clock input := by
  by_cases hrow : d.b ≤ d'.b
  · exact hd'.clock_le d hd.fits.1 hrow h
  · -- The walk to `d` has the whole row of `d'` behind it, and with it its last pair.
    have hbehind : Behind ⟨maxA, d'.b⟩ d := ⟨Nat.le_refl _, Or.inl (Nat.lt_of_not_le hrow)⟩
    calc d.clock input ≤ requested.toNat := hd.clock_le_requested
      _ ≤ clock input ⟨maxA, d'.b⟩ := hd.passed.le_clock _ hbehind
      _ ≤ d'.clock input :=
        Divisors.clock_le_clock input _ d' (ratio_le_ratio _ d' hd'.fits.1 (Nat.le_refl _))

/-- A request that a clock found before does not exceed is met by one at least as
    fast. -/
theorem exists_faster {requested' : UInt32} (hd : Found input requested d)
    (hne : requested' ≠ 0) (h : d.clock input ≤ requested'.toNat) :
    ∃ d' : Divisors, forFrequency input requested' = .ok (d', d'.clock input) ∧
      d.clock input ≤ d'.clock input ∧ d'.clock input ≤ requested'.toNat := by
  have hslowest : slowest.clock input ≤ requested'.toNat :=
    Nat.le_trans (clock_slowest_le input d hd.fits) h
  obtain ⟨d', hsearch⟩ :=
    search_complete input requested' _ (estimate_fits input requested') hslowest
  have hok := forFrequency_of_some input requested' hne d' hsearch
  have hd' := (forFrequency_found hok).1
  exact ⟨d', hok, hd.clock_le_clock hd' h, hd'.clock_le_requested⟩

end Found

/-- A pair that would have met the request better than with the clock `actual`. -/
structure Better (input requested : UInt32) (actual : Nat) (e : Divisors) : Prop where
  fits : e.Fits
  slow : e.clock input ≤ requested.toNat
  faster : actual < e.clock input

/-- The pair of the next row with the largest ratio that does not exceed that of `d`. -/
def rival (d : Divisors) : Divisors :=
  ⟨(d.a + 1) * (d.b + 1) / (d.b + 2) - 1, d.b + 1⟩

/-- Between two neighbours of a row a later row has at most one ratio. -/
theorem between_neighbours (a b x y : Nat) (hy : y ≤ maxB) (hrow : b < y)
    (hlow : a * (b + 1) < (x + 1) * (y + 1)) (hhigh : (x + 1) * (y + 1) < (a + 1) * (b + 1)) :
    (b = 1 ∨ b = 2) ∧ y = b + 1 ∧ x = (a + 1) * (b + 1) / (b + 2) - 1 := by
  have hB : maxB = 3 := rfl
  have hrows : b = 0 ∨ b = 1 ∨ b = 2 := by omega
  have hrows' : y = 1 ∨ y = 2 ∨ y = 3 := by omega
  rcases hrows with rfl | rfl | rfl <;> rcases hrows' with rfl | rfl | rfl <;> omega

namespace Found

/-- The pairs behind divide by less than one that is better. -/
theorem ratio_lt_of_behind (hd : Found input requested d) (e f : Divisors)
    (he : Better input requested (d.clock input) e) (hf : f.Behind d) : f.ratio < e.ratio := by
  have hle := hd.passed.le_clock f hf
  have hrow : f.b ≤ d.b := by
    rcases hf.2 with hrow | ⟨hrow, _⟩
    · exact Nat.le_of_lt hrow
    · exact Nat.le_of_eq hrow
  -- Otherwise the clock of `f` would be the one requested, and no better than that of `d`.
  refine Nat.lt_of_not_le fun hge => Nat.not_le_of_lt he.faster ?_
  have hslow : f.clock input ≤ requested.toNat :=
    Nat.le_trans (Divisors.clock_le_clock input f e hge) he.slow
  exact Nat.le_trans he.slow (Nat.le_trans hle (hd.clock_le f hf.1 hrow hslow))

/-- No pair but the rival is better, and not by much. -/
theorem eq_rival (hd : Found input requested d) (e : Divisors)
    (he : Better input requested (d.clock input) e) :
    e = d.rival ∧ (d.b = 1 ∨ d.b = 2) ∧ 68 * d.ratio ≤ 69 * e.ratio := by
  have hA : maxA = 63 := rfl
  have hrow : d.b < e.b := Nat.lt_of_not_le fun hle =>
    Nat.not_le_of_lt he.faster (hd.clock_le e he.fits.1 hle he.slow)
  have hhigh : (e.a + 1) * (e.b + 1) < (d.a + 1) * (d.b + 1) :=
    (ratio_lt_iff d e).mp (ratio_lt_of_clock_lt input d e he.faster)
  have hlow : d.a * (d.b + 1) < (e.a + 1) * (e.b + 1) := by
    rcases Nat.eq_zero_or_pos d.a with hzero | hpos
    · rw [hzero, Nat.zero_mul]
      exact Nat.mul_pos (Nat.succ_pos _) (Nat.succ_pos _)
    · have hbehind : Behind ⟨d.a - 1, d.b⟩ d :=
        ⟨Nat.le_trans (Nat.sub_le _ _) hd.fits.1, Or.inr ⟨rfl, Nat.sub_lt hpos Nat.one_pos⟩⟩
      have hlt := (ratio_lt_iff e _).mp (hd.ratio_lt_of_behind e _ he hbehind)
      simp only [Nat.sub_add_cancel hpos] at hlt
      exact hlt
  obtain ⟨hmiddle, hb, ha⟩ := between_neighbours d.a d.b e.a e.b he.fits.2 hrow hlow hhigh
  refine ⟨?_, hmiddle, ?_⟩
  · cases e
    rw [rival]
    simp only at hb ha
    rw [ha, hb]
  · -- The rows before end at 64 and 128, and the two ratios are at most two apart.
    have hpos : 0 < d.b := by omega
    have hbehind : Behind ⟨maxA, d.b - 1⟩ d :=
      ⟨Nat.le_refl _, Or.inl (Nat.sub_lt hpos Nat.one_pos)⟩
    have hrows : 64 * d.b < (e.a + 1) * (e.b + 1) := by
      have hlt := (ratio_lt_iff e _).mp (hd.ratio_lt_of_behind e _ he hbehind)
      simp only [Nat.sub_add_cancel hpos] at hlt
      exact hlt
    have hfactors : 68 * ((d.a + 1) * (d.b + 1)) ≤ 69 * ((e.a + 1) * (e.b + 1)) := by
      rw [hb] at hlow hrows hhigh ⊢
      rcases hmiddle with hone | htwo
      · rw [hone] at hlow hrows hhigh ⊢
        omega
      · rw [htwo] at hlow hrows hhigh ⊢
        omega
    rw [ratio_eq_mul, ratio_eq_mul]
    omega

end Found

/-- The clock that is delivered is the fastest that does not exceed the request,
    exactly unless the rival is better. No other pair is, and the rival only in the two
    middle rows and by a ratio that is smaller by less than one part in 68. -/
theorem forFrequency_fastest_iff (input requested : UInt32) (d : Divisors) (actual : Nat)
    (h : forFrequency input requested = .ok (d, actual)) :
    ((∀ e : Divisors, e.Fits → e.clock input ≤ requested.toNat → e.clock input ≤ actual) ↔
        ¬ Better input requested actual d.rival) ∧
      ∀ e : Divisors, Better input requested actual e →
        e = d.rival ∧ (d.b = 1 ∨ d.b = 2) ∧ 68 * d.ratio ≤ 69 * e.ratio := by
  obtain ⟨hfound, rfl⟩ := forFrequency_found h
  refine ⟨⟨fun hfastest hrival => ?_, fun hrival e hfits hslow => ?_⟩, hfound.eq_rival⟩
  · exact Nat.not_le_of_lt hrival.faster (hfastest d.rival hrival.fits hrival.slow)
  · refine Nat.le_of_not_lt fun hfaster => hrival ?_
    have hbetter : Better input requested (d.clock input) e := ⟨hfits, hslow, hfaster⟩
    exact (hfound.eq_rival e hbetter).1 ▸ hbetter

/-- With an input clock of 100 MHz and a request for 33422 Hz, 138 is taken where 136
    would do. -/
theorem forFrequency_fastest_iff_third_row :
    forFrequency 100000000 33422 = .ok (⟨45, 2⟩, 32938) ∧
      (∀ e : Divisors, Better 100000000 33422 32938 e → e = ⟨33, 3⟩) ∧
      ¬ ∀ e : Divisors, e.Fits → e.clock 100000000 ≤ 33422 → e.clock 100000000 ≤ 32938 := by
  have hrun : forFrequency 100000000 33422 = .ok (⟨45, 2⟩, 32938) := by cbv
  obtain ⟨hfastest, hrival⟩ := forFrequency_fastest_iff _ _ _ _ hrun
  refine ⟨hrun, fun e he => (hrival e he).1, fun hall => ?_⟩
  exact hfastest.mp hall ⟨by decide, by decide, by decide⟩

/-- With an input clock of 100 MHz and a request for 65876 Hz, division by 35 and 2 is
    taken, and division by 23 and 3 would give the clock that was requested. -/
theorem forFrequency_misses_rival :
    forFrequency 100000000 65876 = .ok (⟨34, 1⟩, 64935) ∧
      Better 100000000 65876 64935 ⟨22, 2⟩ ∧ clock 100000000 ⟨22, 2⟩ = 65876 :=
  ⟨by cbv, ⟨by decide, by decide, by decide⟩, by decide⟩

/-- A slower request never gets a faster bus: what meets it is no faster than what
    meets the other. -/
theorem forFrequency_mono (input requested requested' : UInt32) (d : Divisors) (actual : Nat)
    (hle : requested ≤ requested') (h : forFrequency input requested = .ok (d, actual)) :
    ∃ (d' : Divisors) (actual' : Nat),
      forFrequency input requested' = .ok (d', actual') ∧ actual ≤ actual' := by
  obtain ⟨hfound, rfl⟩ := forFrequency_found h
  have hslow : requested.toNat ≤ requested'.toNat := UInt32.le_iff_toNat_le.mp hle
  have hne : requested' ≠ 0 := by
    rintro rfl
    exact hfound.requested_ne_zero (UInt32.toNat_inj.mp (Nat.le_zero.mp hslow))
  obtain ⟨d', hok, hfaster, _⟩ :=
    hfound.exists_faster hne (Nat.le_trans hfound.clock_le_requested hslow)
  exact ⟨d', _, hok, hfaster⟩

/-- The faster request is met in the second row, the slower one in the third. -/
theorem forFrequency_mono_rows :
    (33422 : UInt32) ≤ 35600 ∧ forFrequency 100000000 33422 = .ok (⟨45, 2⟩, 32938) ∧
      ∃ (d' : Divisors) (actual' : Nat),
        forFrequency 100000000 35600 = .ok (d', actual') ∧ 32938 ≤ actual' := by
  have hle : (33422 : UInt32) ≤ 35600 := by decide
  have hrun : forFrequency 100000000 33422 = .ok (⟨45, 2⟩, 32938) := by cbv
  exact ⟨hle, hrun, forFrequency_mono _ _ _ _ _ hle hrun⟩

/-- A clock that was found is found again when it is asked for. -/
theorem forFrequency_idempotent (input requested : UInt32) (d : Divisors) (actual : Nat)
    (hpos : actual ≠ 0) (h : forFrequency input requested = .ok (d, actual)) :
    (UInt32.ofNat actual).toNat = actual ∧
      ∃ d' : Divisors, forFrequency input (UInt32.ofNat actual) = .ok (d', actual) := by
  obtain ⟨hfound, rfl⟩ := forFrequency_found h
  have hword : (UInt32.ofNat (d.clock input)).toNat = d.clock input :=
    UInt32.toNat_ofNat_of_lt' (Nat.lt_of_le_of_lt hfound.clock_le_requested requested.toNat_lt)
  have hne : UInt32.ofNat (d.clock input) ≠ 0 := by
    intro hzero
    rw [hzero] at hword
    exact hpos hword.symm
  obtain ⟨d', hok, hfaster, hslow⟩ := hfound.exists_faster hne (Nat.le_of_eq hword.symm)
  -- It is met by a clock that is neither faster nor slower.
  have hclock : d'.clock input = d.clock input := Nat.le_antisymm (hword ▸ hslow) hfaster
  exact ⟨hword, d', hclock ▸ hok⟩

/-- Divided by 22 the input clock is 12910 Hz, which 128 and 129 both divide to 100 Hz.
    The search for 101 Hz ends at the first of them, the search for 100 Hz starts past
    it and ends in the next row. -/
theorem forFrequency_idempotent_rows :
    forFrequency 284020 101 = .ok (⟨63, 1⟩, 100) ∧
      ∃ d' : Divisors, forFrequency 284020 (UInt32.ofNat 100) = .ok (d', 100) := by
  have hrun : forFrequency 284020 101 = .ok (⟨63, 1⟩, 100) := by cbv
  exact ⟨hrun, (forFrequency_idempotent _ _ _ _ (by decide) hrun).2⟩

end Answer

end Divisors

end I2c

end BoardSupport
