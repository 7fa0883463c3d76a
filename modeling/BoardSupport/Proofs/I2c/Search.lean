import BoardSupport.Proofs.I2c.Divisors

/-!
# Searching for Divisors

What the search finds, when it finds nothing, and that it ends within the words
of the machine.

The search walks from an estimate towards slower clocks, but not along a line:
when the first divisor has reached its last value it falls back to the middle of
its range while the second goes up. Two facts carry every statement about the
walk. It never leaves the range of the first divisor, and it leaves that of the
second only from the slowest pair there is. So a walk that is refused everywhere
has been refused at the slowest pair, and no pair at all gives a clock as slow as
was requested.

On the machine the divisors are bytes and the rest of the computation is done in
words of 32 and 64 bits. `forFrequencyInWords` is the same computation with every
number on the way put to the test of its word, and with a limit on the pairs that
are looked at. That it always comes to the same says that nothing overflows, that
nothing is divided by zero, and that the walk ends.

## Main definitions

* `I2c.Divisors.fit`: A number that has to fit a word.
* `I2c.Divisors.forFrequencyInWords`: The computation in words of the machine.
* `I2c.Divisors.ahead`: How many pairs a walk has ahead of it.
* `I2c.Divisors.Answers`: What comes of a request.

## Theorems

* `I2c.Divisors.clock_slowest_le`: No pair gives a slower clock than the slowest.
* `I2c.Divisors.search_sound`, `I2c.Divisors.search_complete`: What is found does
  not exceed the request, and something is found if the slowest pair does not.
* `I2c.Divisors.ahead_next`: Each step leaves one pair less.
* `I2c.Divisors.searchInWords_eq`, `I2c.Divisors.forFrequencyInWords_eq`: Nothing
  overflows, and the walk ends.
* `I2c.Divisors.forFrequency_answers`: What comes of every request.
-/

namespace BoardSupport

namespace I2c

namespace Divisors

section Clock

theorem ratio_pos (d : Divisors) : 0 < d.ratio :=
  Nat.mul_pos (Nat.mul_pos (by decide) (Nat.succ_pos d.a)) (Nat.succ_pos d.b)

/-- No pair that fits divides by more than the slowest. -/
theorem ratio_le_slowest (d : Divisors) (h : d.Fits) : d.ratio ≤ slowest.ratio := by
  have ha : 22 * (d.a + 1) ≤ 22 * (maxA + 1) :=
    Nat.mul_le_mul_left 22 (Nat.succ_le_succ h.1)
  exact Nat.mul_le_mul ha (Nat.succ_le_succ h.2)

/-- No pair that fits gives a slower clock than the slowest. -/
theorem clock_slowest_le (input : UInt32) (d : Divisors) (h : d.Fits) :
    slowest.clock input ≤ d.clock input :=
  Nat.div_le_div_left (d.ratio_le_slowest h) d.ratio_pos

end Clock

section Walk

variable (input requested : UInt32)

-- The first divisor is counted up or falls back, so it stays in its range.
theorem next_a_le (d : Divisors) (h : d.a ≤ maxA) : d.next.a ≤ maxA := by
  unfold next
  split
  · rename_i hlt
    exact hlt
  · have hA : maxA = 63 := rfl
    simp only
    omega

/-- The range of the second divisor is left only from the slowest pair. -/
theorem eq_slowest_of_next (d : Divisors) (h : d.Fits) (hnext : maxB < d.next.b) :
    d = slowest := by
  unfold next at hnext
  split at hnext
  · exact absurd h.2 (Nat.not_le_of_lt hnext)
  · rename_i hlast
    have ha : d.a = maxA := Nat.le_antisymm h.1 (Nat.le_of_not_lt hlast)
    have hb : d.b = maxB := Nat.le_antisymm h.2 (Nat.le_of_lt_succ hnext)
    rw [slowest, ← ha, ← hb]

/-- What is found does not exceed the request. -/
theorem search_sound (d found : Divisors) (h : search input requested d = some found) :
    found.clock input ≤ requested.toNat := by
  induction d using search.induct input requested with
  | case1 d hb hslow =>
      rw [search, if_pos hb, if_pos hslow] at h
      cases h
      exact hslow
  | case2 d hb hfast ih =>
      rw [search, if_pos hb, if_neg hfast] at h
      exact ih h
  | case3 d hb =>
      rw [search, if_neg hb] at h
      cases h

/-- If the slowest clock does not exceed the request, something is found. -/
theorem search_complete (d : Divisors) (hd : d.Fits)
    (h : slowest.clock input ≤ requested.toNat) :
    ∃ found, search input requested d = some found := by
  induction d using search.induct input requested with
  | case1 d hb hslow =>
      rw [search, if_pos hb, if_pos hslow]
      exact ⟨d, rfl⟩
  | case2 d hb hfast ih =>
      rw [search, if_pos hb, if_neg hfast]
      by_cases hnext : d.next.b ≤ maxB
      · exact ih ⟨next_a_le d hd.1, hnext⟩
      · -- The walk could only end here at the slowest pair, and that one is taken.
        have hlast := eq_slowest_of_next d hd (Nat.lt_of_not_le hnext)
        rw [hlast] at hfast
        exact absurd h hfast
  | case3 d hb => exact absurd hd.2 hb

/-- The search finds something exactly if the slowest clock does not exceed the
    request. -/
theorem search_isSome_iff (d : Divisors) (hd : d.Fits) :
    (∃ found, search input requested d = some found) ↔
      slowest.clock input ≤ requested.toNat := by
  constructor
  · rintro ⟨found, hfound⟩
    have hfits := search_fits input requested d found hd.1 hfound
    exact Nat.le_trans (clock_slowest_le input found hfits)
      (search_sound input requested d found hfound)
  · exact search_complete input requested d hd

end Walk

section Words

/-- A number that has to fit a word with so many values. -/
def fit (size n : Nat) : Option Nat :=
  if n < size then some n else none

/-- The clock of a pair, in words of 32 bits. -/
def clockInWords (input : UInt32) (d : Divisors) : Option Nat := do
  let a ← fit UInt32.size (d.a + 1)
  let b ← fit UInt32.size (d.b + 1)
  let first ← fit UInt32.size (22 * a)
  let ratio ← fit UInt32.size (first * b)
  if ratio = 0 then none else some (input.toNat / ratio)

/-- The next pair, in bytes. -/
def nextInWords (d : Divisors) : Option Divisors :=
  if d.a = maxA then do
    let b ← fit UInt8.size (d.b + 1)
    let a ← fit UInt8.size (d.a / 2 + 1)
    some ⟨a, b⟩
  else do
    let a ← fit UInt8.size (d.a + 1)
    some ⟨a, d.b⟩

/-- The pair the search starts from: computed in words of 64 bits, and then cut to
    bytes. -/
def estimateInWords (input requested : UInt32) : Option Divisors := do
  let unit ← fit UInt64.size (22 * requested.toNat)
  if unit = 0 then none
  else if input.toNat / unit = 0 then some fastest
  else
    let divisor := input.toNat / unit - 1
    if divisor / 64 > maxB then some slowest
    else do
      let a ← fit UInt8.size (divisor % 64)
      let b ← fit UInt8.size (divisor / 64)
      some ⟨a, b⟩

/-- The search in words, which may look at so many pairs. What it finds comes with
    its clock. -/
def searchInWords (input requested : UInt32) (pairs : Nat) (d : Divisors) :
    Option (Option (Divisors × Nat)) :=
  if d.b ≤ maxB then
    match pairs with
    | 0 => none
    | pairs + 1 => do
      let actual ← clockInWords input d
      if actual ≤ requested.toNat then some (some (d, actual))
      else do
        let d ← nextInWords d
        searchInWords input requested pairs d
  else
    some none

/-- The divisors for a requested clock, in words of the machine. Nothing comes of
    it if a number on the way does not fit its word, if something is divided by
    zero, or if the search would have to look at more pairs than it may. -/
def forFrequencyInWords (pairs : Nat) (input requested : UInt32) :
    Option (Except Error (Divisors × Nat)) :=
  if requested = 0 then
    some (.error .unsupportedFrequency)
  else do
    let start ← estimateInWords input requested
    match ← searchInWords input requested pairs start with
    | some found => some (.ok found)
    | none => do
      let limit ← clockInWords input slowest
      some (.error (.frequencyTooLow requested.toNat limit))

-- A number that fits is handed on.
theorem fit_bind {α : Type} {size n : Nat} (h : n < size) (f : Nat → Option α) :
    (fit size n >>= f) = f n := by
  rw [fit, if_pos h]
  rfl

/-- The clock of a pair that fits is computed without overflow. -/
theorem clockInWords_eq (input : UInt32) (d : Divisors) (h : d.Fits) :
    clockInWords input d = some (d.clock input) := by
  have hratio : 22 * (d.a + 1) * (d.b + 1) ≤ 5632 := d.ratio_le_slowest h
  have hfirst : 22 * (d.a + 1) ≤ 22 * (d.a + 1) * (d.b + 1) :=
    Nat.le_mul_of_pos_right _ (Nat.succ_pos d.b)
  have ha : d.a ≤ 63 := h.1
  have hb : d.b ≤ 3 := h.2
  have hsize : UInt32.size = 4294967296 := rfl
  have hne : 22 * (d.a + 1) * (d.b + 1) ≠ 0 := Nat.ne_of_gt d.ratio_pos
  unfold clockInWords
  rw [fit_bind (by omega), fit_bind (by omega), fit_bind (by omega), fit_bind (by omega),
    if_neg hne]
  rfl

/-- The next pair is computed without overflow. -/
theorem nextInWords_eq (d : Divisors) (h : d.Fits) : nextInWords d = some d.next := by
  have ha : d.a ≤ 63 := h.1
  have hb : d.b ≤ 3 := h.2
  have hA : maxA = 63 := rfl
  have hsize : UInt8.size = 256 := rfl
  unfold nextInWords next
  by_cases hlast : d.a = maxA
  · rw [if_pos hlast, if_neg (by omega), fit_bind (by omega), fit_bind (by omega), hlast]
  · rw [if_neg hlast, if_pos (by omega), fit_bind (by omega)]

/-- The estimate is computed without overflow, and cutting it to bytes loses
    nothing. -/
theorem estimateInWords_eq (input requested : UInt32) (h : requested ≠ 0) :
    estimateInWords input requested = some (estimate input requested) := by
  have hpos : requested.toNat ≠ 0 := fun hzero => h (UInt32.toNat_inj.mp hzero)
  have hlt : requested.toNat < 4294967296 := requested.toNat_lt
  have hsize : UInt64.size = 18446744073709551616 := rfl
  have hbyte : UInt8.size = 256 := rfl
  have hB : maxB = 3 := rfl
  unfold estimateInWords estimate
  simp only
  rw [fit_bind (by omega), if_neg (by omega)]
  by_cases hzero : input.toNat / (22 * requested.toNat) = 0
  · rw [if_pos hzero, if_pos hzero]
  · rw [if_neg hzero, if_neg hzero]
    by_cases hrange : (input.toNat / (22 * requested.toNat) - 1) / 64 ≤ maxB
    · rw [if_neg (Nat.not_lt_of_le hrange), if_pos hrange, fit_bind (by omega),
        fit_bind (by omega)]
    · rw [if_pos (Nat.lt_of_not_le hrange), if_neg hrange]

/-- How many pairs a walk has ahead of it, the one it is at included. -/
def ahead (d : Divisors) : Nat :=
  32 * (maxB - d.b) + (maxA + 1 - d.a)

/-- Each step that stays in range leaves one pair less, whether the first divisor
    is counted up or falls back. -/
theorem ahead_next (d : Divisors) (h : d.Fits) (hnext : d.next.b ≤ maxB) :
    d.next.ahead + 1 = d.ahead := by
  have ha : d.a ≤ 63 := h.1
  have hA : maxA = 63 := rfl
  have hB : maxB = 3 := rfl
  unfold ahead next at *
  by_cases hlt : d.a < maxA
  · rw [if_pos hlt] at hnext ⊢
    simp only at hnext ⊢
    omega
  · rw [if_neg hlt] at hnext ⊢
    simp only at hnext ⊢
    omega

theorem ahead_pos (d : Divisors) (h : d.a ≤ maxA) : 0 < d.ahead :=
  Nat.add_pos_right _ (Nat.sub_pos_of_lt (Nat.lt_succ_of_le h))

/-- A search that may look at all pairs ahead of it ends, and nothing overflows on
    the way. -/
theorem searchInWords_eq (input requested : UInt32) (pairs : Nat) (d : Divisors)
    (ha : d.a ≤ maxA) (hpairs : d.b ≤ maxB → d.ahead ≤ pairs) :
    searchInWords input requested pairs d =
      some ((search input requested d).map fun found => (found, found.clock input)) := by
  -- Induction on the walk: what is ahead shrinks with the pairs that are left.
  induction d using search.induct input requested generalizing pairs with
  | case1 d hb hslow =>
      have hfits : d.Fits := ⟨ha, hb⟩
      cases pairs with
      | zero => exact absurd (hpairs hb) (Nat.not_le_of_lt (ahead_pos d ha))
      | succ pairs =>
          rw [searchInWords, if_pos hb, search, if_pos hb, if_pos hslow,
            clockInWords_eq input d hfits]
          exact if_pos hslow
  | case2 d hb hfast ih =>
      have hfits : d.Fits := ⟨ha, hb⟩
      cases pairs with
      | zero => exact absurd (hpairs hb) (Nat.not_le_of_lt (ahead_pos d ha))
      | succ pairs =>
          rw [searchInWords, if_pos hb, search, if_pos hb, if_neg hfast,
            clockInWords_eq input d hfits, nextInWords_eq d hfits]
          refine (if_neg hfast).trans (ih pairs (next_a_le d ha) fun hnext => ?_)
          have hstep := ahead_next d hfits hnext
          have hle := hpairs hb
          omega
  | case3 d hb =>
      rw [search, if_neg hb, searchInWords.eq_def, if_neg hb]
      rfl

/-- No walk has more pairs ahead of it than the one from the fastest pair on. -/
theorem ahead_le (d : Divisors) : d.ahead ≤ 160 := by
  have hA : maxA = 63 := rfl
  have hB : maxB = 3 := rfl
  unfold ahead
  omega

/-- For every request the search ends after at most 160 pairs, and nothing
    overflows. -/
theorem forFrequencyInWords_eq (input requested : UInt32) :
    forFrequencyInWords 160 input requested = some (forFrequency input requested) := by
  unfold forFrequencyInWords forFrequency
  by_cases hzero : requested = 0
  · rw [if_pos hzero, if_pos hzero]
  · have hfits := estimate_fits input requested
    rw [if_neg hzero, if_neg hzero, estimateInWords_eq input requested hzero]
    change (searchInWords input requested 160 (estimate input requested) >>= _) = _
    rw [searchInWords_eq input requested 160 _ hfits.1 fun _ => ahead_le _]
    cases search input requested (estimate input requested) with
    | some found => rfl
    | none =>
        have hslowest : slowest.Fits := ⟨Nat.le_refl _, Nat.le_refl _⟩
        rw [clockInWords_eq input slowest hslowest]
        rfl

end Words

/-- What comes of a request for a bus clock. -/
structure Answers (input requested : UInt32) : Prop where
  /-- In words of the machine it comes to the same after at most 160 pairs: the
      search ends, and nothing overflows. -/
  inWords : forFrequencyInWords 160 input requested = some (forFrequency input requested)
  /-- A clock of nothing is not supported. -/
  unsupported : requested = 0 → forFrequency input requested = .error .unsupportedFrequency
  /-- Any other request is met exactly if the slowest clock does not exceed it. -/
  met_iff : requested ≠ 0 →
    ((∃ answer, forFrequency input requested = .ok answer) ↔
      input.toNat / 5632 ≤ requested.toNat)
  /-- The divisors that meet it fit their fields, and the clock is theirs and does
      not exceed the request. -/
  met : ∀ d actual, forFrequency input requested = .ok (d, actual) →
    d.a ≤ 63 ∧ d.b ≤ 3 ∧ actual = input.toNat / (22 * (d.a + 1) * (d.b + 1)) ∧
      actual ≤ requested.toNat
  /-- A request that is not met is told the slowest clock. -/
  unmet : requested ≠ 0 → requested.toNat < input.toNat / 5632 →
    forFrequency input requested =
      .error (.frequencyTooLow requested.toNat (input.toNat / 5632))
  /-- That is the clock of the largest divisors. -/
  limit : slowest.clock input = input.toNat / 5632

section Request

variable (input requested : UInt32) (h : requested ≠ 0)

include h

-- What is found is delivered with its clock, and otherwise the slowest clock is
-- told.
theorem forFrequency_of_some (d : Divisors)
    (hfound : search input requested (estimate input requested) = some d) :
    forFrequency input requested = .ok (d, d.clock input) := by
  rw [forFrequency, if_neg h, hfound]

theorem forFrequency_of_none
    (hnone : search input requested (estimate input requested) = none) :
    forFrequency input requested =
      .error (.frequencyTooLow requested.toNat (slowest.clock input)) := by
  rw [forFrequency, if_neg h, hnone]

end Request

/-- What comes of every request for a bus clock from every input clock. -/
theorem forFrequency_answers (input requested : UInt32) : Answers input requested := by
  have hslowest : slowest.clock input = input.toNat / 5632 := rfl
  have hfound := search_isSome_iff input requested _ (estimate_fits input requested)
  rw [hslowest] at hfound
  refine ⟨forFrequencyInWords_eq input requested, fun hzero => if_pos hzero, fun hne => ?_,
    fun d actual hok => ?_, fun hne hfast => ?_, hslowest⟩
  · rw [← hfound]
    constructor
    · rintro ⟨answer, hok⟩
      cases hsearch : search input requested (estimate input requested) with
      | some found => exact ⟨found, rfl⟩
      | none =>
          rw [forFrequency_of_none input requested hne hsearch] at hok
          cases hok
    · rintro ⟨found, hsearch⟩
      exact ⟨_, forFrequency_of_some input requested hne found hsearch⟩
  · have hfits := forFrequency_fits input requested d actual hok
    have hclock := forFrequency_clock input requested d actual hok
    refine ⟨hfits.1, hfits.2, hclock, ?_⟩
    have hne : requested ≠ 0 := by
      rintro rfl
      cases hok
    cases hsearch : search input requested (estimate input requested) with
    | some found =>
        rw [forFrequency_of_some input requested hne found hsearch] at hok
        cases hok
        exact search_sound input requested _ _ hsearch
    | none =>
        rw [forFrequency_of_none input requested hne hsearch] at hok
        cases hok
  · cases hsearch : search input requested (estimate input requested) with
    | some found => exact absurd (hfound.mp ⟨found, hsearch⟩) (Nat.not_le_of_lt hfast)
    | none =>
        rw [forFrequency_of_none input requested hne hsearch, hslowest]

end Divisors

end I2c

end BoardSupport
