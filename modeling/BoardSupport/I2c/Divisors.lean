import BoardSupport.I2c.Error

/-!
# Bus Clock Divisors

The bus clock is the input clock divided by 22, by one more than a first
divisor of six bits, and by one more than a second divisor of two bits. A
frequency is requested in hertz; the divisors are searched for.

The search starts from an estimate that is at or just above the requested
clock and slows the clock down step by step until it no longer exceeds the
request. Within one second divisor the first one is counted up; past its last
value the second divisor goes up by one and the first restarts in the middle
of its range, where the ratio is about the same.

## Main definitions

* `I2c.Divisors`: A pair of divisors.
* `I2c.Divisors.clock`: The bus clock a pair of divisors gives.
* `I2c.Divisors.forFrequency`: The divisors for a requested clock.
-/

namespace BoardSupport

namespace I2c

/-- The two clock divisors, each one less than it divides by. -/
structure Divisors where
  a : Nat
  b : Nat
  deriving DecidableEq, Repr

namespace Divisors

/-- The largest first divisor. -/
def maxA : Nat := 63

/-- The largest second divisor. -/
def maxB : Nat := 3

/-- The divisors of the slowest bus clock. -/
def slowest : Divisors :=
  ⟨maxA, maxB⟩

/-- The divisors of the fastest bus clock. -/
def fastest : Divisors :=
  ⟨0, 0⟩

/-- A pair of divisors that fits the control register. -/
def ofPair? (a b : Nat) : Option Divisors :=
  if a ≤ maxA ∧ b ≤ maxB then some ⟨a, b⟩ else none

/-- What the input clock is divided by. -/
def ratio (d : Divisors) : Nat :=
  22 * (d.a + 1) * (d.b + 1)

/-- The bus clock in hertz, rounded down. -/
def clock (input : UInt32) (d : Divisors) : Nat :=
  input.toNat / d.ratio

/-- Where the search starts: divisors read off the bits of the ratio that the
    request calls for, rounded down. -/
def estimate (input requested : UInt32) : Divisors :=
  let ratio := input.toNat / (22 * requested.toNat)
  if ratio = 0 then
    fastest
  else if (ratio - 1) / 64 ≤ maxB then
    ⟨(ratio - 1) % 64, (ratio - 1) / 64⟩
  else
    slowest

/-- The next pair the search looks at. -/
def next (d : Divisors) : Divisors :=
  if d.a < maxA then ⟨d.a + 1, d.b⟩ else ⟨maxA / 2 + 1, d.b + 1⟩

/-- Slow the clock down until it does not exceed the request. Nothing is found
    once the second divisor has run past its range. -/
def search (input requested : UInt32) (d : Divisors) : Option Divisors :=
  if d.b ≤ maxB then
    if d.clock input ≤ requested.toNat then some d else search input requested d.next
  else
    none
termination_by (maxB + 1 - d.b, maxA - d.a)
decreasing_by
  simp only [next]
  split
  · exact Prod.Lex.right _ (by simp only; omega)
  · exact Prod.Lex.left _ _ (by simp only; omega)

/-- Divisors whose bus clock does not exceed the request, and that clock. -/
def forFrequency (input requested : UInt32) : Except Error (Divisors × Nat) :=
  if requested = 0 then
    .error .unsupportedFrequency
  else
    match search input requested (estimate input requested) with
    | some d => .ok (d, d.clock input)
    | none => .error (.frequencyTooLow requested.toNat (slowest.clock input))

/-- The divisors with their fields named. -/
def debug (d : Divisors) : String :=
  s!"BusDivisors \x7b a: {d.a}, b: {d.b} \x7d"

end Divisors

end I2c

end BoardSupport
