import BoardSupport.Device.RegisterFile
import BoardSupport.Proofs.Bus.Accesses
import BoardSupport.Serial.Uart
import Mathlib.Algebra.Order.Floor.Div

/-!
# The Divisor of the Baud Rate

The divisor for a baud rate is the smallest that keeps the line from being too fast.

A divisor `d` gives the baud rate `input / (d + 1)`. That it does not exceed the target is said
without a fraction, by a product that need not fit a word. `minDivisor_le_iff` says of every
number whether the divisor reaches it: it does not if the number keeps the rate already, or if
it is the last that the register holds. Everything else is read off this one equivalence. The
divisor reaches itself, so it keeps the rate or is the last one; it reaches nothing below itself;
and a slower input clock or a higher target keeps what was kept.

On the machine the quotient is rounded up by its remainder, in words of 64 bits, and what is left
of it is cut to a word of 32 bits. `minDivisorInWords` is this computation with every step put
to the test. That it always comes to the divisor says that nothing overflows, nothing falls below
zero, and nothing is divided by zero.

## Main definitions

* `Serial.Keeps`: A divisor keeps the baud rate at or below a target.
* `Serial.minDivisorInWords`: The divisor, in words of the machine.

## Theorems

* `Serial.minDivisor_le_iff`: Which numbers the divisor does not exceed.
* `Serial.minDivisor_mono`, `Serial.minDivisor_anti`: Faster clocks and lower targets need larger
  divisors.
* `Serial.minDivisorInWords_eq`: No step of the computation fails.
* `Serial.run_init`, `Serial.divisor_init`: What starting the line comes to on every bus, and what
  its registers hold then.
* `Serial.minDivisor_smallest`: The divisor is the smallest one, and it is what is programmed.
-/

namespace BoardSupport

namespace Serial

open Bus (Access accesses)

/-- The baud rate of a divisor does not exceed the target. -/
def Keeps (input target divisor : Nat) : Prop :=
  input ≤ target * (divisor + 1)

/-- The quotient rounded up, in words of 64 bits: one more if something is left over. -/
def ceilDivInWords (n divisor : UInt64) : Option UInt64 :=
  if divisor = 0 then none
  else if n % divisor = 0 then some (n / divisor)
  else if (n / divisor).toNat + 1 < UInt64.size then some (n / divisor + 1)
  else none

/-- One less, unless that is below zero. -/
def predInWords (n : UInt64) : Option UInt64 :=
  if 1 ≤ n then some (n - 1) else none

/-- The divisor for a baud rate, in words of the machine. Nothing comes of it if a number on the
    way leaves its word, or if something is divided by zero. -/
def minDivisorInWords (input target : UInt64) : Option UInt32 :=
  if target = 0 then some 0
  else do
    let quotient ← ceilDivInWords input target
    if quotient = 0 then some 0
    else do
      let divisor ← predInWords quotient
      if 0xFFFFFFFF < divisor then some 0xFFFFFFFF else some divisor.toUInt32

theorem toNat_pos {n : UInt64} (h : n ≠ 0) : 0 < n.toNat :=
  Nat.pos_of_ne_zero fun hzero => h (UInt64.toNat_inj.mp hzero)

/-- The divisor does not exceed a number exactly if the number keeps the baud rate, or is at
    least the last divisor there is. -/
theorem minDivisor_le_iff (input target : UInt64) (htarget : target ≠ 0) (d : Nat) :
    minDivisor input target ≤ d ↔
      Keeps input.toNat target.toNat d ∨ UInt32.size - 1 ≤ d := by
  have hceil : (input.toNat + target.toNat - 1) / target.toNat ≤ d + 1 ↔
      input.toNat ≤ target.toNat * (d + 1) := ceilDiv_le_iff_le_mul (toNat_pos htarget)
  rw [minDivisor, if_neg htarget, min_le_iff, Nat.sub_le_iff_le_add, hceil, Keeps]

/-- The divisor fits its register. -/
theorem minDivisor_lt (input target : UInt64) : minDivisor input target < UInt32.size := by
  unfold minDivisor
  split
  · decide
  · exact Nat.lt_of_le_of_lt (Nat.min_le_right _ _) (by decide)

/-- The divisor is the smallest that keeps the baud rate, or the last one, which does not. -/
theorem minDivisor_keeps (input target : UInt64) (htarget : target ≠ 0) :
    (Keeps input.toNat target.toNat (minDivisor input target) ∧
        ∀ e < minDivisor input target, ¬Keeps input.toNat target.toNat e) ∨
      (minDivisor input target = 2 ^ 32 - 1 ∧ target.toNat * 2 ^ 32 < input.toNat) := by
  have hsmallest : ∀ e < minDivisor input target, ¬Keeps input.toNat target.toNat e :=
    fun e he hkeeps =>
      Nat.not_le_of_lt he ((minDivisor_le_iff input target htarget e).mpr (Or.inl hkeeps))
  rcases (minDivisor_le_iff input target htarget _).mp (Nat.le_refl _) with hkeeps | hlast
  · exact Or.inl ⟨hkeeps, hsmallest⟩
  · have heq : minDivisor input target = 2 ^ 32 - 1 :=
      Nat.le_antisymm (Nat.le_pred_of_lt (minDivisor_lt input target)) hlast
    by_cases hkeeps : Keeps input.toNat target.toNat (minDivisor input target)
    · exact Or.inl ⟨hkeeps, hsmallest⟩
    · rw [heq, Keeps, Nat.not_le] at hkeeps
      exact Or.inr ⟨heq, hkeeps⟩

-- The fastest clock is too fast for the slowest target there is.
example : minDivisor 0xFFFFFFFFFFFFFFFF 1 = 2 ^ 32 - 1 := by
  decide

/-- A faster input clock needs no smaller divisor. -/
theorem minDivisor_mono (input input' target : UInt64) (htarget : target ≠ 0)
    (h : input ≤ input') : minDivisor input target ≤ minDivisor input' target := by
  rw [minDivisor_le_iff input target htarget]
  refine ((minDivisor_le_iff input' target htarget _).mp (Nat.le_refl _)).imp_left ?_
  exact fun hkeeps => Nat.le_trans (UInt64.le_iff_toNat_le.mp h) hkeeps

/-- A higher target needs no larger divisor. -/
theorem minDivisor_anti (input target target' : UInt64) (htarget : target ≠ 0)
    (h : target ≤ target') : minDivisor input target' ≤ minDivisor input target := by
  have htarget' : target' ≠ 0 := by
    rintro rfl
    exact htarget (UInt64.le_zero_iff.mp h)
  rw [minDivisor_le_iff input target' htarget']
  refine ((minDivisor_le_iff input target htarget _).mp (Nat.le_refl _)).imp_left ?_
  exact fun hkeeps =>
    Nat.le_trans hkeeps (Nat.mul_le_mul_right _ (UInt64.le_iff_toNat_le.mp h))

-- Rounding up is rounding down and one more for a remainder.
theorem ceilDiv_eq (n divisor : Nat) (hpos : 0 < divisor) :
    (n + divisor - 1) / divisor = n / divisor + if n % divisor = 0 then 0 else 1 := by
  have hparts : n + divisor - 1 = n % divisor + divisor - 1 + divisor * (n / divisor) := by
    have := Nat.mod_add_div n divisor
    omega
  have hrem : n % divisor < divisor := Nat.mod_lt n hpos
  rw [hparts, Nat.add_mul_div_left _ _ hpos, Nat.add_comm]
  congr 1
  split
  · exact Nat.div_eq_of_lt (by omega)
  · exact Nat.div_eq_of_lt_le (by omega) (by omega)

/-- Rounding up by the remainder does not overflow. -/
theorem ceilDivInWords_eq (n divisor : UInt64) (h : divisor ≠ 0) :
    ∃ quotient, ceilDivInWords n divisor = some quotient ∧
      quotient.toNat = (n.toNat + divisor.toNat - 1) / divisor.toNat := by
  have hpos : 0 < divisor.toNat := toNat_pos h
  have hzero : n % divisor = 0 ↔ n.toNat % divisor.toNat = 0 := by
    rw [← UInt64.toNat_inj, UInt64.toNat_mod]
    rfl
  rw [ceilDiv_eq _ _ hpos, ceilDivInWords, if_neg h]
  by_cases hrem : n.toNat % divisor.toNat = 0
  · rw [if_pos (hzero.mpr hrem), if_pos hrem]
    exact ⟨n / divisor, rfl, UInt64.toNat_div n divisor⟩
  · -- Something can only be left over of a number that is divided by more than one, and
    -- that makes it less.
    have hn : n.toNat ≠ 0 := fun hn => hrem (by rw [hn, Nat.zero_mod])
    have hone : divisor.toNat ≠ 1 := fun hone => hrem (by rw [hone, Nat.mod_one])
    have hless : n.toNat / divisor.toNat < n.toNat :=
      Nat.div_lt_self (Nat.pos_of_ne_zero hn) (by omega)
    have hfits : (n / divisor).toNat + 1 < UInt64.size := by
      rw [UInt64.toNat_div]
      exact Nat.lt_of_le_of_lt hless n.toNat_lt
    rw [if_neg (mt hzero.mp hrem), if_pos hfits, if_neg hrem]
    refine ⟨n / divisor + 1, rfl, ?_⟩
    rw [UInt64.toNat_add, ← UInt64.toNat_div]
    exact Nat.mod_eq_of_lt hfits

/-- No step of the computation in words fails, and what comes of it is the divisor. -/
theorem minDivisorInWords_eq (input target : UInt64) :
    ∃ divisor, minDivisorInWords input target = some divisor ∧
      divisor.toNat = minDivisor input target := by
  have hvalue : (UInt32.ofNat (minDivisor input target)).toNat = minDivisor input target :=
    UInt32.toNat_ofNat_of_lt (minDivisor_lt input target)
  refine ⟨UInt32.ofNat (minDivisor input target), ?_, hvalue⟩
  unfold minDivisorInWords minDivisor
  by_cases htarget : target = 0
  · rw [if_pos htarget, if_pos htarget]
    rfl
  · obtain ⟨quotient, hquotient, hceil⟩ := ceilDivInWords_eq input target htarget
    rw [if_neg htarget, if_neg htarget, hquotient, ← hceil]
    change (if quotient = 0 then _ else _) = _
    by_cases hzero : quotient = 0
    · rw [if_pos hzero, hzero]
      rfl
    · have hone : 1 ≤ quotient := UInt64.le_iff_toNat_le.mpr (toNat_pos hzero)
      have hpred : (quotient - 1).toNat = quotient.toNat - 1 :=
        UInt64.toNat_sub_of_le quotient 1 hone
      rw [if_neg hzero, predInWords, if_pos hone, ← hpred]
      change (if 0xFFFFFFFF < quotient - 1 then _ else _) = _
      by_cases hlast : 0xFFFFFFFF < quotient - 1
      · have hmin : min (quotient - 1).toNat (UInt32.size - 1) = UInt32.size - 1 :=
          Nat.min_eq_right (Nat.le_of_lt (UInt64.lt_iff_toNat_lt.mp hlast))
        rw [if_pos hlast, hmin]
        rfl
      · have hmin : min (quotient - 1).toNat (UInt32.size - 1) = (quotient - 1).toNat :=
          Nat.min_eq_left (Nat.le_of_not_lt fun hmore => hlast (UInt64.lt_iff_toNat_lt.mpr hmore))
        rw [if_neg hlast, hmin]
        rfl

/-- What starting the line comes to on every bus: four writes, of which the first programs the
    divisor, unless there is no clock to divide. -/
theorem run_init {ε σ : Type} (machine : Machine Bus.interface σ) (s : σ) (input baud : UInt64) :
    ((init input baud : Driver ε Unit).run machine.recorded (.start s)).1 = .ok () ∧
      accesses ((init input baud : Driver ε Unit).run machine.recorded (.start s)).2.events =
        (if input = 0 then [] else [⟨true, 32, Offset.divisor, minDivisor input baud⟩]) ++
          [⟨true, 32, Offset.interruptEnable, 0⟩, ⟨true, 32, Offset.transmitControl, 1⟩,
            ⟨true, 32, Offset.receiveControl, 1⟩] := by
  by_cases hinput : input = 0
  · subst hinput
    exact ⟨rfl, rfl⟩
  · have hclock : (input != 0) = true := bne_iff_ne.mpr hinput
    have hword : (BitVec.ofNat 32 (minDivisor input baud)).toNat = minDivisor input baud := by
      rw [BitVec.toNat_ofNat]
      exact Nat.mod_eq_of_lt (minDivisor_lt input baud)
    unfold init
    rw [hclock, if_neg hinput]
    refine ⟨rfl, ?_⟩
    change Access.ofWrite 32 Offset.divisor (BitVec.ofNat 32 (minDivisor input baud)) :: _ = _
    rw [Access.ofWrite, hword]
    rfl

/-- Registers that keep what is written to them hold the divisor once the line is started. -/
theorem divisor_init {ε : Type} (input baud : UInt64) (f : RegisterFile) (h : input ≠ 0) :
    ((do init input baud; divisor : Driver ε (BitVec 32)).run RegisterFile.device.machine f).1 =
      .ok (BitVec.ofNat 32 (minDivisor input baud)) := by
  have hclock : (input != 0) = true := bne_iff_ne.mpr h
  unfold init
  rw [hclock]
  -- None of the three writes that follow is to the divisor.
  change Outcome.ok (((((f.registers.poke Offset.divisor _).poke Offset.interruptEnable _).poke
    Offset.transmitControl _).poke Offset.receiveControl _).peek Offset.divisor |>.setWidth 32) = _
  simp only [RegisterMap.peek_poke, Offset.divisor, Offset.interruptEnable,
    Offset.transmitControl, Offset.receiveControl, Nat.reduceEqDiff, if_false, if_true]
  exact congrArg Outcome.ok (BitVec.setWidth_setWidth_of_le _ (by decide))

/-- The divisor is the smallest that keeps the baud rate, if there is one; it goes with the clock
    and against the target; nothing on the way to it leaves its word; and it is what starting the
    line programs. -/
theorem minDivisor_smallest {ε σ : Type} (machine : Machine Bus.interface σ) (s : σ)
    (f : RegisterFile) (input target : UInt64) :
    (target ≠ 0 →
      ((Keeps input.toNat target.toNat (minDivisor input target) ∧
          ∀ e < minDivisor input target, ¬Keeps input.toNat target.toNat e) ∨
        (minDivisor input target = 2 ^ 32 - 1 ∧ target.toNat * 2 ^ 32 < input.toNat)) ∧
      (∀ input', input ≤ input' → minDivisor input target ≤ minDivisor input' target) ∧
      (∀ target', target ≤ target' → minDivisor input target' ≤ minDivisor input target)) ∧
    (∃ divisor, minDivisorInWords input target = some divisor ∧
      divisor.toNat = minDivisor input target) ∧
    ((init input target : Driver ε Unit).run machine.recorded (.start s)).1 = .ok () ∧
    (input ≠ 0 →
      (accesses ((init input target : Driver ε Unit).run machine.recorded
          (.start s)).2.events).filter (Access.writes Offset.divisor) =
        [⟨true, 32, Offset.divisor, minDivisor input target⟩] ∧
      ((do init input target; divisor : Driver ε (BitVec 32)).run
          RegisterFile.device.machine f).1 = .ok (BitVec.ofNat 32 (minDivisor input target))) := by
  obtain ⟨hended, haccesses⟩ := run_init (ε := ε) machine s input target
  refine ⟨fun htarget => ⟨minDivisor_keeps input target htarget,
    fun input' => minDivisor_mono input input' target htarget,
    fun target' => minDivisor_anti input target target' htarget⟩,
    minDivisorInWords_eq input target, hended,
    fun hinput => ⟨?_, divisor_init input target f hinput⟩⟩
  rw [haccesses, if_neg hinput]
  rfl

theorem minDivisor_smallest_console :
    let run := (init 125000000 115200 : Driver Stalled Unit).run
      RegisterFile.device.machine.recorded (.start .empty)
    (115200 : UInt64) ≠ 0 ∧ (125000000 : UInt64) ≠ 0 ∧ Keeps 125000000 115200 1085 ∧
      (∀ e < 1085, ¬Keeps 125000000 115200 e) ∧
      (accesses run.2.events).filter (Access.writes Offset.divisor) =
        [⟨true, 32, Offset.divisor, 1085⟩] := by
  have hdivisor : minDivisor 125000000 115200 = 1085 := by decide
  obtain ⟨hsmallest, -, -, hprograms⟩ := minDivisor_smallest (ε := Stalled)
    RegisterFile.device.machine .empty .empty 125000000 115200
  rw [hdivisor] at hsmallest hprograms
  rcases (hsmallest (by decide)).1 with ⟨hkeeps, hleast⟩ | ⟨hlast, -⟩
  · exact ⟨by decide, by decide, hkeeps, hleast, (hprograms (by decide)).1⟩
  · exact absurd hlast (by decide)

end Serial

end BoardSupport
