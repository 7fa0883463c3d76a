import Mathlib.Algebra.Group.Nat.Defs
import Mathlib.Logic.Function.Basic
import BoardSupport.Timer.Service

/-!
# The Timer's Registers

What calls on the timer are about.

There is one clock, and each hart has a deadline and an interrupt word. These
are all the registers that the driver uses, and no two of them share a byte.

A call is answered from what the registers hold at its start. It reads before
it writes, and it writes one register at most, which is never the clock. So
`Call.reply` and `Call.after` say what a call comes to without a device: what a
client is told, and what the registers hold afterwards.

## Main definitions

* `Timer.Register`: The registers that the driver uses.
* `Timer.Contents`: What they hold.
* `Clint.Call.target?`: The register that a call writes.
* `Clint.Call.reply`, `Clint.Call.after`: What a call comes to.

## Theorems

* `Timer.Register.apart_of_ne`: Two registers share no byte.
* `Timer.Register.aligned_offset`: Every register can be accessed as a whole.
* `Clint.toNat_later`, `Clint.le_later`: A time some ticks later.
* `Clint.Call.after_of_target`: A call changes no other register.
-/

namespace BoardSupport

namespace Timer

/-- The registers that the driver uses. -/
inductive Register where
  | clock
  | deadline (h : Hart)
  | interrupt (h : Hart)
  deriving DecidableEq, Repr

namespace Register

/-- The width of the register. -/
@[reducible] def bits : Register → Nat
  | clock => 64
  | deadline _ => 64
  | interrupt _ => 32

/-- Where the register lies in the window. -/
def offset : Register → Nat
  | clock => clockOffset
  | deadline h => h.deadlineOffset
  | interrupt h => h.interruptOffset

/-- Whether a byte of the window belongs to the register. -/
def Covers (r : Register) (address : Nat) : Prop :=
  r.offset ≤ address ∧ address < r.offset + r.bits / 8

theorem offset_clock : clock.offset = 0xBFF8 := rfl

theorem offset_deadline (h : Hart) : (deadline h).offset = 0x4000 + 8 * h.index.val :=
  congrArg (0x4000 + ·) (Nat.mul_comm _ _)

theorem offset_interrupt (h : Hart) : (interrupt h).offset = 4 * h.index.val :=
  (Nat.zero_add _).trans (Nat.mul_comm _ _)

/-- Two registers share no byte. -/
theorem apart_of_ne (r r' : Register) (h : r ≠ r') :
    r.offset + r.bits / 8 ≤ r'.offset ∨ r'.offset + r'.bits / 8 ≤ r.offset := by
  have hindex : ∀ hart : Hart, hart.index.val < 5 := fun hart => hart.index.isLt
  have hinj : ∀ hart hart' : Hart, hart.index.val = hart'.index.val → hart = hart' := by
    rintro ⟨i⟩ ⟨j⟩ hij
    exact congrArg Hart.mk (Fin.ext hij)
  -- The interrupt words lie below the deadlines and these below the clock. Among
  -- words of one kind, those of a later hart are above.
  cases r with
  | clock =>
      cases r' with
      | clock => exact absurd rfl h
      | deadline b =>
          have hb := hindex b
          simp only [offset_clock, offset_deadline, bits]
          omega
      | interrupt b =>
          have hb := hindex b
          simp only [offset_clock, offset_interrupt, bits]
          omega
  | deadline a =>
      have ha := hindex a
      cases r' with
      | clock =>
          simp only [offset_clock, offset_deadline, bits]
          omega
      | deadline b =>
          have hne : a.index.val ≠ b.index.val := fun he => h (congrArg deadline (hinj a b he))
          simp only [offset_deadline, bits]
          omega
      | interrupt b =>
          have hb := hindex b
          simp only [offset_deadline, offset_interrupt, bits]
          omega
  | interrupt a =>
      have ha := hindex a
      cases r' with
      | clock =>
          simp only [offset_clock, offset_interrupt, bits]
          omega
      | deadline b =>
          simp only [offset_deadline, offset_interrupt, bits]
          omega
      | interrupt b =>
          have hne : a.index.val ≠ b.index.val := fun he => h (congrArg interrupt (hinj a b he))
          simp only [offset_interrupt, bits]
          omega

/-- Registers are told apart by their offsets. -/
theorem offset_ne (r r' : Register) (h : r ≠ r') : r.offset ≠ r'.offset := by
  have hsize : ∀ r : Register, 0 < r.bits / 8 := by
    intro r
    cases r <;> simp [bits]
  have hr := hsize r
  have hr' := hsize r'
  rcases apart_of_ne r r' h with hle | hle
  · omega
  · omega

/-- A register lies at a multiple of its size, at an address that exists. -/
theorem aligned_offset (r : Register) :
    (r.offset % (r.bits / 8) == 0 && decide (base.toNat + r.offset < UInt64.size)) = true := by
  have hindex : ∀ hart : Hart, hart.index.val < 5 := fun hart => hart.index.isLt
  have hbase : base.toNat = 0x02000000 := rfl
  have hsize : UInt64.size = 2 ^ 64 := rfl
  rw [Bool.and_eq_true, beq_iff_eq, decide_eq_true_iff, hbase, hsize]
  cases r with
  | clock => decide
  | deadline h =>
      have hlt := hindex h
      simp only [offset_deadline, bits]
      omega
  | interrupt h =>
      have hlt := hindex h
      simp only [offset_interrupt, bits]
      omega

end Register

/-- What the registers hold. -/
abbrev Contents := (r : Register) → BitVec r.bits

end Timer

namespace Clint

open Timer (Register Contents)

/-- The latest time is as many ticks from zero as 64 bits can count. -/
theorem toNat_endOfTime : endOfTime.toNat = 2 ^ 64 - 1 :=
  BitVec.toNat_allOnes

/-- A time some ticks later is that many ticks later, or the latest time. -/
theorem toNat_later (time ticks : BitVec 64) :
    (later time ticks).toNat = min (time.toNat + ticks.toNat) (2 ^ 64 - 1) := by
  unfold later
  have hsize : UInt64.size = 2 ^ 64 := rfl
  split
  · rename_i hfits
    rw [BitVec.toNat_add, Nat.mod_eq_of_lt hfits]
    omega
  · rw [toNat_endOfTime]
    omega

theorem le_later (time ticks : BitVec 64) : time ≤ later time ticks := by
  have htime := time.isLt
  rw [BitVec.le_def, toNat_later]
  omega

namespace Call

/-- The register that a call writes, if any. -/
def target? : Call → Option Register
  | .setDeadline h _ => some (.deadline h)
  | .armAfter h _ => some (.deadline h)
  | .disarm h => some (.deadline h)
  | .raiseInterrupt h => some (.interrupt h)
  | .clearInterrupt h => some (.interrupt h)
  | _ => none

/-- What a client is told, if the registers hold this at the start of the
    call. -/
def reply (c : Contents) : Call → Reply
  | .clock => .time (c .clock)
  | .deadline h => .time (c (.deadline h))
  | .armAfter _ ticks => .time (later (c .clock) ticks)
  | .timerExpired h => .holds (c (.deadline h) ≤ c .clock)
  | .interruptPending h => .holds (c (.interrupt h) &&& 1 != 0)
  | _ => .done

/-- What the registers hold after a call, but for the clock's going on. -/
def after (c : Contents) : Call → Contents
  | .setDeadline h time => Function.update c (.deadline h) time
  | .armAfter h ticks => Function.update c (.deadline h) (later (c .clock) ticks)
  | .disarm h => Function.update c (.deadline h) endOfTime
  | .raiseInterrupt h => Function.update c (.interrupt h) 1
  | .clearInterrupt h => Function.update c (.interrupt h) 0
  | _ => c

/-- A call changes no register but the one it writes. -/
theorem after_of_target (c : Contents) (call : Call) (r : Register) (h : call.target? ≠ some r) :
    call.after c r = c r := by
  cases call with
  | setDeadline | armAfter | disarm | raiseInterrupt | clearInterrupt =>
      exact Function.update_of_ne (fun he => h (congrArg some he.symm)) _ _
  | clock | deadline | timerExpired | interruptPending => rfl

/-- No call writes the clock. -/
theorem target_ne_clock (call : Call) : call.target? ≠ some .clock := by
  cases call <;> exact nofun

end Call

end Clint

end BoardSupport
