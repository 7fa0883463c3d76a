import BoardSupport.Bus

/-!
# What a Driver Did

A recorded run of a driver as a list of register accesses and a list of log
records, each in order.

Polling repeats one access over and over, so accesses are also counted: a run
of equal neighbours becomes one access and its count.

## Main definitions

* `Bus.Access`: One access to a register and the value that moved.
* `Bus.accesses`: The accesses of a recorded run.
* `Bus.records`: The log records of a recorded run.
* `Bus.counted`: Equal neighbours counted.
-/

namespace BoardSupport

namespace Bus

/-- One access to a register: which way, how wide, where, and what value. -/
structure Access where
  isWrite : Bool
  bits : Nat
  offset : Nat
  value : Nat
  deriving DecidableEq, Repr

/-- The access an event is, unless it is a log record. -/
def access? : Event interface → Option Access
  | ⟨.read bits offset, answer⟩ => some ⟨false, bits, offset, answer.toNat⟩
  | ⟨.write bits offset value, _⟩ => some ⟨true, bits, offset, value.toNat⟩
  | ⟨.log _ _, _⟩ => none

/-- The log record an event is, unless it is an access. -/
def record? : Event interface → Option (Log.Level × String)
  | ⟨.log level message, _⟩ => some (level, message)
  | _ => none

/-- The accesses among some events, in order. -/
def accesses (events : List (Event interface)) : List Access :=
  events.filterMap access?

/-- The log records among some events, in order. -/
def records (events : List (Event interface)) : List (Log.Level × String) :=
  events.filterMap record?

/-- Count one more element behind those counted so far, which come latest
    first. -/
def countNext {α : Type} [DecidableEq α] : List (α × Nat) → α → List (α × Nat)
  | [], a => [(a, 1)]
  | (b, n) :: rest, a => if a = b then (b, n + 1) :: rest else (a, 1) :: (b, n) :: rest

/-- A list with equal neighbours counted. -/
def counted {α : Type} [DecidableEq α] (xs : List α) : List (α × Nat) :=
  (xs.foldl countNext []).reverse

end Bus

end BoardSupport
