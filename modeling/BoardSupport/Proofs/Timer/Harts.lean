import BoardSupport.Proofs.Device.Memory
import BoardSupport.Proofs.Program.Sessions
import BoardSupport.Proofs.Timer.Registers

/-!
# Harts Do Not Interfere

What the calls of a session leave in the timer's window.

In its window the timer is memory: what a register holds is made of bytes, and
storing into one register could spill over into another. It does not, since no
two registers share a byte. So a call changes the bytes of the register that it
writes, and memory goes on showing what `Call.after` says.

From there on a session is about one register at a time. A hart's deadline is
the last that was set for the hart, its software interrupt is as it was raised
or cleared last, and what has been done for other harts plays no part.

## Main definitions

* `Clint.contents`: The registers in a window.
* `Clint.Call.stored`: The window after a call.
* `Clint.Call.sets?`, `Clint.Call.signals?`: What a call does to one hart.
* `Clint.Apart`: What a window shows after some calls.

## Theorems

* `Clint.contents_store`: Storing a register changes this one alone.
* `Clint.Call.run_memory`: What a call comes to in a window.
* `Clint.Call.aligned_program`: Every access of a call is aligned.
* `Clint.foldl_deadline`, `Clint.foldl_interrupt`: What was done last counts.
* `Clint.byte_foldl`: The bytes outside the registers that were written.
* `Clint.harts_apart`: Any session, from any memory.
-/

namespace BoardSupport

namespace Clint

open Timer (Register Contents)

/-- The registers in a window that is memory. -/
def contents (m : Memory) : Contents :=
  fun r => BitVec.ofNat r.bits (m.load (r.bits / 8) r.offset)

/-- Storing a register changes this one alone. -/
theorem contents_store (m : Memory) (r : Register) (word : BitVec r.bits) :
    contents (m.store (r.bits / 8) r.offset word.toNat) = Function.update (contents m) r word := by
  funext r'
  by_cases h : r' = r
  · subst h
    have hbytes : r'.bits = 8 * (r'.bits / 8) := by cases r' <;> simp [Register.bits]
    rw [Function.update_self]
    exact Memory.ofNat_load_store m _ _ word hbytes
  · rw [Function.update_of_ne h, contents, contents,
      Memory.load_store_of_apart _ _ _ _ _ _ (Register.apart_of_ne r' r h)]

namespace Call

/-- The window after a call. -/
def stored (m : Memory) (call : Call) : Memory :=
  match call.target? with
  | none => m
  | some r => m.store (r.bits / 8) r.offset (call.after (contents m) r).toNat

/-- In a window that is memory a call is answered from what it holds, and
    delivers. -/
theorem run_memory (call : Call) (m : Memory) :
    call.program.run Memory.device.machine m = (.ok (call.reply (contents m)), call.stored m) := by
  cases call with
  | clock | deadline | timerExpired | interruptPending => rfl
  | setDeadline | armAfter | disarm | raiseInterrupt | clearInterrupt =>
      simp only [stored, target?, after, Function.update_self]
      rfl

/-- The window shows what the call has left in the registers. -/
theorem contents_stored (call : Call) (m : Memory) :
    contents (call.stored m) = call.after (contents m) := by
  cases htarget : call.target? with
  | none =>
      funext r
      rw [stored, htarget, after_of_target _ _ _ (by rw [htarget]; exact nofun)]
  | some r =>
      rw [stored, htarget]
      funext r'
      rw [contents_store]
      by_cases h : r' = r
      · subst h
        rw [Function.update_self]
      · have hother : call.target? ≠ some r' := by
          rw [htarget]
          exact fun he => h (Option.some.inj he).symm
        rw [Function.update_of_ne h, after_of_target _ _ _ hother]

/-- A byte outside the register that a call writes stays. -/
theorem byte_stored (call : Call) (m : Memory) (address : Nat)
    (h : ∀ r, call.target? = some r → ¬ r.Covers address) :
    (call.stored m).byte address = m.byte address := by
  unfold stored
  cases htarget : call.target? with
  | none => rfl
  | some r =>
      have hout := h r htarget
      unfold Register.Covers at hout
      exact Memory.byte_store_of_outside _ _ _ _ _ (by omega)

/-- Every access of a call is aligned in the timer's window. -/
theorem aligned_program (call : Call) :
    Bus.aligned Timer.base.toNat call.program = call.program := by
  have hclock : (Timer.clockOffset % (64 / 8) == 0 &&
      decide (Timer.base.toNat + Timer.clockOffset < UInt64.size)) = true :=
    Register.aligned_offset .clock
  have hdeadline : ∀ h : Hart, (h.deadlineOffset % (64 / 8) == 0 &&
      decide (Timer.base.toNat + h.deadlineOffset < UInt64.size)) = true :=
    fun h => Register.aligned_offset (.deadline h)
  have hinterrupt : ∀ h : Hart, (h.interruptOffset % (32 / 8) == 0 &&
      decide (Timer.base.toNat + h.interruptOffset < UInt64.size)) = true :=
    fun h => Register.aligned_offset (.interrupt h)
  cases call <;>
    simp only [Bus.aligned, program, telling, Clint.armAfter, Clint.setDeadline, Clint.clock,
      Clint.deadline, Clint.disarm, Clint.timerExpired, Clint.raiseInterrupt,
      Clint.clearInterrupt, Clint.interruptPending, bind, Program.bind, Program.guarded, Bus.read,
      Bus.write, Bus.log, Bus.Operation.isAligned, hclock, hdeadline, hinterrupt, if_true, pure]

/-- The deadline that a call sets for a hart, if the clock stands at `now`. -/
def sets? (now : BitVec 64) (h : Hart) : Call → Option (BitVec 64)
  | .setDeadline h' time => if h' = h then some time else none
  | .armAfter h' ticks => if h' = h then some (later now ticks) else none
  | .disarm h' => if h' = h then some endOfTime else none
  | _ => none

/-- Whether a call raises a hart's software interrupt, or clears it. -/
def signals? (h : Hart) : Call → Option Bool
  | .raiseInterrupt h' => if h' = h then some true else none
  | .clearInterrupt h' => if h' = h then some false else none
  | _ => none

/-- Setting one hart's deadline keeps those of the others. -/
theorem update_deadline (c : Contents) (h h' : Hart) (time : BitVec 64) :
    Function.update c (.deadline h') time (.deadline h) =
      if h' = h then time else c (.deadline h) := by
  by_cases he : h' = h
  · subst he
    rw [Function.update_self, if_pos rfl]
  · rw [Function.update_of_ne fun hr => he (Register.deadline.inj hr).symm, if_neg he]

/-- Setting one hart's interrupt keeps those of the others. -/
theorem update_interrupt (c : Contents) (h h' : Hart) (word : BitVec 32) :
    Function.update c (.interrupt h') word (.interrupt h) =
      if h' = h then word else c (.interrupt h) := by
  by_cases he : h' = h
  · subst he
    rw [Function.update_self, if_pos rfl]
  · rw [Function.update_of_ne fun hr => he (Register.interrupt.inj hr).symm, if_neg he]

/-- A call sets the deadlines that it sets, and keeps the others. -/
theorem after_deadline (c : Contents) (h : Hart) (call : Call) :
    call.after c (.deadline h) = (call.sets? (c .clock) h).getD (c (.deadline h)) := by
  cases call with
  | setDeadline | armAfter | disarm =>
      rw [after, update_deadline, sets?]
      split <;> rfl
  | raiseInterrupt | clearInterrupt => exact after_of_target c _ (.deadline h) nofun
  | clock | deadline | timerExpired | interruptPending => rfl

/-- A call raises and clears the interrupts that it does, and keeps the
    others. -/
theorem after_interrupt (c : Contents) (h : Hart) (call : Call) :
    (call.after c (.interrupt h)).getLsbD 0 =
      (call.signals? h).getD ((c (.interrupt h)).getLsbD 0) := by
  cases call with
  | raiseInterrupt h' =>
      have hone : (1 : BitVec 32).getLsbD 0 = true := BitVec.getLsbD_one
      rw [after, update_interrupt, signals?]
      by_cases he : h' = h
      · rw [if_pos he, if_pos he, hone, Option.getD_some]
      · rw [if_neg he, if_neg he, Option.getD_none]
  | clearInterrupt h' =>
      have hzero : (0 : BitVec 32).getLsbD 0 = false := BitVec.getLsbD_zero
      rw [after, update_interrupt, signals?]
      by_cases he : h' = h
      · rw [if_pos he, if_pos he, hzero, Option.getD_some]
      · rw [if_neg he, if_neg he, Option.getD_none]
  | setDeadline | armAfter | disarm =>
      exact congrArg (BitVec.getLsbD · 0) (after_of_target c _ (.interrupt h) nofun)
  | clock | deadline | timerExpired | interruptPending => rfl

/-- The clock is no call's to change. -/
theorem after_clock (c : Contents) (call : Call) : call.after c .clock = c .clock :=
  after_of_target _ _ _ (target_ne_clock call)

end Call

/-- Whether a word has its lowest bit set. -/
theorem and_one_bne_zero (word : BitVec 32) : (word &&& 1 != 0) = word.getLsbD 0 := by
  have hword : word &&& 1 = BitVec.setWidth 32 (BitVec.ofBool (word.getLsbD 0)) :=
    BitVec.and_one_eq_setWidth_ofBool_getLsbD
  rw [hword]
  cases word.getLsbD 0 <;> rfl

/-- The clock is no session's to change. -/
theorem foldl_clock (c : Contents) (calls : List Call) :
    calls.foldl Call.after c .clock = c .clock := by
  induction calls generalizing c with
  | nil => rfl
  | cons call calls ih => rw [List.foldl_cons, ih, Call.after_clock]

/-- A hart's deadline is the last that was set for the hart. -/
theorem foldl_deadline (c : Contents) (h : Hart) (calls : List Call) :
    calls.foldl Call.after c (.deadline h) =
      latest (Call.sets? (c .clock) h) (c (.deadline h)) calls := by
  induction calls generalizing c with
  | nil => rfl
  | cons call calls ih =>
      rw [List.foldl_cons, ih, Call.after_clock, Call.after_deadline, latest_cons]

/-- A hart's software interrupt is as it was raised or cleared last. -/
theorem foldl_interrupt (c : Contents) (h : Hart) (calls : List Call) :
    (calls.foldl Call.after c (.interrupt h)).getLsbD 0 =
      latest (Call.signals? h) ((c (.interrupt h)).getLsbD 0) calls := by
  induction calls generalizing c with
  | nil => rfl
  | cons call calls ih => rw [List.foldl_cons, ih, Call.after_interrupt, latest_cons]

/-- A call in the timer's window is answered from what the window shows, and
    delivers. -/
theorem run_mapped (call : Call) (m : Memory) :
    (mapped.program () call).run Memory.device.machine m =
      (.ok (call.reply (contents m)), call.stored m) := by
  have hprogram : mapped.program () call = call.program := call.aligned_program
  rw [hprogram, Call.run_memory]

/-- A session leaves the window as its calls do, one after another. -/
theorem leaves_mapped (m : Memory) (calls : List Call) :
    mapped.leaves Memory.device.machine () m calls = calls.foldl Call.stored m := by
  induction calls generalizing m with
  | nil => rfl
  | cons call calls ih =>
      rw [Service.leaves, run_mapped]
      exact ih _

/-- The window shows what the calls of a session have left in the registers. -/
theorem contents_foldl (m : Memory) (calls : List Call) :
    contents (calls.foldl Call.stored m) = calls.foldl Call.after (contents m) := by
  induction calls generalizing m with
  | nil => rfl
  | cons call calls ih => rw [List.foldl_cons, ih, Call.contents_stored, List.foldl_cons]

/-- A byte outside all registers that were written stays. -/
theorem byte_foldl (m : Memory) (address : Nat) (calls : List Call)
    (h : ∀ call ∈ calls, ∀ r, call.target? = some r → ¬ r.Covers address) :
    (calls.foldl Call.stored m).byte address = m.byte address := by
  induction calls generalizing m with
  | nil => rfl
  | cons call calls ih =>
      rw [List.foldl_cons, ih _ fun c hc => h c (List.mem_cons_of_mem _ hc),
        Call.byte_stored _ _ _ (h call List.mem_cons_self)]

/-- What the window shows after some calls: every further call is carried out,
    the clock is what it was, a hart's deadline and interrupt are what was last
    done for this hart, and the bytes of registers that no call was about are
    as they were. -/
structure Apart (m : Memory) (past : List Call) (now : Memory) : Prop where
  carried : ∀ call, ∃ reply, mapped.Tells Memory.device.machine now call reply
  clock : mapped.Tells Memory.device.machine now .clock (.time (contents m .clock))
  deadline : ∀ h, mapped.Tells Memory.device.machine now (.deadline h)
    (.time (latest (Call.sets? (contents m .clock) h) (contents m (.deadline h)) past))
  interrupt : ∀ h, mapped.Tells Memory.device.machine now (.interruptPending h)
    (.holds (latest (Call.signals? h) ((contents m (.interrupt h)).getLsbD 0) past))
  kept : ∀ address, (∀ call ∈ past, ∀ r, call.target? = some r → ¬ r.Covers address) →
    now.byte address = m.byte address

/-- Harts do not interfere: whatever was done for whichever harts, from any
    memory, each hart's registers show what was last done for this hart. -/
theorem harts_apart (m : Memory) (past : List Call) :
    Apart m past (mapped.leaves Memory.device.machine () m past) := by
  rw [leaves_mapped]
  constructor
  case carried =>
    intro call
    exact ⟨_, congrArg Prod.fst (run_mapped call _)⟩
  case clock =>
    rw [Service.Tells, run_mapped, contents_foldl, Call.reply, foldl_clock]
  case deadline =>
    intro h
    rw [Service.Tells, run_mapped, contents_foldl, Call.reply, foldl_deadline]
  case interrupt =>
    intro h
    rw [Service.Tells, run_mapped, contents_foldl, Call.reply, and_one_bne_zero, foldl_interrupt]
  case kept =>
    intro address h
    exact byte_foldl m address past h

end Clint

end BoardSupport
