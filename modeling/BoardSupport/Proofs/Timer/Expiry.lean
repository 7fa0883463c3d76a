import BoardSupport.Device.RegisterFile
import BoardSupport.Proofs.Program.Leads
import BoardSupport.Proofs.Program.Sessions
import BoardSupport.Proofs.Timer.Registers

/-!
# Timers Fire on Time

When a hart's timer expires while the clock goes on.

The clock belongs to no one. Between any two accesses it may have gone on by any
amount, so what a call does to the registers is known but for that: the clock is
no earlier, and the rest is as the call left it. A call reads the clock once, and
what it makes of it is right for the moment of that access.

A deadline is in force for as long as no call sets another one for the hart. It
lies in the future from the moment it was computed, or at the end of time. The
timer has expired once the clock has reached it, neither before nor only some
time after, and since the clock does not go back this is so from then on.

## Main definitions

* `Clint.Elapsed`: What registers may hold once the clock has gone on.
* `Clint.KeepsTime`: A timer that is storage but for its clock.
* `Clint.Spares`: Calls that leave a hart's deadline in force.
* `Clint.Awaits`: A hart whose timer expires at some time.
* `Clint.Punctual`: What arming and disarming a hart's timer come to.
* `Clint.Ticking`: A timer whose clock goes on in steps laid out for it.

## Theorems

* `Clint.KeepsTime.call`: What one call comes to.
* `Clint.KeepsTime.calls`: What a session leaves of a deadline.
* `Clint.KeepsTime.awaits`: A deadline that is stored is waited for.
* `Clint.timer_punctual`: No timer fires early or late.
* `Clint.keepsTime_ticking`: Steps of any lengths.
-/

namespace BoardSupport

namespace Clint

open Timer (Register Contents)

/-- What registers may hold once the clock has gone on: the clock is no earlier,
    and the others are the same. -/
structure Elapsed (c d : Contents) : Prop where
  clock : c .clock ≤ d .clock
  others : ∀ r, r ≠ .clock → d r = c r

theorem Elapsed.trans {c d e : Contents} (h : Elapsed c d) (h' : Elapsed d e) : Elapsed c e :=
  ⟨BitVec.le_trans h.clock h'.clock, fun r hr => (h'.others r hr).trans (h.others r hr)⟩

-- Storing a register makes no difference to how the clock has gone on.
theorem Elapsed.update {c d : Contents} (h : Elapsed c d) (r : Register) (word : BitVec r.bits)
    (hr : r ≠ .clock) : Elapsed (Function.update c r word) (Function.update d r word) := by
  refine ⟨?_, fun r' hr' => ?_⟩
  · rw [Function.update_of_ne hr.symm, Function.update_of_ne hr.symm]
    exact h.clock
  · by_cases heq : r' = r
    · subst heq
      rw [Function.update_self, Function.update_self]
    · rw [Function.update_of_ne heq, Function.update_of_ne heq]
      exact h.others r' hr'

section Runs

variable {σ : Type} {machine : Machine Bus.interface σ} {contents : σ → Contents}

/-- A timer that is storage but for its clock, which goes on by any amount with
    every access and does not go back. -/
structure KeepsTime (machine : Machine Bus.interface σ) (contents : σ → Contents) : Prop where
  answer : ∀ s (r : Register), (machine (.read r.bits r.offset) s).1 = contents s r
  read : ∀ s (r : Register), Elapsed (contents s) (contents (machine (.read r.bits r.offset) s).2)
  log : ∀ s level message, Elapsed (contents s) (contents (machine (.log level message) s).2)
  write : ∀ s (r : Register) word, r ≠ .clock → Elapsed (Function.update (contents s) r word)
    (contents (machine (.write r.bits r.offset word) s).2)

/-- A register is read. -/
theorem KeepsTime.look (hm : KeepsTime machine contents) (r : Register) (s : σ) :
    ∃ u, (Bus.read r.bits r.offset : Driver Empty _).run machine s = (.ok (contents s r), u) ∧
      Elapsed (contents s) (contents u) := by
  refine ⟨_, ?_, hm.read s r⟩
  rw [Bus.read, Program.run_ask, hm.answer, Program.run_done]

/-- A record is logged and a register is written. -/
theorem KeepsTime.record (hm : KeepsTime machine contents) (level : Log.Level) (message : String)
    (r : Register) (word : BitVec r.bits) (hr : r ≠ .clock) (s : σ) :
    ∃ u, ((Bus.log level message).bind fun _ => Bus.write r.bits r.offset word :
        Driver Empty Unit).run machine s = (.ok (), u) ∧
      Elapsed (Function.update (contents s) r word) (contents u) :=
  ⟨_, rfl, ((hm.log s level message).update r word hr).trans (hm.write _ r word hr)⟩

theorem run_telling {ε α : Type} {p : Driver ε α} {s u : σ} {a : α}
    (h : p.run machine s = (.ok a, u)) (tell : α → Reply) :
    (telling tell p).run machine s = (.ok (tell a), u) :=
  Program.run_bind_ok h fun a => pure (tell a)

/-- A call is answered from what the registers held at its start, and leaves them
    as it does on a clock that stands still. -/
theorem KeepsTime.call (hm : KeepsTime machine contents) (call : Call) (s : σ) :
    ∃ u, call.program.run machine s = (.ok (call.reply (contents s)), u) ∧
      Elapsed (call.after (contents s)) (contents u) := by
  cases call with
  | clock =>
      rcases hm.look .clock s with ⟨u, hrun, helapsed⟩
      exact ⟨u, run_telling hrun _, helapsed⟩
  | deadline h =>
      rcases hm.look (.deadline h) s with ⟨u, hrun, helapsed⟩
      exact ⟨u, run_telling hrun _, helapsed⟩
  | setDeadline h time =>
      rcases hm.record .trace _ (.deadline h) time nofun s with ⟨u, hrun, helapsed⟩
      exact ⟨u, run_telling hrun _, helapsed⟩
  | armAfter h ticks =>
      rcases hm.look .clock s with ⟨v, hread, hgone⟩
      rcases hm.record .trace _ (.deadline h) (later (contents s .clock) ticks) nofun v with
        ⟨u, hrun, helapsed⟩
      have harm : (Clint.armAfter h ticks : Driver Empty _).run machine s =
          (.ok (later (contents s .clock) ticks), u) :=
        (Program.run_bind_ok hread _).trans (Program.run_bind_ok hrun _)
      exact ⟨u, run_telling harm _, (hgone.update (.deadline h) _ nofun).trans helapsed⟩
  | disarm h =>
      rcases hm.record .trace _ (.deadline h) endOfTime nofun s with ⟨u, hrun, helapsed⟩
      exact ⟨u, run_telling hrun _, helapsed⟩
  | timerExpired h =>
      rcases hm.look .clock s with ⟨v, hread, hgone⟩
      rcases hm.look (.deadline h) v with ⟨u, hrun, helapsed⟩
      rw [hgone.others (.deadline h) nofun] at hrun
      have hexpired : (Clint.timerExpired h : Driver Empty _).run machine s =
          (.ok (contents s (.deadline h) ≤ contents s .clock), u) :=
        (Program.run_bind_ok hread _).trans (Program.run_bind_ok hrun _)
      exact ⟨u, run_telling hexpired _, hgone.trans helapsed⟩
  | raiseInterrupt h =>
      rcases hm.record .trace _ (.interrupt h) 1 nofun s with ⟨u, hrun, helapsed⟩
      exact ⟨u, run_telling hrun _, helapsed⟩
  | clearInterrupt h =>
      rcases hm.record .trace _ (.interrupt h) 0 nofun s with ⟨u, hrun, helapsed⟩
      exact ⟨u, run_telling hrun _, helapsed⟩
  | interruptPending h =>
      rcases hm.look (.interrupt h) s with ⟨u, hrun, helapsed⟩
      have hpending : (Clint.interruptPending h : Driver Empty _).run machine s =
          (.ok (contents s (.interrupt h) &&& 1 != 0), u) :=
        Program.run_bind_ok hrun _
      exact ⟨u, run_telling hpending _, helapsed⟩

/-- Calls that set no deadline for a hart. -/
def Spares (h : Hart) (calls : List Call) : Prop :=
  ∀ call ∈ calls, call.target? ≠ some (.deadline h)

/-- A deadline is what a session that spares it has found, and the clock is no
    earlier than it was. -/
theorem KeepsTime.calls (hm : KeepsTime machine contents) (h : Hart) (calls : List Call)
    (hspares : Spares h calls) (s : σ) :
    contents s .clock ≤ contents (service.leaves machine () s calls) .clock ∧
      contents (service.leaves machine () s calls) (.deadline h) = contents s (.deadline h) := by
  induction calls generalizing s with
  | nil => exact ⟨BitVec.le_refl _, rfl⟩
  | cons call rest ih =>
      rcases hm.call call s with ⟨u, hrun, helapsed⟩
      rcases ih (fun c hc => hspares c (List.mem_cons_of_mem call hc)) u with ⟨hclock, hdeadline⟩
      have hleaves : service.leaves machine () s (call :: rest) =
          service.leaves machine () u rest := by
        have hprogram : service.program () call = call.program := rfl
        rw [Service.leaves, hprogram, hrun]
      rw [hleaves]
      constructor
      · have hstep := helapsed.clock
        rw [call.after_of_target _ _ call.target_ne_clock] at hstep
        exact BitVec.le_trans hstep hclock
      · rw [hdeadline, helapsed.others (.deadline h) nofun,
          call.after_of_target _ _ (hspares call List.mem_cons_self)]

/-- A hart's timer is going to expire at some time: for as long as no call sets
    another deadline for the hart, the stored one is this time, the timer has
    expired if the clock has reached it, and if it has expired it stays so. -/
structure Awaits (machine : Machine Bus.interface σ) (contents : σ → Contents) (h : Hart)
    (due : BitVec 64) (s : σ) : Prop where
  stored : ∀ calls, Spares h calls →
    service.Tells machine (service.leaves machine () s calls) (.deadline h) (.time due)
  expired : ∀ calls, Spares h calls →
    service.Tells machine (service.leaves machine () s calls) (.timerExpired h)
      (.holds (due ≤ contents (service.leaves machine () s calls) .clock))
  lasting : ∀ calls more, Spares h calls → Spares h more →
    service.Tells machine (service.leaves machine () s calls) (.timerExpired h) (.holds true) →
      service.Tells machine (service.leaves machine () s (calls ++ more)) (.timerExpired h)
        (.holds true)

/-- A deadline that is stored is waited for. -/
theorem KeepsTime.awaits (hm : KeepsTime machine contents) (h : Hart) (s : σ) :
    Awaits machine contents h (contents s (.deadline h)) s := by
  have hexpired : ∀ calls, Spares h calls →
      service.Tells machine (service.leaves machine () s calls) (.timerExpired h)
        (.holds (contents s (.deadline h) ≤
          contents (service.leaves machine () s calls) .clock)) := by
    intro calls hspares
    rcases hm.call (.timerExpired h) (service.leaves machine () s calls) with ⟨u, hrun, -⟩
    rw [← (hm.calls h calls hspares s).2]
    exact congrArg Prod.fst hrun
  constructor
  case stored =>
    intro calls hspares
    rcases hm.call (.deadline h) (service.leaves machine () s calls) with ⟨u, hrun, -⟩
    rw [← (hm.calls h calls hspares s).2]
    exact congrArg Prod.fst hrun
  case expired => exact hexpired
  case lasting =>
    intro calls more hcalls hmore htrue
    have hboth : Spares h (calls ++ more) := by
      intro call hc
      rcases List.mem_append.mp hc with hc | hc
      · exact hcalls call hc
      · exact hmore call hc
    have hgone := (hm.calls h more hmore (service.leaves machine () s calls)).1
    rw [← Service.leaves_append] at hgone
    rw [Service.Tells, hexpired calls hcalls] at htrue
    have hdue : contents s (.deadline h) ≤ contents (service.leaves machine () s calls) .clock := by
      simpa using htrue
    have hstill := hexpired _ hboth
    rw [decide_eq_true (BitVec.le_trans hdue hgone)] at hstill
    exact hstill

/-- What arming and disarming a hart's timer come to. -/
structure Punctual (machine : Machine Bus.interface σ) (contents : σ → Contents) (h : Hart)
    (s : σ) : Prop where
  /-- Once armed it expires as many ticks after the time that was read, or at the
      end of time if that is nearer, and not in the past. -/
  armed : ∀ ticks, ∃ due u,
    (service.program () (.armAfter h ticks)).run machine s = (.ok (.time due), u) ∧
      due.toNat = min ((contents s .clock).toNat + ticks.toNat) (2 ^ 64 - 1) ∧
      contents s .clock ≤ due ∧ Awaits machine contents h due u
  /-- Once disarmed it expires at the end of time. -/
  disarmed : ∃ u, (service.program () (.disarm h)).run machine s = (.ok .done, u) ∧
    Awaits machine contents h endOfTime u ∧
      ∀ calls, Spares h calls →
        service.Tells machine (service.leaves machine () u calls) (.timerExpired h)
          (.holds true) →
        (contents (service.leaves machine () u calls) .clock).toNat = 2 ^ 64 - 1

/-- No timer fires early or late, however far the clock goes on between any two
    accesses. -/
theorem timer_punctual (hm : KeepsTime machine contents) (h : Hart) (s : σ) :
    Punctual machine contents h s := by
  constructor
  case armed =>
    intro ticks
    rcases hm.call (.armAfter h ticks) s with ⟨u, hrun, helapsed⟩
    have hstored : contents u (.deadline h) = later (contents s .clock) ticks := by
      rw [helapsed.others (.deadline h) nofun]
      exact Function.update_self _ _ _
    have hawaits := hm.awaits h u
    rw [hstored] at hawaits
    exact ⟨_, u, hrun, toNat_later _ _, le_later _ _, hawaits⟩
  case disarmed =>
    rcases hm.call (.disarm h) s with ⟨u, hrun, helapsed⟩
    have hstored : contents u (.deadline h) = endOfTime := by
      rw [helapsed.others (.deadline h) nofun]
      exact Function.update_self _ _ _
    have hawaits := hm.awaits h u
    rw [hstored] at hawaits
    refine ⟨u, hrun, hawaits, fun calls hspares htrue => ?_⟩
    rw [Service.Tells, hawaits.expired calls hspares] at htrue
    have hdue : endOfTime ≤ contents (service.leaves machine () u calls) .clock := by
      simpa using htrue
    have hlt := (contents (service.leaves machine () u calls) .clock).isLt
    rw [BitVec.le_def, toNat_endOfTime] at hdue
    omega

end Runs

/-- Registers and a clock that goes on by the next of some steps with every
    access, and stands still once they are used up. -/
structure Ticking where
  registers : RegisterMap
  steps : List (BitVec 64)

namespace Ticking

/-- What the registers hold. -/
def contents (t : Ticking) : Contents :=
  fun r => (t.registers.peek r.offset).setWidth r.bits

/-- The clock goes on by a step, at most to the end of time. -/
def tick (t : Ticking) : Ticking :=
  match t.steps with
  | [] => t
  | step :: rest =>
    ⟨t.registers.poke Timer.clockOffset (later (t.registers.peek Timer.clockOffset) step), rest⟩

/-- The clock goes on after every read and every write. -/
def device : Device Ticking where
  read bits offset t := ((t.registers.peek offset).setWidth bits, t.tick)
  write _ offset value t :=
    tick { t with registers := t.registers.poke offset (value.setWidth 64) }

theorem elapsed_tick (t : Ticking) : Elapsed t.contents t.tick.contents := by
  unfold tick
  cases t.steps with
  | nil => exact ⟨BitVec.le_refl _, fun _ _ => rfl⟩
  | cons step rest =>
      constructor
      case clock =>
        simp only [contents, RegisterMap.peek_poke, Register.offset, if_true]
        exact le_later _ _
      case others =>
        intro r hr
        have hoffset : r.offset ≠ Timer.clockOffset := Register.offset_ne r .clock hr
        simp only [contents, RegisterMap.peek_poke, if_neg hoffset]

theorem contents_poke (t : Ticking) (r : Register) (word : BitVec r.bits) :
    contents { t with registers := t.registers.poke r.offset (word.setWidth 64) } =
      Function.update t.contents r word := by
  have hbits : r.bits ≤ 64 := by cases r <;> simp [Register.bits]
  funext r'
  by_cases h : r' = r
  · subst h
    rw [Function.update_self, contents, RegisterMap.peek_poke, if_pos rfl]
    exact (BitVec.setWidth_setWidth_of_le word hbits).trans (BitVec.setWidth_eq word)
  · have hoffset : r'.offset ≠ r.offset := Register.offset_ne r' r h
    rw [Function.update_of_ne h, contents, contents, RegisterMap.peek_poke, if_neg hoffset]

end Ticking

/-- A clock that goes on in steps keeps time, whatever the steps are. -/
theorem keepsTime_ticking : KeepsTime Ticking.device.machine Ticking.contents where
  answer _ _ := rfl
  read t _ := t.elapsed_tick
  log t _ _ := ⟨BitVec.le_refl _, fun _ _ => rfl⟩
  write t r word _ := by
    rw [← Ticking.contents_poke]
    exact Ticking.elapsed_tick _

/-- A clock sixteen ticks before the end of time, which goes on in steps of
    seven. -/
def Ticking.late : Ticking :=
  ⟨RegisterMap.empty.poke Timer.clockOffset 0xFFFFFFFFFFFFFFEF, [7, 0, 7, 7]⟩

theorem timer_punctual_late :
    KeepsTime Ticking.device.machine Ticking.contents ∧
      Punctual Ticking.device.machine Ticking.contents ⟨⟨2, by decide⟩⟩ Ticking.late :=
  ⟨keepsTime_ticking, timer_punctual keepsTime_ticking ⟨⟨2, by decide⟩⟩ Ticking.late⟩

end Clint

end BoardSupport
