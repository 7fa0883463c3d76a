import BoardSupport.I2c.Controller
import BoardSupport.Proofs.Flash.Waits
import Mathlib.Order.Bounds.Basic

/-!
# How Often a Wait Asks

Every wait asks until it is told what it waits for, and no longer than it may.

The words that a register answers to reads in a row are a sequence, one for each machine and
each state of it, and a wait reads along this sequence. Which words it may wait for, how often it
may ask and what it makes of the answer differ from wait to wait. That it stops at the first word
that is right, or else after the last that it may ask for, is one fact about polling, and it is
proved by induction on the tries: a word that is refused leaves the machine one read further
along, and what is left of the sequence is a sequence again.

A recording of the machine answers like the machine and remembers all reads, so what was asked is
known from the sequence as well. Four waits of the two controllers are of this kind. Three of them
do nothing else. Emptying the FIFO of the I2C controller requests it first, by a read and a write
of the register it then waits on; the words that count are those after the request.

## Main definitions

* `Bus.afterReads`, `Bus.answer`: A machine after some reads of a register, and what the next one
  answers.
* `Bus.playing`: A machine that answers a sequence.
* `Bus.Exact`: A wait that stops where it should, with what it read and how it ended.

## Theorems

* `Bus.answer_playing`: Every sequence is answered by some machine.
* `Bus.run_poll`: Where polling stops on every machine.
* `Bus.afterReads_recorded`: What a recording remembers of reads in a row.
* `Bus.exact_wait`: A wait that reports a cause when it runs out.
* `Bus.waits_exact`: The four waits.
-/

namespace BoardSupport

namespace Bus

section Sequence

variable {σ : Type} (machine : Machine interface σ) (bits offset : Nat)

/-- The state of a machine after so many reads of one register. -/
def afterReads (s : σ) (reads : Nat) : σ :=
  (fun s => (machine (.read bits offset) s).2)^[reads] s

/-- What a read of a register answers after so many others of it. -/
def answer (s : σ) (reads : Nat) : BitVec bits :=
  (machine (.read bits offset) (afterReads machine bits offset s reads)).1

/-- One read more, at the end. -/
theorem afterReads_succ (s : σ) (reads : Nat) :
    afterReads machine bits offset s (reads + 1) =
      (machine (.read bits offset) (afterReads machine bits offset s reads)).2 :=
  Function.iterate_succ_apply' _ reads s

/-- A machine that answers the words of a sequence to reads, from the one its state says on. -/
def playing {bits : Nat} (words : Nat → BitVec bits) : Machine interface Nat
  | .read width _, next => ((words next).setWidth width, next + 1)
  | .write _ _ _, next => ((), next)
  | .log _ _, next => ((), next)

/-- Every sequence is answered by some machine. -/
theorem answer_playing {bits : Nat} (words : Nat → BitVec bits) (offset next reads : Nat) :
    answer (playing words) bits offset next reads = words (next + reads) := by
  induction reads generalizing next with
  | zero => exact BitVec.setWidth_eq (words next)
  | succ reads ih =>
      change answer (playing words) bits offset (next + 1) reads = _
      rw [ih, Nat.add_right_comm, Nat.add_assoc]

end Sequence

section Polling

variable {σ ε α β : Type} (machine : Machine interface σ) {bits offset : Nat}

variable (offset) in
/-- Where polling stops on every machine: at the first word that is accepted, if there is one
    among those that may be asked for, and otherwise after all of them. -/
theorem run_poll (f : BitVec bits → α) (accept : α → Bool) (tries : Nat) (s : σ) :
    let words := answer machine bits offset s
    let run := (Program.poll tries ((read bits offset).bind fun w => .done (.ok (f w))) accept :
      Driver ε (Option α)).run machine s
    (∃ i < tries, accept (f (words i)) = true ∧ (∀ j < i, accept (f (words j)) = false) ∧
        run = (.ok (some (f (words i))), afterReads machine bits offset s (i + 1))) ∨
      ((∀ i < tries, accept (f (words i)) = false) ∧
        run = (.ok none, afterReads machine bits offset s tries)) := by
  -- Induction on the tries. A word that was refused comes before those of the rest of the wait.
  induction tries generalizing s with
  | zero => exact Or.inr ⟨fun i hi => absurd hi (Nat.not_lt_zero i), rfl⟩
  | succ tries ih =>
      intro words run
      have hrun : run = (if accept (f (words 0)) = true then Program.done (.ok (some (f (words 0))))
          else Program.poll tries ((read bits offset).bind fun w => .done (.ok (f w))) accept :
            Driver ε (Option α)).run machine (machine (.read bits offset) s).2 := rfl
      by_cases haccept : accept (f (words 0)) = true
      · rw [if_pos haccept] at hrun
        exact Or.inl ⟨0, Nat.succ_pos tries, haccept, fun j hj => absurd hj (Nat.not_lt_zero j),
          hrun⟩
      · rw [if_neg haccept] at hrun
        have hzero : accept (f (words 0)) = false := Bool.eq_false_iff.mpr haccept
        rcases ih (machine (.read bits offset) s).2 with
          ⟨i, hi, hright, hbefore, hrest⟩ | ⟨hnone, hrest⟩
        · refine Or.inl ⟨i + 1, Nat.succ_lt_succ hi, hright, ?_, hrun.trans hrest⟩
          intro j hj
          cases j with
          | zero => exact hzero
          | succ j => exact hbefore j (Nat.lt_of_succ_lt_succ hj)
        · refine Or.inr ⟨?_, hrun.trans hrest⟩
          intro i hi
          cases i with
          | zero => exact hzero
          | succ i => exact hnone i (Nat.lt_of_succ_lt_succ hi)

/-- What a recording remembers of reads in a row, and that its machine answers them as it would
    unrecorded. -/
theorem afterReads_recorded (r : Machine.Recording interface σ) (reads : Nat) :
    afterReads machine.recorded bits offset r reads =
      ⟨afterReads machine bits offset r.state reads,
        ((List.range reads).map fun i =>
          readEvent bits offset (answer machine bits offset r.state i)).reverse ++ r.latest⟩ := by
  induction reads with
  | zero => rfl
  | succ reads ih =>
      rw [afterReads_succ, ih, afterReads_succ, List.range_succ, List.map_append,
        List.reverse_append]
      rfl

theorem answer_recorded (r : Machine.Recording interface σ) (reads : Nat) :
    answer machine.recorded bits offset r reads = answer machine bits offset r.state reads := by
  rw [answer, afterReads_recorded]
  rfl

/-- The accesses of so many reads of a register that answer the words of a sequence. -/
def readsOf (bits offset : Nat) (words : Nat → BitVec bits) (reads : Nat) : List Access :=
  (List.range reads).map fun i => .ofRead bits offset (words i)

/-- A wait on a register stops where it should. The words it is answered are those of a sequence,
    and it may ask for `limit` of them. It delivers exactly if one of these is right. Then it has
    read up to the first that is, and delivers what it makes of that word; otherwise it has read
    all of them and reports the cause. Nothing else was read or written. -/
structure Exact (bits offset : Nat) (right : BitVec bits → Prop) (limit : Nat)
    (words : Nat → BitVec bits) (value : BitVec bits → β) (cause : ε) (outcome : Outcome ε β)
    (polled : List Access) : Prop where
  delivers_iff : outcome.isOk = true ↔ ∃ i < limit, right (words i)
  found : ∀ i, IsLeast {i | i < limit ∧ right (words i)} i →
    outcome = .ok (value (words i)) ∧ polled = readsOf bits offset words (i + 1)
  exhausted : (¬∃ i < limit, right (words i)) →
    outcome = .error cause ∧ polled = readsOf bits offset words limit

section Exact

variable {right : BitVec bits → Prop} {limit : Nat} {words : Nat → BitVec bits}
  {value : BitVec bits → β} {cause : ε}

/-- A wait that stopped at the first word that is right. -/
theorem exact_of_first (i : Nat) (hi : i < limit) (hright : right (words i))
    (hbefore : ∀ j < i, ¬right (words j)) :
    Exact bits offset right limit words value cause (.ok (value (words i)))
      (readsOf bits offset words (i + 1)) where
  delivers_iff := iff_of_true rfl ⟨i, hi, hright⟩
  found := by
    rintro k ⟨⟨-, hk⟩, hleast⟩
    -- No word is right before the first one, and none is before the least one either.
    have hle : k ≤ i := hleast ⟨hi, hright⟩
    have hge : i ≤ k := Nat.le_of_not_lt fun hlt => hbefore k hlt hk
    rw [Nat.le_antisymm hle hge]
    exact ⟨rfl, rfl⟩
  exhausted hnone := absurd ⟨i, hi, hright⟩ hnone

/-- A wait that was answered no word that is right. -/
theorem exact_of_none (hnone : ∀ i < limit, ¬right (words i)) :
    Exact bits offset right limit words value cause (.error cause)
      (readsOf bits offset words limit) where
  delivers_iff := iff_of_false Bool.false_ne_true fun ⟨i, hi, hright⟩ => hnone i hi hright
  found i hleast := absurd hleast.1.2 (hnone i hleast.1.1)
  exhausted _ := ⟨rfl, rfl⟩

end Exact

theorem accesses_readEvents (words : Nat → BitVec bits) (reads : Nat) :
    accesses ((List.range reads).map fun i => readEvent bits offset (words i)) =
      readsOf bits offset words reads := by
  rw [accesses, List.filterMap_map, readsOf, ← List.filterMap_eq_map]
  rfl

section Wait

variable (f : BitVec bits → α) (accept : α → Bool) (limit : Nat) (next : Option α → Driver ε β)
  (value : BitVec bits → β) (right : BitVec bits → Prop) (level : Log.Level) (message : String)
  (cause : ε) (hright : ∀ w, accept (f w) = true ↔ right w)
  (hsome : ∀ w, next (some (f w)) = .done (.ok (value w)))
  (hnone : next none = (log level message).bind fun _ => .done (.error cause))

include hright hsome hnone

/-- A wait that reports a cause, and says so to the log, when it runs out. Whatever was recorded
    before, it adds the reads of its register and nothing else. -/
theorem exact_wait (r : Machine.Recording interface σ) :
    let run := ((Program.poll limit ((read bits offset).bind fun w => .done (.ok (f w)))
      accept).bind next).run machine.recorded r
    ∃ polled, accesses run.2.events = accesses r.events ++ polled ∧
      Exact bits offset right limit (answer machine bits offset r.state) value cause run.1
        polled := by
  intro run
  have hevents : ∀ reads, accesses (afterReads machine.recorded bits offset r reads).events =
      accesses r.events ++ readsOf bits offset (answer machine bits offset r.state) reads := by
    intro reads
    rw [afterReads_recorded, Machine.Recording.events, List.reverse_append, List.reverse_reverse,
      accesses_append, accesses_readEvents]
    rfl
  have hrun := Program.run_bind machine.recorded
    (Program.poll limit ((read bits offset).bind fun w => .done (.ok (f w))) accept) next r
  have hpoll := run_poll (ε := ε) machine.recorded offset f accept limit r
  simp only [answer_recorded] at hpoll
  -- What was refused is not right.
  have hrefused : ∀ w, accept (f w) = false → ¬right w :=
    fun w hw => mt (hright w).mpr (Bool.eq_false_iff.mp hw)
  rcases hpoll with ⟨i, hi, haccept, hbefore, hpoll⟩ | ⟨hall, hpoll⟩
  · rw [hpoll] at hrun
    simp only [hsome, Program.run_done] at hrun
    have houtcome : run.1 = .ok (value (answer machine bits offset r.state i)) :=
      congrArg Prod.fst hrun
    have hstate : run.2 = afterReads machine.recorded bits offset r (i + 1) :=
      congrArg Prod.snd hrun
    refine ⟨readsOf bits offset (answer machine bits offset r.state) (i + 1), ?_, ?_⟩
    · rw [hstate, hevents]
    · rw [houtcome]
      exact exact_of_first i hi ((hright _).mp haccept) fun j hj => hrefused _ (hbefore j hj)
  · rw [hpoll] at hrun
    simp only [hnone] at hrun
    have houtcome : run.1 = .error cause := congrArg Prod.fst hrun
    have hlog : run.2.events =
        (afterReads machine.recorded bits offset r limit).events ++ [logEvent level message] :=
      (congrArg (fun run => run.2.events) hrun).trans List.reverse_cons
    refine ⟨readsOf bits offset (answer machine bits offset r.state) limit, ?_, ?_⟩
    · -- What is said to the log is no access.
      rw [hlog, accesses_append, hevents]
      exact List.append_nil _
    · rw [houtcome]
      exact exact_of_none fun i hi => hrefused _ (hall i hi)

/-- A wait before which nothing was recorded. -/
theorem exact_wait_start (s : σ) :
    let run := ((Program.poll limit ((read bits offset).bind fun w => .done (.ok (f w)))
      accept).bind next).run machine.recorded (.start s)
    Exact bits offset right limit (answer machine bits offset s) value cause run.1
      (accesses run.2.events) := by
  intro run
  rcases exact_wait machine f accept limit next value right level message cause hright hsome hnone
    (.start s) with ⟨polled, hpolled, hexact⟩
  rw [hpolled]
  exact hexact

end Wait

end Polling

end Bus

section Waits

variable {σ : Type} (machine : Machine Bus.interface σ)

open Bus (Exact accesses answer exact_wait exact_wait_start playing)

-- Words have an interrupt in common if some bit of both is set.
theorem Flash.intersects_iff (status mask : BitVec 32) :
    Flash.Interrupts.intersects status mask = true ↔
      ∃ i, mask.getLsbD i = true ∧ status.getLsbD i = true := by
  have hand : ∀ i, (status &&& mask).getLsbD i = true ↔
      mask.getLsbD i = true ∧ status.getLsbD i = true := fun i => by
    rw [BitVec.getLsbD_and, Bool.and_eq_true, and_comm]
  rw [Flash.Interrupts.intersects, bne_iff_ne]
  constructor
  · intro hne
    by_contra hnone
    refine hne (BitVec.eq_of_getLsbD_eq fun i _ => ?_)
    rw [Bool.eq_false_iff.mpr fun hi => hnone ⟨i, (hand i).mp hi⟩]
    exact BitVec.getLsbD_zero.symm
  · rintro ⟨i, hi⟩ hzero
    have hbit := (hand i).mpr hi
    rw [hzero] at hbit
    exact Bool.false_ne_true (BitVec.getLsbD_zero.symm.trans hbit)

/-- The four waits, each on its own register and for its own words. -/
theorem Bus.waits_exact (s : σ) :
    (∀ mask spins,
      let run := (Flash.waitFor mask spins).run machine.recorded (.start s)
      Exact 32 Flash.Offset.interruptStatus
        (fun w => ∃ i, mask.getLsbD i = true ∧ w.getLsbD i = true) spins
        (answer machine 32 Flash.Offset.interruptStatus s) id (.timeout mask spins)
        run.1 (accesses run.2.events)) ∧
    (∀ level spins,
      let run := (Flash.waitFifoLevel level spins).run machine.recorded (.start s)
      Exact 32 Flash.Offset.fifoPointer (fun w => w.toNat % 16 = level) spins
        (answer machine 32 Flash.Offset.fifoPointer s) (fun _ => ()) (.fifoLevel level spins)
        run.1 (accesses run.2.events)) ∧
    (∀ c : I2c.Controller,
      let run := c.waitBusInactive.run machine.recorded (.start s)
      Exact 16 I2c.Offset.status (fun w => w.getLsbD 8 = false) c.spinLimit
        (answer machine 16 I2c.Offset.status s) (fun _ => ()) (.timeout .busInactive)
        run.1 (accesses run.2.events)) ∧
    ∀ c : I2c.Controller,
      let run := c.clearFifo.run machine.recorded (.start s)
      let cr := answer machine 16 I2c.Offset.control s 0
      let request := I2c.Control.clrfifo.put 1 cr
      let requested := (machine (.write 16 I2c.Offset.control request)
        (Bus.afterReads machine 16 I2c.Offset.control s 1)).2
      ∃ polled,
        accesses run.2.events = .ofRead 16 I2c.Offset.control cr ::
          .ofWrite 16 I2c.Offset.control request :: polled ∧
        Exact 16 I2c.Offset.control (fun w => w.getLsbD 6 = false) c.spinLimit
          (answer machine 16 I2c.Offset.control requested) (fun _ => ()) (.timeout .fifoClear)
          run.1 polled := by
  refine ⟨fun mask spins => ?_, fun level spins => ?_, fun c => ?_, fun c => ?_⟩
  · exact exact_wait_start machine id (Flash.Interrupts.intersects · mask) spins _ id _ _ _
      (Flash.Error.timeout mask spins) (fun w => Flash.intersects_iff w mask) (fun _ => rfl) rfl s
  · exact exact_wait_start machine Flash.fifoLevel (· == level) spins _ (fun _ => ()) _ _ _
      (Flash.Error.fifoLevel level spins) (fun w => by rw [beq_iff_eq, Flash.fifoLevel_eq])
      (fun _ => rfl) rfl s
  · exact exact_wait_start machine I2c.BusStatus.ba.isSet (!·) c.spinLimit _ (fun _ => ()) _ _ _
      (I2c.Error.timeout .busInactive)
      (fun w => by rw [Bool.not_eq_true', I2c.BusStatus.ba, Register.isSet_flag])
      (fun _ => rfl) rfl s
  · -- The request comes first, and then the wait like any other.
    exact exact_wait machine id (fun cr => !I2c.Control.clrfifo.isSet cr) c.spinLimit _
      (fun _ => ()) _ _ _ (I2c.Error.timeout .fifoClear)
      (fun w => by rw [Bool.not_eq_true', I2c.Control.clrfifo, id_eq, Register.isSet_flag])
      (fun _ => rfl) rfl _

-- The last word that may be asked for is still looked at, and none is if none may be.
example : ((Flash.waitFor 4 5).run (playing (BitVec.ofNat 32)) 0).1 = .ok 4 := by decide

example : ((Flash.waitFor 4 0).run (playing (BitVec.ofNat 32)) 4).1 = .error (.timeout 4 0) := by
  decide

end Waits

end BoardSupport
