import BoardSupport.Flash.Controller
import BoardSupport.Proofs.Device.Simulated
import BoardSupport.Proofs.Program.Leads

/-!
# A View of the Simulated Flash Controller

What a driver can tell of a simulated flash controller that finishes its
transfers.

A driver that moves data sees the transfer register, the interrupt status, the
bytes that are queued for it, and the fill level, which depends on the direction
of the running transfer. A view has just these. `View.after` says what a write
does to a view, and the reads are one rule each: a register is read as it is, a
byte is taken from the queue, and the fill level of a transfer that receives is
the number of bytes queued, as far as the FIFO holds them.

## Main definitions

* `Flash.View`: Two registers, the queue, and the direction of the transfer.
* `Flash.View.after`: A view after a write.
* `Flash.Shows`: A simulated device has this view.
* `Flash.Reaches`: Where a driver leads, from view to view.

## Theorems

* `Flash.shows_write`: The simulation writes like its view.
* `Flash.reaches_write`, `Flash.reaches_transfer`, `Flash.reaches_status`,
  `Flash.reaches_log`: The operations of the bus.
* `Flash.reaches_pop`, `Flash.reaches_level`: Taking a byte, and the fill level.
-/

namespace BoardSupport

namespace Flash

open Device (FlashModel Simulated)
open Program (leads_done leads_bind)

/-- The registers a driver sees, the bytes queued for it, and the direction of
    the last transfer. -/
structure View where
  transfer : BitVec 64
  status : BitVec 64
  queued : List UInt8
  running : Nat

/-- The view after a write. A transfer that is started is done at once. -/
def View.after (v : View) (offset : Nat) (word : BitVec 64) : View :=
  if offset = Offset.transfer then
    if Transfer.go.isSet word then
      { v with
        transfer := word
        status := if Transfer.mode.get word = 1 then 5 else 1
        running := Transfer.mode.get word }
    else
      { v with transfer := word }
  else if offset = Offset.interruptStatus then
    { v with status := word }
  else
    v

/-- A simulated device without scripted answers has this view. -/
structure Shows (m : FlashModel) (d : Simulated) (v : View) : Prop where
  reaction : d.reaction = .flash { m with queued := v.queued, running := v.running }
  unscripted : ∀ offset, d.scripts.getD offset [] = []
  transfer : d.registers.peek Offset.transfer = v.transfer
  status : d.registers.peek Offset.interruptStatus = v.status

section Operations

variable {m : FlashModel} {d : Simulated} {v : View}

/-- The simulation writes like its view. -/
theorem shows_write (hm : m.stuck = false) (hs : Shows m d v) (offset : Nat)
    (word : BitVec 64) : Shows m (d.accept offset word) (v.after offset word) := by
  have haccept : d.accept offset word =
      { d with
        registers := (FlashModel.afterWrite { m with queued := v.queued, running := v.running }
          (d.registers.poke offset word) offset word).2
        reaction := .flash
          (FlashModel.afterWrite { m with queued := v.queued, running := v.running }
            (d.registers.poke offset word) offset word).1 } := by
    unfold Simulated.accept
    rw [hs.reaction]
  rw [haccept]
  unfold View.after FlashModel.afterWrite
  by_cases htransfer : offset = Offset.transfer
  · subst htransfer
    by_cases hgo : Transfer.go.isSet word = true
    · -- The word is stored first, and then the status.
      refine ⟨?_, hs.unscripted, ?_, ?_⟩
      · simp [hgo]
      · simp [hgo, hm, RegisterMap.peek_poke, Offset.transfer, Offset.interruptStatus]
      · simp [hgo, hm, RegisterMap.peek_poke]
    · refine ⟨?_, hs.unscripted, ?_, ?_⟩
      · simp [hgo]
      · simp [hgo, RegisterMap.peek_poke]
      · simp [hgo, RegisterMap.peek_poke, Offset.transfer, Offset.interruptStatus, hs.status.symm]
  by_cases hstatus : offset = Offset.interruptStatus
  · subst hstatus
    refine ⟨?_, hs.unscripted, ?_, ?_⟩
    · simp [Offset.transfer, Offset.interruptStatus]
    · simp [RegisterMap.peek_poke, Offset.transfer, Offset.interruptStatus, hs.transfer.symm]
    · simp [RegisterMap.peek_poke, Offset.transfer, Offset.interruptStatus]
  · -- A register that no driver looks at shows in no view.
    refine ⟨?_, hs.unscripted, ?_, ?_⟩
    · simp [htransfer, hstatus]
    · simp [htransfer, hstatus, RegisterMap.peek_poke, Ne.symm htransfer, hs.transfer]
    · simp [htransfer, hstatus, RegisterMap.peek_poke, Ne.symm hstatus, hs.status]

/-- A register that is neither end of the FIFO is read as it is. -/
theorem answer_register (hs : Shows m d v) (offset : Nat)
    (h : offset ∉ [Offset.fifoData, Offset.fifoPointer]) :
    d.answer offset = (d.registers.peek offset, d) := by
  simp only [List.mem_cons, List.not_mem_nil, or_false, not_or] at h
  refine d.answer_stored offset (hs.unscripted offset) fun model _ => ?_
  rw [FlashModel.answer?, if_neg h.1, if_neg h.2]

end Operations

-- A fill level is what the low four bits of the pointer register say.
theorem fifoLevel_ofNat (level : Nat) (h : level < 16) :
    fifoLevel ((BitVec.ofNat 64 level).setWidth 32) = level := by
  have hall : ∀ n < 16, fifoLevel ((BitVec.ofNat 64 n).setWidth 32) = n := by decide
  exact hall level h

section Reaches

variable {ε : Type} (m : FlashModel) (v : View)

/-- Where a driver leads on a simulation, from view to view. -/
abbrev Reaches {α : Type} (p : Driver ε α) (v : View) (outcome : Outcome ε α) (v' : View) :
    Prop :=
  p.Leads Device.simulated.machine (Shows m) v outcome v'

theorem reaches_write (hm : m.stuck = false) (bits offset : Nat) (value : BitVec bits) :
    Reaches m (Bus.write bits offset value : Driver ε Unit) v (.ok ())
      (v.after offset (value.setWidth 64)) :=
  fun _ hs => ⟨_, rfl, shows_write hm hs offset (value.setWidth 64)⟩

theorem reaches_log (level : Log.Level) (message : String) :
    Reaches m (Bus.log level message : Driver ε Unit) v (.ok ()) v :=
  fun d hs => ⟨d, rfl, hs⟩

-- A read of a register, from the answer of the device.
theorem run_read {d d' : Simulated} {word : BitVec 64} (bits offset : Nat)
    (h : d.answer offset = (word, d')) :
    (Bus.read bits offset : Driver ε (BitVec bits)).run Device.simulated.machine d =
      (.ok (word.setWidth bits), d') := by
  change (Outcome.ok ((d.answer offset).1.setWidth bits), (d.answer offset).2) = _
  rw [h]

theorem reaches_transfer :
    Reaches m (Bus.read 32 Offset.transfer : Driver ε (BitVec 32)) v
      (.ok (v.transfer.setWidth 32)) v := by
  intro d hs
  have hanswer := answer_register hs Offset.transfer (by decide)
  rw [hs.transfer] at hanswer
  exact ⟨d, run_read 32 _ hanswer, hs⟩

theorem reaches_status :
    Reaches m (Bus.read 32 Offset.interruptStatus : Driver ε (BitVec 32)) v
      (.ok (v.status.setWidth 32)) v := by
  intro d hs
  have hanswer := answer_register hs Offset.interruptStatus (by decide)
  rw [hs.status] at hanswer
  exact ⟨d, run_read 32 _ hanswer, hs⟩

/-- The next byte is taken from the queue. -/
theorem reaches_pop (b : UInt8) (rest : List UInt8) :
    Reaches m (Bus.read 8 Offset.fifoData : Driver ε (BitVec 8)) { v with queued := b :: rest }
      (.ok b.toBitVec) { v with queued := rest } := by
  intro d hs
  have hanswer : d.answer Offset.fifoData = (b.toBitVec.setWidth 64,
      { d with reaction := .flash { m with queued := rest, running := v.running } }) := by
    unfold Simulated.answer FlashModel.answer?
    rw [hs.unscripted, hs.reaction]
    rfl
  have hbyte : (b.toBitVec.setWidth 64).setWidth 8 = b.toBitVec :=
    BitVec.setWidth_setWidth_of_le _ (by decide)
  refine ⟨{ d with reaction := .flash { m with queued := rest, running := v.running } }, ?_,
    rfl, hs.unscripted, hs.transfer, hs.status⟩
  rw [run_read 8 _ hanswer, hbyte]

/-- While a transfer receives, the pointer register shows what is queued, up to
    a full FIFO. -/
theorem reaches_pointer (hrunning : v.running = 1) :
    Reaches m (Bus.read 32 Offset.fifoPointer : Driver ε (BitVec 32)) v
      (.ok ((BitVec.ofNat 64 (v.queued.take 8).length).setWidth 32)) v := by
  intro d hs
  have hsame : { d with
      reaction := .flash { m with queued := v.queued, running := v.running } } = d := by
    rw [← hs.reaction]
  have hanswer : d.answer Offset.fifoPointer =
      (BitVec.ofNat 64 (v.queued.take 8).length, d) := by
    unfold Simulated.answer FlashModel.answer?
    rw [hs.unscripted, hs.reaction]
    simp only [if_neg (show ¬Offset.fifoPointer = Offset.fifoData by decide), if_pos hrunning,
      if_true]
    rw [hsame]
  exact ⟨d, run_read 32 _ hanswer, hs⟩

theorem reaches_level (hrunning : v.running = 1) :
    Reaches m (readFifoLevel : Driver ε Nat) v (.ok (min 8 v.queued.length)) v := by
  have hlevel : fifoLevel ((BitVec.ofNat 64 (v.queued.take 8).length).setWidth 32) =
      min 8 v.queued.length := by
    rw [List.length_take]
    exact fifoLevel_ofNat _ (Nat.lt_of_le_of_lt (Nat.min_le_left _ _) (by decide))
  rw [← hlevel]
  exact leads_bind (reaches_pointer m v hrunning) (leads_done _ rfl)

end Reaches

end Flash

end BoardSupport
