import BoardSupport.Proofs.Flash.Transferring

/-!
# What a Transfer Writes

Transfers keep to registers of their own.

A transfer is described, started and watched through a handful of registers. It
writes none of the others, whatever it is asked for and however it ends. So what
a client has programmed elsewhere, such as the clock, outlasts all transfers.

## Main definitions

* `Flash.transferRegisters`: The registers that transfers write.
* `Flash.WritesTransfer`: Events that write no others.
* `Flash.Passes`: Programs that write no others.

## Theorems

* `Flash.tolerates_writesTransfer`: The waits and bursts of a transfer.
* `Flash.Request.passes`: A transfer writes none but its own registers.
-/

namespace BoardSupport

namespace Flash

open Bus (accesses)
open Program (keeps_done keeps_bind keeps_mapError keeps_ofExcept keeps_forEach)

/-- The registers that transfers write. -/
def transferRegisters : List Nat :=
  [Offset.transfer, Offset.transferLength, Offset.fifoData, Offset.fifoPointer,
    Offset.interruptStatus, Offset.option]

/-- No registers are written but those of a transfer. -/
def WritesTransfer (events : List (Event Bus.interface)) : Prop :=
  ∀ a ∈ accesses events, a.isWrite = true → a.offset ∈ transferRegisters

theorem tolerates_writesTransfer : Tolerates WritesTransfer where
  composes := Bus.composes_accesses _
  read bits offset answer _ := Bus.forall_read nofun
  flush := Bus.forall_write fun _ => by decide
  burst pointer bytes _ _ := by
    intro a ha hwrite
    rcases List.mem_filterMap.mp ha with ⟨e, he, hae⟩
    rcases List.mem_cons.mp he with rfl | he
    · cases hae
      cases hwrite
    · rcases List.mem_map.mp he with ⟨b, -, rfl⟩
      have hdata : Offset.fifoData ∈ transferRegisters := by decide
      cases hae
      exact hdata
  log level message := fun _ ha => absurd ha List.not_mem_nil

section Transfers

variable {ε ε' α β : Type}

/-- A program that writes no registers but those of a transfer, however it
    ends. -/
def Passes (p : Driver ε α) : Prop :=
  p.Keeps WritesTransfer (fun _ => True) (fun _ => True)

theorem passes_bind {p : Driver ε α} {f : α → Driver ε β} (hp : Passes p)
    (hf : ∀ a, Passes (f a)) : Passes (p.bind f) :=
  keeps_bind tolerates_writesTransfer.composes hp fun a _ => hf a

theorem passes_pure (a : α) : Passes (pure a : Driver ε α) :=
  keeps_done tolerates_writesTransfer.composes (.ok a) trivial

theorem passes_ofExcept (result : Except ε α) : Passes (Program.ofExcept result) :=
  keeps_ofExcept tolerates_writesTransfer.composes result (fun _ _ => trivial) fun _ _ => trivial

theorem passes_mapError (f : ε → ε') {p : Driver ε α} (hp : Passes p) : Passes (p.mapError f) :=
  keeps_mapError f hp fun _ _ => trivial

theorem passes_write (bits offset : Nat) (value : BitVec bits) (h : offset ∈ transferRegisters) :
    Passes (Bus.write bits offset value : Driver ε Unit) :=
  Bus.keeps_write bits offset value (Bus.forall_write fun _ => h)

theorem passes_say (level : Log.Level) (message : String) :
    Passes (say level message : Driver ε Unit) :=
  keeps_say tolerates_writesTransfer level message

theorem passes_prepare (preset : BitVec 32) : Passes (prepare preset : Driver ε (BitVec 32)) :=
  passes_bind (Bus.keeps_read 32 Offset.transfer fun _ => Bus.forall_read nofun) fun _ =>
    passes_bind (passes_write 32 Offset.fifoPointer 0 (by decide)) fun _ => passes_pure _

theorem passes_pushFifo (bytes : List UInt8) : Passes (pushFifo bytes : Driver ε Unit) :=
  keeps_forEach tolerates_writesTransfer.composes pushByte bytes fun b _ =>
    passes_write 8 Offset.fifoData b.toBitVec (by decide)

theorem passes_setTransferLength (length : Nat) : Passes (setTransferLength length) := by
  unfold setTransferLength
  split
  · exact keeps_done tolerates_writesTransfer.composes (.error _) trivial
  · exact passes_write 32 Offset.transferLength _ (by decide)

theorem passes_go (transfer : BitVec 32) : Passes (go transfer : Driver ε Unit) :=
  passes_bind (passes_write 32 Offset.interruptStatus 0 (by decide)) fun _ =>
    passes_write 32 Offset.transfer _ (by decide)

theorem passes_command (preset : BitVec 32) (opcode : UInt8) (address : UInt32) (count : Nat) :
    Passes (command preset opcode address count : Driver ε (BitVec 32)) :=
  passes_bind (passes_prepare preset) fun transfer =>
    passes_bind (passes_pushFifo [opcode]) fun _ =>
      passes_bind (passes_pushFifo _) fun _ => passes_pure transfer

theorem passes_silent {p : Driver Error Unit} (hp : Passes p) : Passes (Request.silent p) :=
  passes_bind (passes_mapError _ hp) fun _ => passes_pure []

theorem passes_readRegister (opcode : UInt8) (length spins : Nat) :
    Passes (readRegister opcode length spins) := by
  have hP := tolerates_writesTransfer
  refine passes_bind (passes_ofExcept _) fun _ => ?_
  refine passes_bind (passes_prepare _) fun transfer => ?_
  refine passes_bind (passes_write 32 Offset.option _ (by decide)) fun _ => ?_
  refine passes_bind (passes_pushFifo [opcode]) fun _ => ?_
  refine passes_bind (passes_pushFifo _) fun _ => ?_
  refine passes_bind (passes_setTransferLength length) fun _ => ?_
  refine passes_bind (passes_go transfer) fun _ => ?_
  refine passes_bind (keeps_waitFor hP _ spins) fun _ => ?_
  refine passes_bind (keeps_popFifo hP length) fun response => ?_
  refine passes_bind (keeps_flush hP) fun _ => ?_
  exact passes_bind (passes_say _ _) fun _ => passes_pure response

theorem passes_writeRegister (opcode : UInt8) (data : List UInt8) (fullDuplex : Bool)
    (spins : Nat) : Passes (writeRegister opcode data fullDuplex spins) := by
  refine passes_bind (passes_ofExcept _) fun _ => ?_
  refine passes_bind (passes_prepare _) fun transfer => ?_
  refine passes_bind ?_ fun _ => ?_
  · cases fullDuplex with
    | true => exact passes_setTransferLength data.length
    | false => exact passes_pure ()
  refine passes_bind (passes_pushFifo [opcode]) fun _ => ?_
  refine passes_bind (passes_pushFifo data) fun _ => ?_
  refine passes_bind (passes_go transfer) fun _ => ?_
  refine passes_bind (keeps_finish tolerates_writesTransfer spins) fun _ => ?_
  exact passes_say _ _

theorem passes_readFlash (opcode : UInt8) (address : UInt32) (count length spins : Nat) :
    Passes (readFlash opcode address count length spins) := by
  have hP := tolerates_writesTransfer
  refine passes_bind (passes_mapError _ ?_) fun _ => ?_
  · refine passes_bind (passes_ofExcept _) fun preset => ?_
    refine passes_bind (passes_command preset opcode address count) fun transfer => ?_
    refine passes_bind (passes_setTransferLength _) fun _ => ?_
    refine passes_bind (passes_go transfer) fun _ => ?_
    exact passes_bind (keeps_waitFor hP _ spins) fun _ => passes_pure ()
  refine passes_bind (passes_mapError _ (keeps_receive hP spins [] _)) fun received => ?_
  refine passes_bind (passes_mapError _ (keeps_finish hP spins)) fun _ => ?_
  exact passes_bind (passes_say _ _) fun _ => passes_pure _

theorem passes_writeFlash (opcode : UInt8) (address : UInt32) (count : Nat) (data : List UInt8)
    (spins : Nat) : Passes (writeFlash opcode address count data spins) := by
  have hP := tolerates_writesTransfer
  refine passes_bind (passes_ofExcept _) fun preset => ?_
  refine passes_bind (passes_command preset opcode address count) fun transfer => ?_
  refine passes_bind (passes_setTransferLength _) fun _ => ?_
  refine passes_bind (passes_go transfer) fun _ => ?_
  refine passes_bind (keeps_waitFifoLevel hP 0 spins) fun _ => ?_
  refine passes_bind (keeps_flush hP) fun _ => ?_
  refine passes_bind (keeps_forEach hP.composes _ _ fun burst _ =>
    passes_bind (keeps_waitFifoLevel hP 0 spins) fun _ => passes_pushFifo burst) fun _ => ?_
  exact passes_bind (keeps_finish hP spins) fun _ => passes_say _ _

theorem passes_erase (opcode : UInt8) (address : UInt32) (count spins : Nat) :
    Passes (erase opcode address count spins) := by
  refine passes_bind (passes_ofExcept _) fun preset => ?_
  refine passes_bind (passes_command preset opcode address count) fun transfer => ?_
  refine passes_bind (passes_go transfer) fun _ => ?_
  exact passes_bind (keeps_finish tolerates_writesTransfer spins) fun _ => passes_say _ _

/-- A transfer writes none but its own registers. -/
theorem Request.passes (request : Request) : Passes request.program := by
  cases request with
  | readRegister opcode length spins =>
      exact passes_mapError _ (passes_readRegister opcode length spins)
  | writeRegister opcode data fullDuplex spins =>
      exact passes_silent (passes_writeRegister opcode data fullDuplex spins)
  | readFlash opcode address count length spins =>
      exact passes_readFlash opcode address count length spins
  | writeFlash opcode address count data spins =>
      exact passes_silent (passes_writeFlash opcode address count data spins)
  | erase opcode address count spins =>
      exact passes_silent (passes_erase opcode address count spins)

end Transfers

end Flash

end BoardSupport
