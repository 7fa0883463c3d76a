import BoardSupport.Register.Field

/-!
# Registers of the SPI Flash Controller

Registers of 32 bits, three of them packed: the frame format, the description
of a transfer, and the interrupt status. The FIFO is filled and emptied
through one register, a byte at a time; how full it is shows in the low bits of
its pointer register, and writing that register empties it.

## Main definitions

* `Flash.Offset`: Where each register lies in the window.
* `Flash.Control`, `Flash.Transfer`, `Flash.Interrupts`: The packed registers.
* `Flash.TransferMode`, `Flash.BusWidth`, `Flash.FifoTrigger`: The choices in
  the description of a transfer.
* `Flash.fifoLevel`: How full the FIFO is.
-/

namespace BoardSupport

namespace Flash

namespace Offset

/-- Frame format, clock divider and soft reset. -/
def control : Nat := 0x00
/-- Chip select. -/
def chipEnable : Nat := 0x04
/-- Delays. -/
def delay : Nat := 0x08
/-- Direct memory-mapped reads. -/
def memoryMapped : Nat := 0x0C
/-- Description and start of a transfer. -/
def transfer : Nat := 0x10
/-- Number of data bytes of a transfer. -/
def transferLength : Nat := 0x14
/-- One end of the FIFO. -/
def fifoData : Nat := 0x18
/-- Fill level of the FIFO; a write empties it. -/
def fifoPointer : Nat := 0x20
/-- Pending interrupts. -/
def interruptStatus : Nat := 0x28
/-- Interrupts that are delivered. -/
def interruptEnable : Nat := 0x2C
/-- Option bits. -/
def option : Nat := 0x30

end Offset

/-- Base of another controller on the board, whose registers are not these. -/
def fchBase : Nat := 0xFEC10000

/-- The bytes the FIFO has room for. -/
def fifoDepth : Nat := 8

/-- The largest clock divider. -/
def maxClockDivider : Nat := 0x7FF

/-- Option bit: do not flush the padding of a command without an address. -/
def keepPadding : BitVec 32 := 2

/-- How full the FIFO is, from its pointer register. -/
def fifoLevel (pointer : BitVec 32) : Nat :=
  (pointer &&& 0xF).toNat

namespace Control

open Register (flag number)

/-- Divider of the serial clock. -/
def sckDiv := number "sck_div" 0 11
/-- Soft reset. -/
def srst := flag "srst" 21

/-- Frame format, clock divider and soft reset. -/
def layout : Register.Layout where
  name := "SpifmcCtrl"
  bits := 32
  fields := [sckDiv, number "reserved0" 11 1, flag "cpha" 12, flag "cpol" 13, flag "hold_ol" 14,
    flag "wp_ol" 15, number "frame_len" 16 4, flag "lsbf" 20, srst, number "reserved1" 22 10]

end Control

/-- The directions a transfer's data can go. -/
inductive TransferMode where
  | none
  | receive
  | transmit
  | both
  deriving DecidableEq, Repr

namespace TransferMode

/-- The code of a direction. -/
def bits : TransferMode → Nat
  | none => 0
  | receive => 1
  | transmit => 2
  | both => 3

/-- The direction of a code; only its two low bits count. -/
def ofBits (code : Nat) : TransferMode :=
  match code % 4 with
  | 0 => none
  | 1 => receive
  | 2 => transmit
  | _ => both

/-- The name of a direction. -/
def name : TransferMode → String
  | none => "None"
  | receive => "Rx"
  | transmit => "Tx"
  | both => "RxTx"

end TransferMode

/-- How many data lines a transfer uses. -/
inductive BusWidth where
  | single
  | dual
  | quad
  | reserved
  deriving DecidableEq, Repr

namespace BusWidth

/-- The code of a width. -/
def bits : BusWidth → Nat
  | single => 0
  | dual => 1
  | quad => 2
  | reserved => 3

/-- The width of a code; only its two low bits count. -/
def ofBits (code : Nat) : BusWidth :=
  match code % 4 with
  | 0 => single
  | 1 => dual
  | 2 => quad
  | _ => reserved

/-- The name of a width. -/
def name : BusWidth → String
  | single => "Single"
  | dual => "Dual"
  | quad => "Quad"
  | reserved => "Reserved"

end BusWidth

/-- How full the FIFO has to be before it asks for attention. -/
inductive FifoTrigger where
  | oneByte
  | twoBytes
  | fourBytes
  | eightBytes
  deriving DecidableEq, Repr

namespace FifoTrigger

/-- The code of a trigger level. -/
def bits : FifoTrigger → Nat
  | oneByte => 0
  | twoBytes => 1
  | fourBytes => 2
  | eightBytes => 3

/-- The trigger level of a code; only its two low bits count. -/
def ofBits (code : Nat) : FifoTrigger :=
  match code % 4 with
  | 0 => oneByte
  | 1 => twoBytes
  | 2 => fourBytes
  | _ => eightBytes

/-- The trigger level in bytes. -/
def bytes (t : FifoTrigger) : Nat :=
  1 <<< t.bits

/-- The name of a trigger level. -/
def name : FifoTrigger → String
  | oneByte => "OneByte"
  | twoBytes => "TwoBytes"
  | fourBytes => "FourBytes"
  | eightBytes => "EightBytes"

end FifoTrigger

namespace Transfer

open Register (flag number choice)

/-- Direction of the data. -/
def mode := choice "tran_mode" 0 2 ((List.range 4).map fun code => (TransferMode.ofBits code).name)
/-- Address bytes sent after the command. -/
def addressBytes := number "addr_bytes" 8 3
/-- Send a command byte first. -/
def withCommand := flag "with_cmd" 11
/-- Trigger level of the FIFO. -/
def trigger :=
  choice "fifo_trg_lvl" 12 2 ((List.range 4).map fun code => (FifoTrigger.ofBits code).name)
/-- Start the transfer; set while it runs. -/
def go := flag "go_busy" 15

/-- The description of a transfer. -/
def layout : Register.Layout where
  name := "TranCsr"
  bits := 32
  fields := [mode, flag "cntns_read" 2, flag "fast_mode" 3,
    choice "bus_width" 4 2 ((List.range 4).map fun code => (BusWidth.ofBits code).name),
    flag "dma_en" 6, flag "miso_level" 7, addressBytes, withCommand, trigger,
    number "reserved0" 14 1, go, number "reserved1" 16 16]

end Transfer

namespace Interrupts

open Register (flag number)

/-- A transfer has ended. -/
def tranDone := flag "tran_done" 0
/-- The FIFO has data to read. -/
def rdFifo := flag "rd_fifo" 2
/-- The FIFO has room for data. -/
def wrFifo := flag "wr_fifo" 3

/-- A set of interrupts. -/
def layout : Register.Layout where
  name := "SpifmcInterrupts"
  bits := 32
  fields := [tranDone, number "reserved0" 1 1, rdFifo, wrFifo, flag "rx_frame" 4,
    flag "tx_frame" 5, number "reserved1" 6 26]

/-- The end of a transfer, as a set of interrupts. -/
def done : BitVec 32 := tranDone.put 1 0

/-- Data to read, as a set of interrupts. -/
def readable : BitVec 32 := rdFifo.put 1 0

/-- Whether two sets have an interrupt in common. -/
def intersects (set mask : BitVec 32) : Bool :=
  set &&& mask != 0

end Interrupts

end Flash

end BoardSupport
