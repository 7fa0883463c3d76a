import Mathlib.Data.Nat.Digits.Defs
import BoardSupport.Proofs.Flash.Isolation
import BoardSupport.Proofs.Flash.Received

/-!
# The Frame of a Transfer

Which bytes a transfer queues before it starts, on every bus.

The command comes first. A transfer on memory sends the low bytes of its address behind it,
highest first, a read of a register as many zeros as it wants answered, and a write to a
register its data. These bytes enter a FIFO that has just been emptied, and nothing else
does before the transfer starts.

All of this is settled by the part of a program up to the write that starts the transfer.
`Starts` goes through that part step by step and leaves open what follows. A step queues
some bytes or sets a register that has nothing to do with them, and it always succeeds. A
request with too many address bytes, or with more data than fit beside the command, has
been refused before the first step. Only the length of a transfer on memory is looked at in
between, and if it does not fit its register, the transfer does not start.

## Main definitions

* `Flash.IsCommand`: A command with an address.
* `Flash.Request.refusal?`, `Flash.Request.memoryLength?`, `Flash.Request.IsFrame`: Why a
  request is refused, the length it announces, and its frame.
* `Flash.Framing`, `Flash.Frames`: Queueing a frame.
* `Flash.Starts`, `Flash.Opens`: A transfer up to its start, and what follows.
* `Flash.Launched`, `Flash.Framed`: What is to be known about the frame of a transfer.

## Theorems

* `Bytes.ofDigits_bigEndian`: The number that the low bytes of a number stand for.
* `Flash.starts_queue`, `Flash.starts_go`, `Flash.opens_prepare`, `Flash.opens_command`: A
  transfer from its steps.
* `Flash.Request.opens`: A request that is not given up queues its frame.
* `Flash.Request.program_of_refusal`, `Flash.Request.conversation_excess`: How the others
  are given up.
* `Flash.conversation_response`, `Flash.readRegister_response`: Where the response to a
  command comes from.
* `Flash.request_framed`: What is known about the frame of every transfer.
-/

namespace BoardSupport

namespace Bytes

/-- Lowest first, the low bytes of a number are its digits. -/
theorem ofDigits_littleEndian (count n : Nat) :
    Nat.ofDigits 256 ((littleEndian count n).map UInt8.toNat) = n % 256 ^ count := by
  induction count generalizing n with
  | zero => rw [littleEndian, List.map_nil, Nat.ofDigits_nil, Nat.pow_zero, Nat.mod_one]
  | succ count ih =>
      have hbyte : (UInt8.ofNat (n % 256)).toNat = n % 256 :=
        UInt8.toNat_ofNat_of_lt (Nat.mod_lt n (by omega))
      rw [littleEndian, List.map_cons, Nat.ofDigits_cons, ih, hbyte, Nat.pow_succ', Nat.mod_mul]

/-- Highest first, they are its digits in reverse. -/
theorem ofDigits_bigEndian (count n : Nat) :
    Nat.ofDigits 256 ((bigEndian count n).reverse.map UInt8.toNat) = n % 256 ^ count := by
  rw [bigEndian, List.reverse_reverse, ofDigits_littleEndian]

example : bigEndian 3 0x12345678 = [0x34, 0x56, 0x78] := by decide

end Bytes

namespace Flash

open Bus (Access accesses writeEvent)

/-- A command with so many bytes behind it that stand for an address, as far as so many
    bytes can, the first of them counting most. -/
def IsCommand (opcode : UInt8) (address : UInt32) (count : Nat) (frame : List UInt8) : Prop :=
  ∃ bytes : List UInt8, frame = opcode :: bytes ∧ bytes.length = count ∧
    Nat.ofDigits 256 (bytes.reverse.map UInt8.toNat) = address.toNat % 256 ^ count

namespace Request

/-- Why a request is refused, if it has too many address bytes or too much data for the
    FIFO. -/
def refusal? : Request → Option Error
  | .readRegister _ length _ => if 8 ≤ length then some (.fifoOverflow length) else none
  | .writeRegister _ data _ _ =>
    if 8 ≤ data.length then some (.fifoOverflow data.length) else none
  | .readFlash _ _ count _ _ => if 4 < count then some (.addressBytes count) else none
  | .writeFlash _ _ count _ _ => if 4 < count then some (.addressBytes count) else none
  | .erase _ _ count _ => if 4 < count then some (.addressBytes count) else none

/-- The number of bytes to read from memory or write to it. -/
def memoryLength? : Request → Option Nat
  | .readFlash _ _ _ length _ => some length
  | .writeFlash _ _ _ data _ => some data.length
  | _ => none

/-- The bytes that describe the request to the flash part. -/
def IsFrame (frame : List UInt8) : Request → Prop
  | .readRegister opcode length _ => frame = opcode :: List.replicate length 0
  | .writeRegister opcode data _ _ => frame = opcode :: data
  | .readFlash opcode address count _ _ => IsCommand opcode address count frame
  | .writeFlash opcode address count _ _ => IsCommand opcode address count frame
  | .erase opcode address count _ => IsCommand opcode address count frame

end Request

/-- The frame of the command is what is queued for it. -/
theorem isCommand_bigEndian (opcode : UInt8) (address : UInt32) (count : Nat) :
    IsCommand opcode address count (opcode :: Bytes.bigEndian count address.toNat) :=
  ⟨_, rfl, Bytes.length_bigEndian count _, Bytes.ofDigits_bigEndian count _⟩

/-- Registers are written, and these bytes are all that enters the FIFO. It is not emptied,
    and no transfer is started. -/
structure Framing (frame : List UInt8) (events : List (Event Bus.interface)) : Prop where
  queued : (accesses events).filter (Access.writes Offset.fifoData) = frame.map pushed
  others : ∀ a ∈ accesses events,
    a.isWrite = true ∧ a.offset ≠ Offset.transfer ∧ a.offset ≠ Offset.fifoPointer

section Queue

variable {ε ε' α β : Type} {frame : List UInt8} {tail : Driver ε α}

theorem framing_nil : Framing [] [] :=
  ⟨rfl, fun _ ha => absurd ha List.not_mem_nil⟩

theorem framing_append {first rest : List UInt8} {events later : List (Event Bus.interface)}
    (hf : Framing first events) (hr : Framing rest later) :
    Framing (first ++ rest) (events ++ later) := by
  constructor
  · rw [Bus.accesses_append, List.filter_append, hf.queued, hr.queued, List.map_append]
  · rw [Bus.accesses_append]
    exact List.forall_mem_append.mpr ⟨hf.others, hr.others⟩

/-- A step that queues these bytes, and always succeeds. -/
def Frames (frame : List UInt8) (p : Driver ε α) : Prop :=
  ∀ events outcome, p.Conversation events outcome →
    Framing frame events ∧ ∃ a, outcome = .ok a

theorem frames_pushFifo (bytes : List UInt8) : Frames bytes (pushFifo bytes : Driver ε Unit) := by
  intro events outcome h
  rcases conversation_pushFifo bytes events outcome h with ⟨rfl, rfl⟩
  refine ⟨⟨?_, ?_⟩, (), rfl⟩
  · rw [accesses_push]
    exact List.filter_eq_self.mpr (List.forall_mem_map.mpr fun _ _ => rfl)
  · rw [accesses_push]
    exact List.forall_mem_map.mpr fun _ _ =>
      ⟨rfl, Nat.ne_of_beq_eq_false rfl, Nat.ne_of_beq_eq_false rfl⟩

theorem frames_pushByte (b : UInt8) : Frames [b] (pushByte b : Driver ε Unit) :=
  frames_pushFifo [b]

-- A register that is neither of the FIFO nor the one that starts a transfer.
theorem frames_set (offset : Nat) (value : BitVec 32)
    (h : offset ∉ [Offset.fifoData, Offset.transfer, Offset.fifoPointer]) :
    Frames [] (Bus.write 32 offset value : Driver ε Unit) := by
  simp only [List.mem_cons, List.not_mem_nil, or_false, not_or] at h
  obtain ⟨hdata, htransfer, hpointer⟩ := h
  intro events outcome hc
  rcases (Program.conversation_ask _ _ _ _).mp hc with ⟨_, _, rfl, hdone⟩
  rcases (Program.conversation_done _ _ _).mp hdone with ⟨rfl, rfl⟩
  refine ⟨⟨Bus.filter_eq_nil (Bus.forall_write ?_), Bus.forall_write ?_⟩, (), rfl⟩
  · rw [Access.writes, Access.ofWrite, beq_eq_false_iff_ne.mpr hdata, Bool.and_false]
  · exact ⟨rfl, htransfer, hpointer⟩

theorem frames_setTransferLength (length : Nat) (h : length < UInt32.size) :
    Frames [] (setTransferLength length) := by
  rw [setTransferLength, if_neg (Nat.not_le_of_lt h)]
  exact frames_set Offset.transferLength _ (by decide)

theorem frames_when (condition : Bool) {p : Driver ε Unit} (h : Frames [] p) :
    Frames [] (Program.when condition p) := by
  cases condition with
  | true => exact h
  | false =>
      intro events outcome hc
      rcases (Program.conversation_done _ _ _).mp hc with ⟨rfl, rfl⟩
      exact ⟨framing_nil, (), rfl⟩

/-- What queues these bytes, starts the transfer, and goes on with `tail`. -/
def Starts (frame : List UInt8) (tail : Driver ε α) (template current : BitVec 32)
    (p : Driver ε α) : Prop :=
  ∀ events outcome, p.Conversation events outcome →
    ∃ queue rest, events = queue ++ starting template current ++ rest ∧ Framing frame queue ∧
      tail.Conversation rest outcome

theorem starts_go (template current : BitVec 32) :
    Starts [] tail template current
      ((go (Transfer.cleared current ||| template)).bind fun _ => tail) := by
  intro events outcome hc
  rcases (Program.conversation_ask _ _ _ _).mp hc with ⟨_, _, rfl, hstart⟩
  rcases (Program.conversation_ask _ _ _ _).mp hstart with ⟨_, rest, rfl, htail⟩
  exact ⟨[], rest, rfl, framing_nil, htail⟩

theorem starts_queue {first : List UInt8} {template current : BitVec 32} {p : Driver ε β}
    {f : β → Driver ε α} (hp : Frames first p)
    (hf : ∀ b, Starts frame tail template current (f b)) :
    Starts (first ++ frame) tail template current (p.bind f) := by
  intro events outcome hc
  rcases (Program.conversation_bind _ _ _ _).mp hc with ⟨head, later, ended, rfl, hhead, hlater⟩
  rcases hp head ended hhead with ⟨hframing, b, rfl⟩
  rcases hf b later outcome hlater with ⟨queue, rest, rfl, hqueue, htail⟩
  refine ⟨head ++ queue, rest, ?_, framing_append hframing hqueue, htail⟩
  rw [List.append_assoc, List.append_assoc, List.append_assoc]

/-- A transfer that empties the FIFO, queues these bytes, starts, and goes on with
    `tail`. -/
def Opens (frame : List UInt8) (tail p : Driver ε α) : Prop :=
  ∀ events outcome, p.Conversation events outcome →
    ∃ template current queue rest,
      events = opening current ++ queue ++ starting template current ++ rest ∧
        Framing frame queue ∧ tail.Conversation rest outcome

theorem opens_prepare (template : BitVec 32) (launch : BitVec 32 → Driver ε α)
    (h : ∀ current,
      Starts frame tail template current (launch (Transfer.cleared current ||| template))) :
    Opens frame tail ((prepare template).bind launch) := by
  intro events outcome hc
  rcases (Program.conversation_ask _ _ _ _).mp hc with ⟨current, _, rfl, hflush⟩
  rcases (Program.conversation_ask _ _ _ _).mp hflush with ⟨_, later, rfl, hlater⟩
  rcases h current later outcome hlater with ⟨queue, rest, rfl, hqueue, htail⟩
  refine ⟨template, current, queue, rest, ?_, hqueue, htail⟩
  rw [List.append_assoc, List.append_assoc, List.append_assoc]
  rfl

-- What follows the start may be followed by more, and report its errors in other words.
theorem opens_bind {p : Driver ε α} (h : Opens frame tail p) (f : α → Driver ε β) :
    Opens frame (tail.bind f) (p.bind f) := by
  intro events outcome hc
  rcases (Program.conversation_bind _ _ _ _).mp hc with ⟨first, more, ended, rfl, hfirst, hmore⟩
  rcases h first ended hfirst with ⟨template, current, queue, rest, rfl, hqueue, htail⟩
  refine ⟨template, current, queue, rest ++ more, List.append_assoc _ _ _, hqueue, ?_⟩
  exact (Program.conversation_bind _ _ _ _).mpr ⟨rest, more, ended, rfl, htail, hmore⟩

theorem opens_mapError {p : Driver ε α} (h : Opens frame tail p) (f : ε → ε') :
    Opens frame (tail.mapError f) (p.mapError f) := by
  intro events outcome hc
  rcases (Program.conversation_mapError _ _ _ _).mp hc with ⟨ended, hended, hlast⟩
  rcases h events ended hended with ⟨template, current, queue, rest, rfl, hqueue, htail⟩
  refine ⟨template, current, queue, rest, rfl, hqueue, ?_⟩
  exact (Program.conversation_mapError _ _ _ _).mpr ⟨ended, htail, hlast⟩

end Queue

section Operations

variable {α : Type} (opcode : UInt8) (address : UInt32) (count spins : Nat)

/-- A transfer with an address queues its command, whatever follows. -/
theorem opens_command (hcount : count ≤ 4) (f : BitVec 32 → BitVec 32) (tail : Driver Error α)
    (next : BitVec 32 → Driver Error α)
    (h : ∀ template current,
      Starts [] tail template current (next (Transfer.cleared current ||| template))) :
    Opens (opcode :: Bytes.bigEndian count address.toNat) tail
      ((Program.ofExcept ((Transfer.flash count).map f)).bind fun preset =>
        (command preset opcode address count).bind next) := by
  obtain ⟨template, htemplate⟩ := exists_flash hcount f
  have hframe : opcode :: Bytes.bigEndian count address.toNat =
      [opcode] ++ (Bytes.bigEndian count address.toNat ++ []) := by
    rw [List.append_nil, List.singleton_append]
  rw [htemplate, Program.ofExcept, Program.done_ok_bind, command_bind, hframe]
  exact opens_prepare template _ fun current => starts_queue (frames_pushByte opcode) fun _ =>
    starts_queue (frames_pushFifo _) fun _ => h template current

/-- What follows the start of a command that is answered: its end is waited for, and then
    the answer is taken from the FIFO. -/
def response (length spins : Nat) (message : List UInt8 → String) : Driver Error (List UInt8) :=
  (waitFor Interrupts.done spins).bind fun _ => (popFifo length).bind fun bytes =>
    (Bus.write 32 Offset.fifoPointer 0).bind fun _ =>
      (say .trace (message bytes)).bind fun _ => .done (.ok bytes)

theorem opens_readRegister (length : Nat) (hlength : length < 8) :
    ∃ message, Opens (opcode :: List.replicate length 0) (response length spins message)
      (readRegister opcode length spins) := by
  have hcheck : checkFifo length = .ok () := if_neg (Nat.not_le_of_lt hlength)
  have hframe : opcode :: List.replicate length 0 =
      [] ++ ([opcode] ++ (List.replicate length 0 ++ ([] ++ []))) := by
    rw [List.append_nil, List.append_nil, List.nil_append, List.singleton_append]
  rw [readRegister, hcheck, hframe]
  exact ⟨_, opens_prepare Transfer.registerRead _ fun current =>
    starts_queue (frames_set Offset.option keepPadding (by decide)) fun _ =>
      starts_queue (frames_pushByte opcode) fun _ => starts_queue (frames_pushFifo _) fun _ =>
        starts_queue (frames_setTransferLength length (Nat.lt_trans hlength (by decide))) fun _ =>
          starts_go Transfer.registerRead current⟩

theorem opens_writeRegister (data : List UInt8) (fullDuplex : Bool) (hdata : data.length < 8) :
    ∃ tail, Opens (opcode :: data) tail (writeRegister opcode data fullDuplex spins) := by
  have hcheck : checkFifo data.length = .ok () := if_neg (Nat.not_le_of_lt hdata)
  have hframe : opcode :: data = [] ++ ([opcode] ++ (data ++ [])) := by
    rw [List.append_nil, List.nil_append, List.singleton_append]
  rw [writeRegister, hcheck, hframe]
  exact ⟨_, opens_prepare (Transfer.registerWrite fullDuplex) _ fun current =>
    starts_queue (frames_when fullDuplex
      (frames_setTransferLength data.length (Nat.lt_trans hdata (by decide)))) fun _ =>
        starts_queue (frames_pushByte opcode) fun _ => starts_queue (frames_pushFifo data) fun _ =>
          starts_go (Transfer.registerWrite fullDuplex) current⟩

theorem opens_readFlash (hcount : count ≤ 4) (length : Nat)
    (hlength : max fifoDepth length < UInt32.size) :
    ∃ tail, Opens (opcode :: Bytes.bigEndian count address.toNat) tail
      (readFlash opcode address count length spins) := by
  have hstart : ∃ tail, Opens (opcode :: Bytes.bigEndian count address.toNat) tail
      (startRead opcode address count (max fifoDepth length) spins) :=
    ⟨_, opens_command opcode address count hcount _ _ _
      fun template current => starts_queue (frames_setTransferLength _ hlength) fun _ =>
        starts_go template current⟩
  obtain ⟨tail, hopens⟩ := hstart
  exact ⟨_, opens_bind (opens_mapError hopens _) _⟩

theorem opens_writeFlash (hcount : count ≤ 4) (data : List UInt8)
    (hlength : data.length < UInt32.size) :
    ∃ tail, Opens (opcode :: Bytes.bigEndian count address.toNat) tail
      (writeFlash opcode address count data spins) :=
  ⟨_, opens_command opcode address count hcount _ _ _
    fun template current => starts_queue (frames_setTransferLength _ hlength) fun _ =>
      starts_go template current⟩

theorem opens_erase (hcount : count ≤ 4) :
    ∃ tail, Opens (opcode :: Bytes.bigEndian count address.toNat) tail
      (erase opcode address count spins) :=
  ⟨_, opens_command opcode address count hcount _ _ _
    fun template current => starts_go template current⟩

theorem opens_silent {frame : List UInt8} {p : Driver Error Unit}
    (h : ∃ tail, Opens frame tail p) : ∃ tail, Opens frame tail (Request.silent p) := by
  obtain ⟨tail, hopens⟩ := h
  exact ⟨_, opens_bind (opens_mapError hopens _) _⟩

-- No refusal, so what would be the reason for it is not the case.
theorem not_of_refusal {p : Prop} [Decidable p] {cause : Error}
    (h : (if p then some cause else none) = none) : ¬p :=
  fun hp => nomatch ite_eq_right_iff.mp h hp

/-- A request that is not refused, and whose length fits its register, queues its frame and
    is started. -/
theorem Request.opens (request : Request) (hrefusal : request.refusal? = none)
    (hlength : ∀ length, request.memoryLength? = some length → length ≤ 0xFFFFFFFF) :
    ∃ frame tail, request.IsFrame frame ∧ Opens frame tail request.program := by
  cases request with
  | readRegister opcode length spins =>
      have hsmall : length < 8 := Nat.lt_of_not_le (not_of_refusal hrefusal)
      obtain ⟨message, hopens⟩ := opens_readRegister opcode spins length hsmall
      exact ⟨_, _, rfl, opens_mapError hopens _⟩
  | writeRegister opcode data fullDuplex spins =>
      have hsmall : data.length < 8 := Nat.lt_of_not_le (not_of_refusal hrefusal)
      obtain ⟨tail, hopens⟩ :=
        opens_silent (opens_writeRegister opcode spins data fullDuplex hsmall)
      exact ⟨_, tail, rfl, hopens⟩
  | readFlash opcode address count length spins =>
      have hcount : count ≤ 4 := Nat.le_of_not_lt (not_of_refusal hrefusal)
      have htotal : max fifoDepth length < UInt32.size :=
        Nat.max_lt.mpr ⟨by decide, Nat.lt_succ_of_le (hlength length rfl)⟩
      obtain ⟨tail, hopens⟩ := opens_readFlash opcode address count spins hcount length htotal
      exact ⟨_, tail, isCommand_bigEndian opcode address count, hopens⟩
  | writeFlash opcode address count data spins =>
      have hcount : count ≤ 4 := Nat.le_of_not_lt (not_of_refusal hrefusal)
      obtain ⟨tail, hopens⟩ := opens_silent (opens_writeFlash opcode address count spins hcount data
        (Nat.lt_succ_of_le (hlength data.length rfl)))
      exact ⟨_, tail, isCommand_bigEndian opcode address count, hopens⟩
  | erase opcode address count spins =>
      have hcount : count ≤ 4 := Nat.le_of_not_lt (not_of_refusal hrefusal)
      obtain ⟨tail, hopens⟩ := opens_silent (opens_erase opcode address count spins hcount)
      exact ⟨_, tail, isCommand_bigEndian opcode address count, hopens⟩

end Operations

section Refusals

/-- A request that is refused is nothing but its refusal. -/
theorem Request.program_of_refusal (request : Request) (cause : Error)
    (h : request.refusal? = some cause) : request.program = .done (.error ⟨cause, []⟩) := by
  have hfifo : ∀ {length : Nat}, (if 8 ≤ length then some (Error.fifoOverflow length) else none) =
      some cause → checkFifo length = .error cause := by
    intro length hrefusal
    obtain ⟨hlarge, hcause⟩ := Option.ite_none_right_eq_some.mp hrefusal
    cases hcause
    exact if_pos hlarge
  have hflash : ∀ {count : Nat}, (if 4 < count then some (Error.addressBytes count) else none) =
      some cause → Transfer.flash count = .error cause := by
    intro count hrefusal
    obtain ⟨hlarge, hcause⟩ := Option.ite_none_right_eq_some.mp hrefusal
    cases hcause
    exact if_pos hlarge
  cases request with
  | readRegister opcode length spins =>
      rw [program, Flash.readRegister, hfifo h]
      rfl
  | writeRegister opcode data fullDuplex spins =>
      rw [program, Flash.writeRegister, hfifo h]
      rfl
  | readFlash opcode address count length spins =>
      rw [program, Flash.readFlash, startRead, Transfer.flashRead, hflash h]
      rfl
  | writeFlash opcode address count data spins =>
      rw [program, Flash.writeFlash, Transfer.flashWrite, hflash h]
      rfl
  | erase opcode address count spins =>
      rw [program, Flash.erase, Transfer.flashErase, hflash h]
      rfl

/-- A transfer with an address whose length does not fit its register is given up once its
    command is queued. -/
theorem conversation_excess {α : Type} (opcode : UInt8) (address : UInt32) (count length : Nat)
    (hcount : count ≤ 4) (hlength : 0xFFFFFFFF < length) (f : BitVec 32 → BitVec 32)
    (next : BitVec 32 → Driver Error α) (events : List (Event Bus.interface))
    (outcome : Outcome Error α)
    (h : ((Program.ofExcept ((Transfer.flash count).map f)).bind fun preset =>
      (command preset opcode address count).bind fun transfer =>
        (setTransferLength length).bind fun _ => next transfer).Conversation events outcome) :
    outcome = .error (.transferTooLong length) ∧
      ∀ a ∈ accesses events, a.writes Offset.transfer = false := by
  obtain ⟨template, htemplate⟩ := exists_flash hcount f
  rw [htemplate, Program.ofExcept, Program.done_ok_bind, command_bind, setTransferLength,
    if_pos (show length ≥ UInt32.size from hlength)] at h
  rcases (Program.conversation_ask _ _ _ _).mp h with ⟨current, _, rfl, hflush⟩
  rcases (Program.conversation_ask _ _ _ _).mp hflush with ⟨_, _, rfl, hopcode⟩
  rcases (Program.conversation_ask _ _ _ _).mp hopcode with ⟨_, _, rfl, haddress⟩
  rcases (Program.conversation_bind (pushFifo (Bytes.bigEndian count address.toNat)) _ _ _).mp
    haddress with ⟨_, _, ended, rfl, hpush, hfail⟩
  rcases conversation_pushFifo _ _ _ hpush with ⟨rfl, rfl⟩
  rcases (Program.conversation_done _ _ _).mp hfail with ⟨rfl, rfl⟩
  refine ⟨rfl, ?_⟩
  rw [List.append_nil]
  exact writes_opening current _
    (queued_push (opcode :: Bytes.bigEndian count address.toNat)).apart

/-- A request whose length does not fit its register is given up before it starts. -/
theorem Request.conversation_excess (request : Request) (length : Nat)
    (hrefusal : request.refusal? = none) (hmemory : request.memoryLength? = some length)
    (hlength : 0xFFFFFFFF < length) (events : List (Event Bus.interface))
    (outcome : Outcome ReadFailure (List UInt8)) (h : request.program.Conversation events outcome) :
    outcome = .error ⟨.transferTooLong length, []⟩ ∧
      ∀ a ∈ accesses events, a.writes Offset.transfer = false := by
  cases request with
  | readRegister opcode length spins => cases hmemory
  | writeRegister opcode data fullDuplex spins => cases hmemory
  | erase opcode address count spins => cases hmemory
  | readFlash opcode address count length spins =>
      cases hmemory
      have hcount : count ≤ 4 := Nat.le_of_not_lt (not_of_refusal hrefusal)
      have htotal : max fifoDepth length = length := by
        rw [fifoDepth]
        omega
      rcases (Program.conversation_bind _ _ _ _).mp h with ⟨first, more, _, rfl, hfirst, hmore⟩
      rcases (Program.conversation_mapError _ _ _ _).mp hfirst with ⟨ended, hstart, hlast⟩
      rw [htotal] at hstart
      rcases Flash.conversation_excess opcode address count length hcount hlength _ _ first ended
        hstart with ⟨rfl, hwrites⟩
      rcases (Program.conversation_done _ _ _).mp hlast with ⟨-, rfl⟩
      rcases (Program.conversation_done _ _ _).mp hmore with ⟨rfl, rfl⟩
      rw [List.append_nil]
      exact ⟨rfl, hwrites⟩
  | writeFlash opcode address count data spins =>
      cases hmemory
      have hcount : count ≤ 4 := Nat.le_of_not_lt (not_of_refusal hrefusal)
      rcases (Program.conversation_bind _ _ _ _).mp h with ⟨first, more, _, rfl, hfirst, hmore⟩
      rcases (Program.conversation_mapError _ _ _ _).mp hfirst with ⟨ended, hwrite, hlast⟩
      rcases Flash.conversation_excess opcode address count _ hcount hlength _ _ first ended
        hwrite with ⟨rfl, hwrites⟩
      rcases (Program.conversation_done _ _ _).mp hlast with ⟨-, rfl⟩
      rcases (Program.conversation_done _ _ _).mp hmore with ⟨rfl, rfl⟩
      rw [List.append_nil]
      exact ⟨rfl, hwrites⟩

end Refusals

section Response

/-- A response is taken from the FIFO, as many bytes as there should be, after a status that
    shows the end of the transfer. -/
theorem conversation_response (length spins : Nat) (message : List UInt8 → String)
    (events : List (Event Bus.interface)) (bytes : List UInt8)
    (h : (response length spins message).Conversation events (.ok bytes)) :
    ∃ waited status, accesses events =
        waited ++ .ofRead 32 Offset.interruptStatus status ::
          (bytes.map popped ++ [.ofWrite 32 Offset.fifoPointer 0]) ∧
      (∀ a ∈ waited, Waits a) ∧ Interrupts.tranDone.isSet status = true ∧
      bytes.length = length := by
  rcases Program.conversation_bind_ok _ _ _ _ h with ⟨waiting, _, _, rfl, hwait, hlater⟩
  rcases Program.conversation_bind_ok _ _ _ _ hlater with ⟨popping, _, taken, rfl, hpop, hflush⟩
  rcases (Program.conversation_ask _ _ _ _).mp hflush with ⟨_, _, rfl, hsay⟩
  rcases (Program.conversation_bind (say .trace (message taken)) _ _ _).mp hsay
    with ⟨saying, _, _, rfl, hsaid, hdone⟩
  rcases conversation_say .trace _ saying _ hsaid with ⟨hsilent, rfl⟩
  rcases (Program.conversation_done _ _ _).mp hdone with ⟨rfl, hbytes⟩
  cases hbytes
  -- What was taken comes latest first and is turned around.
  rcases Program.conversation_bind_ok _ _ _ _ hpop with ⟨_, _, _, rfl, hpops, hend⟩
  rcases conversation_popOnto [] length _ _ hpops with ⟨received, hlength, hreceived, htaken⟩
  cases htaken
  rcases (Program.conversation_done _ _ _).mp hend with ⟨rfl, hturned⟩
  cases hturned
  rcases conversation_waitFor _ _ _ _ hwait with ⟨found, hpolls, houtcome⟩
  cases found with
  | none => cases houtcome
  | some status =>
      rcases hpolls.split with ⟨waited, hwaited, hoffset, haccept⟩
      have hlast : accesses (writeEvent 32 Offset.fifoPointer 0 :: saying) =
          [.ofWrite 32 Offset.fifoPointer 0] := by
        rw [Bus.accesses_write, hsilent]
      refine ⟨waited, status, ?_, waits_of_offset (Or.inr rfl) hoffset,
        isSet_tranDone status haccept, ?_⟩
      · simp only [Bus.accesses_append, hwaited, hreceived, List.append_nil, List.reverse_reverse,
          List.append_assoc, List.singleton_append, ← hlast]
        rfl
      · rw [List.append_nil, List.reverse_reverse, hlength]

end Response

section Request

/-- A frame that is queued before the one write that starts the transfer. -/
structure Launched (frame : List UInt8) (queue : List Access) (start : Access)
    (later : List Access) : Prop where
  /-- The write sets the bit that starts a transfer. -/
  starts : start.writes Offset.transfer = true ∧ start.value.testBit 15 = true
  once : ∀ a ∈ queue ++ later, a.writes Offset.transfer = false
  queued : queue.filter (Access.writes Offset.fifoData) = frame.map pushed
  /-- The FIFO is not emptied meanwhile. -/
  unflushed : ∀ a ∈ queue, a.offset ≠ Offset.fifoPointer

/-- What is to be known about the frame of a transfer. -/
structure Framed (request : Request) (xs : List Access)
    (outcome : Outcome ReadFailure (List UInt8)) : Prop where
  /-- With too many address bytes or too much data for the FIFO nothing is accessed. -/
  refused : ∀ cause, request.refusal? = some cause → xs = [] ∧ outcome = .error ⟨cause, []⟩
  /-- A length beyond 32 bits is reported, and the transfer is not started. -/
  excess : request.refusal? = none → ∀ length, request.memoryLength? = some length →
    0xFFFFFFFF < length →
      outcome = .error ⟨.transferTooLong length, []⟩ ∧
        ∀ a ∈ xs, a.writes Offset.transfer = false
  /-- In all other cases it is started, and the frame is what has entered the FIFO until
      then, after it was emptied. -/
  framed : request.refusal? = none →
    (∀ length, request.memoryLength? = some length → length ≤ 0xFFFFFFFF) →
      ∃ frame current queue start later, request.IsFrame frame ∧
        xs = .ofRead 32 Offset.transfer current :: .ofWrite 32 Offset.fifoPointer 0 ::
          (queue ++ start :: later) ∧
        Launched frame queue start later
  /-- The response to a command is what is taken from the FIFO, as many bytes as were asked
      for, once the transfer is seen to be done. -/
  response : ∀ opcode length spins bytes, request = .readRegister opcode length spins →
    outcome = .ok bytes →
      ∃ before status after,
        xs = before ++ .ofRead 32 Offset.interruptStatus status :: (bytes.map popped ++ after) ∧
          (∃ a ∈ before, a.writes Offset.transfer = true) ∧
          Interrupts.tranDone.isSet status = true ∧ bytes.length = length ∧
          ∀ a ∈ before ++ after, a.reads Offset.fifoData = false

-- Whatever its shape is, a transfer writes the register at most once.
theorem countP_transferring {preset : Except Error (BitVec 32)}
    {events : List (Event Bus.interface)} {delivered : Bool}
    (h : Transferring Apart preset events delivered) :
    (accesses events).countP (Access.writes Offset.transfer) ≤ 1 := by
  cases h with
  | refused => exact Nat.zero_le 1
  | abandoned current queue hqueue =>
      have hnone := writes_opening current queue hqueue.apart
      rw [List.countP_eq_zero.mpr fun a ha => Bool.eq_false_iff.mp (hnone a ha)]
      exact Nat.zero_le 1
  | started template current queue rest _ _ hqueue hrest =>
      rw [accesses_started]
      exact Nat.le_of_eq (countP_started template current hqueue.apart hrest)

/-- A transfer that opens with a frame has it queued before its start. -/
theorem launched_of_framing (template current : BitVec 32) {frame : List UInt8}
    {queue rest : List (Event Bus.interface)} (hqueue : Framing frame queue)
    (hcount : (accesses (opening current ++ queue ++ starting template current ++ rest)).countP
      (Access.writes Offset.transfer) ≤ 1) :
    accesses (opening current ++ queue ++ starting template current ++ rest) =
        .ofRead 32 Offset.transfer current :: .ofWrite 32 Offset.fifoPointer 0 ::
          ((accesses queue ++ [.ofWrite 32 Offset.interruptStatus 0]) ++
            .ofWrite 32 Offset.transfer (startWord template current) :: accesses rest) ∧
      Launched frame (accesses queue ++ [.ofWrite 32 Offset.interruptStatus 0])
        (.ofWrite 32 Offset.transfer (startWord template current)) (accesses rest) := by
  have hxs : accesses (opening current ++ queue ++ starting template current ++ rest) =
      .ofRead 32 Offset.transfer current :: .ofWrite 32 Offset.fifoPointer 0 ::
        ((accesses queue ++ [.ofWrite 32 Offset.interruptStatus 0]) ++
          .ofWrite 32 Offset.transfer (startWord template current) :: accesses rest) := by
    rw [accesses_started, startedAccesses, untilStart, Bus.accesses_append, Bus.accesses_append]
    rfl
  refine ⟨hxs, ⟨rfl, getLsbD_startWord template current⟩, ?_, ?_, ?_⟩
  · -- The write is one of at most one, so there is none before or after it.
    rw [hxs, List.countP_cons_of_neg (Bool.eq_false_iff.mp rfl),
      List.countP_cons_of_neg (Bool.eq_false_iff.mp rfl), List.countP_append,
      List.countP_cons_of_pos rfl] at hcount
    intro a ha
    refine Bool.eq_false_iff.mpr (List.countP_eq_zero.mp ?_ a ha)
    rw [List.countP_append]
    omega
  · rw [List.filter_append, hqueue.queued]
    exact List.append_nil _
  · exact List.forall_mem_append.mpr ⟨fun a ha => (hqueue.others a ha).2.2,
      List.forall_mem_singleton.mpr (Nat.ne_of_beq_eq_false rfl)⟩

-- Up to the start nothing is taken from the FIFO.
theorem reads_opened (template current : BitVec 32) {frame : List UInt8}
    {queue : List (Event Bus.interface)} (hqueue : Framing frame queue) :
    ∀ a ∈ accesses (opening current ++ queue ++ starting template current),
      a.reads Offset.fifoData = false := by
  have hP := Bus.composes_accesses fun a => a.reads Offset.fifoData = false
  have hopening := hP.append [Bus.readEvent 32 Offset.transfer current]
    [writeEvent 32 Offset.fifoPointer 0] (Bus.forall_read rfl) (Bus.forall_write rfl)
  have hstarting := hP.append [writeEvent 32 Offset.interruptStatus 0]
    [writeEvent 32 Offset.transfer (startWord template current)] (Bus.forall_write rfl)
    (Bus.forall_write rfl)
  refine hP.append _ _ (hP.append _ _ hopening fun a ha => ?_) hstarting
  rw [Access.reads, (hqueue.others a ha).1, Bool.not_true, Bool.false_and]

/-- The response that is delivered is what the FIFO gave after the end of the transfer. -/
theorem readRegister_response (opcode : UInt8) (length spins : Nat) (hlength : length < 8)
    (events : List (Event Bus.interface)) (bytes : List UInt8)
    (h : (readRegister opcode length spins).Conversation events (.ok bytes)) :
    ∃ before status after,
      accesses events =
          before ++ .ofRead 32 Offset.interruptStatus status :: (bytes.map popped ++ after) ∧
        (∃ a ∈ before, a.writes Offset.transfer = true) ∧
        Interrupts.tranDone.isSet status = true ∧ bytes.length = length ∧
        ∀ a ∈ before ++ after, a.reads Offset.fifoData = false := by
  obtain ⟨message, hopens⟩ := opens_readRegister opcode spins length hlength
  obtain ⟨template, current, queue, rest, rfl, hqueue, htail⟩ := hopens events _ h
  obtain ⟨waited, status, hrest, hwaited, hdone, hbytes⟩ :=
    conversation_response length spins message rest bytes htail
  refine ⟨accesses (opening current ++ queue ++ starting template current) ++ waited, status,
    [.ofWrite 32 Offset.fifoPointer 0], ?_, ?_, hdone, hbytes, ?_⟩
  · rw [Bus.accesses_append, hrest, List.append_assoc _ waited]
  · refine ⟨.ofWrite 32 Offset.transfer (startWord template current), ?_, rfl⟩
    rw [Bus.accesses_append]
    exact List.mem_append_left _ (List.mem_append_right _ (List.mem_cons_of_mem _
      List.mem_cons_self))
  · exact List.forall_mem_append.mpr ⟨List.forall_mem_append.mpr
      ⟨reads_opened template current hqueue, fun a ha => reads_of_waits a (hwaited a ha)⟩,
      List.forall_mem_singleton.mpr rfl⟩

/-- What is known about the frame of every transfer, whatever the bus answers. -/
theorem request_framed {σ : Type} (machine : Machine Bus.interface σ) (s : σ)
    (request : Request) :
    Framed request (accesses (request.program.run machine.recorded (.start s)).2.events)
      (request.program.run machine.recorded (.start s)).1 := by
  have hc := (machine.conversation_recorded request.program s).1
  refine ⟨fun cause hcause => ?_, fun hrefusal length hmemory hlength =>
    request.conversation_excess length hrefusal hmemory hlength _ _ hc,
    fun hrefusal hlength => ?_, ?_⟩
  · rw [request.program_of_refusal cause hcause]
    exact ⟨rfl, rfl⟩
  · obtain ⟨frame, tail, hframe, hopens⟩ := request.opens hrefusal hlength
    have hcount := countP_transferring (request.transfers tolerates_apart _ _ hc)
    obtain ⟨template, current, queue, rest, hevents, hqueue, -⟩ := hopens _ _ hc
    rw [hevents] at hcount ⊢
    obtain ⟨hxs, hlaunched⟩ := launched_of_framing template current hqueue hcount
    exact ⟨frame, current, _, _, _, hframe, hxs, hlaunched⟩
  · rintro opcode length spins bytes rfl hok
    rw [hok] at hc
    refine readRegister_response opcode length spins ?_ _ bytes
      (Program.conversation_mapError_ok _ _ _ _ hc)
    -- More would have been refused.
    refine Nat.lt_of_not_le fun hlarge => ?_
    have hrefusal : (Request.readRegister opcode length spins).refusal? =
        some (.fifoOverflow length) := if_pos hlarge
    rw [Request.program_of_refusal _ _ hrefusal] at hc
    cases ((Program.conversation_done _ _ _).mp hc).2

end Request

end Flash

end BoardSupport
