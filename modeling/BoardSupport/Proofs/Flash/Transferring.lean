import BoardSupport.Flash.Service
import BoardSupport.Proofs.Bus.Accesses

/-!
# What a Transfer Goes Through

The shape of every transfer on every bus.

A transfer is refused without an access, or it begins like all others. The
transfer register is read and the FIFO emptied; the frame is queued, which is
the command, the address, and data that fit beside them; then the interrupt
status is cleared and the transfer register is written, once. If queueing
fails, the transfer is abandoned before that write.

What follows differs from transfer to transfer, but its steps are few: reads of
registers other than the transfer register, emptying the FIFO, and bursts of
data, each behind a reading that the FIFO is empty. So what follows has every
property that these steps tolerate. Which property that is, is left open here.

## Main definitions

* `Flash.Apart`: Events that leave the transfer register alone.
* `Flash.Queued`: Queueing a number of bytes.
* `Flash.Tolerates`: Properties of events that the rest of a transfer has.
* `Flash.Transferring`: The shape of a transfer.

## Theorems

* `Flash.conversation_pushFifo`: Bytes are queued in order.
* `Flash.keeps_sendBurst`: A burst goes out behind a reading of an empty FIFO.
* `Flash.transfers_prepare`, `Flash.launches_queue`, `Flash.launches_go`: The
  shape of a transfer from its parts.
* `Flash.Request.transfers`: Every request has the shape.
-/

namespace BoardSupport

namespace Flash

open Bus (accesses readEvent writeEvent logEvent keeps_read keeps_write keeps_log)
open Program (keeps_done keeps_bind keeps_mapError keeps_poll keeps_forEach
  conversation_bind_ok)

/-- What a transfer is started with, from what the transfer register held. -/
def startWord (template current : BitVec 32) : BitVec 32 :=
  Transfer.go.put 1 (Transfer.cleared current ||| template)

/-- The accesses that prepare a transfer. -/
def opening (current : BitVec 32) : List (Event Bus.interface) :=
  [readEvent 32 Offset.transfer current, writeEvent 32 Offset.fifoPointer 0]

/-- The accesses that start it. -/
def starting (template current : BitVec 32) : List (Event Bus.interface) :=
  [writeEvent 32 Offset.interruptStatus 0,
    writeEvent 32 Offset.transfer (startWord template current)]

/-- A byte that enters the FIFO. -/
def pushEvent (b : UInt8) : Event Bus.interface :=
  writeEvent 8 Offset.fifoData b.toBitVec

/-- The transfer register is left alone. -/
def Apart (events : List (Event Bus.interface)) : Prop :=
  ∀ a ∈ accesses events, a.offset ≠ Offset.transfer

/-- The transfer register is left alone, and at most so many bytes are put into
    the FIFO. -/
structure Queued (count : Nat) (events : List (Event Bus.interface)) : Prop where
  apart : Apart events
  bytes : (accesses events).countP (Bus.Access.writes Offset.fifoData) ≤ count

/-- A property of events that composes and that the rest of a transfer has. -/
structure Tolerates (P : List (Event Bus.interface) → Prop) : Prop where
  composes : Composes P
  read : ∀ bits offset answer, offset ≠ Offset.transfer → P [readEvent bits offset answer]
  flush : P [writeEvent 32 Offset.fifoPointer 0]
  burst : ∀ (pointer : BitVec 32) (bytes : List UInt8), fifoLevel pointer = 0 →
    bytes.length ≤ fifoDepth →
      P (readEvent 32 Offset.fifoPointer pointer :: bytes.map pushEvent)
  log : ∀ level message, P [logEvent level message]

/-- The shape of a transfer with a preset, what follows its start having a
    property. Only a transfer that was started can have been delivered. -/
inductive Transferring (P : List (Event Bus.interface) → Prop) (preset : Except Error (BitVec 32)) :
    List (Event Bus.interface) → (delivered : Bool) → Prop where
  | refused : Transferring P preset [] false
  | abandoned (current : BitVec 32) (queue : List (Event Bus.interface))
      (hqueue : Queued fifoDepth queue) :
      Transferring P preset (opening current ++ queue) false
  | started (template current : BitVec 32) (queue rest : List (Event Bus.interface))
      (delivered : Bool) (hpreset : preset = .ok template) (hqueue : Queued fifoDepth queue)
      (hrest : P rest) :
      Transferring P preset (opening current ++ queue ++ starting template current ++ rest)
        delivered

/-- A program all of whose conversations have the shape. -/
def Transfers {ε α : Type} (P : List (Event Bus.interface) → Prop)
    (preset : Except Error (BitVec 32)) (p : Driver ε α) : Prop :=
  ∀ events outcome, p.Conversation events outcome →
    Transferring P preset events outcome.isOk

section Queue

variable {ε α β : Type}

theorem queued_append {m n : Nat} (first rest : List (Event Bus.interface)) (hf : Queued m first)
    (hr : Queued n rest) : Queued (m + n) (first ++ rest) := by
  refine ⟨(Bus.composes_accesses _).append _ _ hf.apart hr.apart, ?_⟩
  rw [Bus.accesses_append, List.countP_append]
  exact Nat.add_le_add hf.bytes hr.bytes

theorem queued_mono {m n : Nat} (events : List (Event Bus.interface)) (h : m ≤ n)
    (hq : Queued m events) : Queued n events :=
  ⟨hq.apart, Nat.le_trans hq.bytes h⟩

/-- A program that queues at most so many bytes. -/
def Queues (count : Nat) (p : Driver ε α) : Prop :=
  ∀ events outcome, p.Conversation events outcome → Queued count events

theorem queues_done (outcome : Outcome ε α) : Queues 0 (.done outcome : Driver ε α) := by
  intro events ended h
  rcases (Program.conversation_done _ _ _).mp h with ⟨rfl, rfl⟩
  exact ⟨fun _ ha => absurd ha List.not_mem_nil, Nat.le_refl 0⟩

-- A register that is neither the transfer register nor the FIFO.
theorem queues_set (offset : Nat) (value : BitVec 32)
    (h : offset ∉ [Offset.transfer, Offset.fifoData]) :
    Queues 0 (Bus.write 32 offset value : Driver ε Unit) := by
  simp only [List.mem_cons, List.not_mem_nil, or_false, not_or] at h
  intro events outcome hc
  rcases (Program.conversation_ask _ _ _ _).mp hc with ⟨_, _, rfl, hdone⟩
  rcases (Program.conversation_done _ _ _).mp hdone with ⟨rfl, -⟩
  refine ⟨Bus.forall_write h.1, Nat.le_of_eq (List.countP_eq_zero.mpr (Bus.forall_write ?_))⟩
  rw [Bool.not_eq_true]
  exact beq_eq_false_iff_ne.mpr h.2

/-- Bytes are queued in order, and nothing goes wrong. -/
theorem conversation_pushFifo (bytes : List UInt8) (events : List (Event Bus.interface))
    (outcome : Outcome ε Unit) (h : (pushFifo bytes).Conversation events outcome) :
    events = bytes.map pushEvent ∧ outcome = .ok () := by
  induction bytes generalizing events with
  | nil => exact (Program.conversation_done _ _ _).mp h
  | cons b rest ih =>
      rcases (Program.conversation_ask _ _ _ _).mp h with ⟨_, later, rfl, hlater⟩
      rcases ih later hlater with ⟨rfl, rfl⟩
      exact ⟨rfl, rfl⟩

theorem queued_push (bytes : List UInt8) : Queued bytes.length (bytes.map pushEvent) := by
  induction bytes with
  | nil => exact ⟨fun _ ha => absurd ha List.not_mem_nil, Nat.le_refl 0⟩
  | cons b rest ih =>
      have hone : Queued 1 [pushEvent b] :=
        ⟨Bus.forall_write (Nat.ne_of_beq_eq_false rfl), Nat.le_refl 1⟩
      rw [List.length_cons, Nat.add_comm]
      exact queued_append [pushEvent b] _ hone ih

theorem queues_pushFifo (bytes : List UInt8) :
    Queues bytes.length (pushFifo bytes : Driver ε Unit) := by
  intro events outcome h
  rcases conversation_pushFifo bytes events outcome h with ⟨rfl, -⟩
  exact queued_push bytes

theorem queues_pushByte (b : UInt8) : Queues 1 (pushByte b : Driver ε Unit) :=
  queues_pushFifo [b]

theorem queues_setTransferLength (length : Nat) : Queues 0 (setTransferLength length) := by
  unfold setTransferLength
  split
  · exact queues_done _
  · exact queues_set Offset.transferLength _ (by decide)

theorem queues_when (condition : Bool) {p : Driver ε Unit} (h : Queues 0 p) :
    Queues 0 (Program.when condition p) := by
  cases condition with
  | true => exact h
  | false => exact queues_done _

end Queue

section Rest

variable {P : List (Event Bus.interface) → Prop} (hP : Tolerates P)

include hP

theorem keeps_say {ε : Type} {E : ε → Prop} (level : Log.Level) (message : String) :
    (say level message : Driver ε Unit).Keeps P (fun _ => True) E :=
  keeps_log level _ (hP.log level _)

theorem keeps_flush {ε : Type} {E : ε → Prop} :
    (Bus.write 32 Offset.fifoPointer 0 : Driver ε Unit).Keeps P (fun _ => True) E :=
  keeps_write 32 Offset.fifoPointer 0 hP.flush

theorem keeps_register {ε : Type} {E : ε → Prop} (bits offset : Nat)
    (h : offset ≠ Offset.transfer) :
    (Bus.read bits offset : Driver ε (BitVec bits)).Keeps P (fun _ => True) E :=
  keeps_read bits offset fun answer => hP.read bits offset answer h

theorem keeps_waitFor (mask : BitVec 32) (spins : Nat) :
    (waitFor mask spins).Keeps P (fun _ => True) (fun _ => True) := by
  refine keeps_bind hP.composes (keeps_poll hP.composes _ _
    (keeps_register hP 32 Offset.interruptStatus (by decide))) fun answer _ => ?_
  cases answer with
  | some status => exact keeps_done hP.composes (.ok status) trivial
  | none =>
      refine keeps_bind hP.composes (keeps_say hP _ _) fun _ _ => ?_
      exact keeps_done hP.composes (.error _) trivial

theorem keeps_readFifoLevel {ε : Type} {E : ε → Prop} :
    (readFifoLevel : Driver ε Nat).Keeps P (fun _ => True) E :=
  keeps_bind hP.composes (keeps_register hP 32 Offset.fifoPointer (by decide)) fun _ _ =>
    keeps_done hP.composes (.ok _) trivial

theorem keeps_waitFifoLevel (level spins : Nat) :
    (waitFifoLevel level spins).Keeps P (fun _ => True) (fun _ => True) := by
  refine keeps_bind hP.composes (keeps_poll hP.composes _ _
    (keeps_readFifoLevel hP)) fun answer _ => ?_
  cases answer with
  | some _ => exact keeps_done hP.composes (.ok ()) trivial
  | none =>
      refine keeps_bind hP.composes (keeps_say hP _ _) fun _ _ => ?_
      exact keeps_done hP.composes (.error _) trivial

theorem keeps_popOnto {ε : Type} {E : ε → Prop} (taken : List UInt8) (count : Nat) :
    (popOnto taken count : Driver ε (List UInt8)).Keeps P (fun _ => True) E := by
  induction count generalizing taken with
  | zero => exact keeps_done hP.composes (.ok taken) trivial
  | succ count ih =>
      exact keeps_bind hP.composes (keeps_register hP 8 Offset.fifoData (by decide))
        fun b _ => ih _

theorem keeps_popFifo {ε : Type} {E : ε → Prop} (count : Nat) :
    (popFifo count : Driver ε (List UInt8)).Keeps P (fun _ => True) E :=
  keeps_bind hP.composes (keeps_popOnto hP [] count) fun _ _ =>
    keeps_done hP.composes (.ok _) trivial

theorem keeps_finish (spins : Nat) :
    (finish spins).Keeps P (fun _ => True) (fun _ => True) :=
  keeps_bind hP.composes (keeps_waitFor hP _ _) fun _ _ => keeps_flush hP

theorem keeps_receive (spins : Nat) (received : List UInt8) (bursts : List Nat) :
    (receive spins received bursts).Keeps P (fun _ => True) (fun _ => True) := by
  induction bursts generalizing received with
  | nil => exact keeps_done hP.composes (.ok received) trivial
  | cons size rest ih =>
      refine keeps_bind hP.composes
        (keeps_mapError _ (keeps_waitFifoLevel hP _ _) fun _ _ => trivial) fun _ _ => ?_
      exact keeps_bind hP.composes (keeps_popOnto hP _ _) fun received _ => ih received

/-- A wait for a level of the FIFO ends with a reading of that level. -/
theorem waitFifoLevel_ok (level spins : Nat) (events : List (Event Bus.interface))
    (h : (waitFifoLevel level spins).Conversation events (.ok ())) :
    ∃ before pointer, events = before ++ [readEvent 32 Offset.fifoPointer pointer] ∧ P before ∧
      fifoLevel pointer = level := by
  rcases conversation_bind_ok _ _ _ _ h with ⟨_, _, answer, rfl, hpoll, hend⟩
  cases answer with
  | none =>
      exact absurd hend (Program.not_ok_of_bind_fail _ _ _ _)
  | some found =>
      rcases (Program.conversation_done _ _ _).mp hend with ⟨rfl, -⟩
      rcases (keeps_readFifoLevel hP (E := fun _ => True)).accepted hP.composes _ _ hpoll
        with ⟨before, _, rfl, hbefore, hread, haccept⟩
      rcases (Program.conversation_ask _ _ _ _).mp hread with ⟨pointer, _, rfl, hdone⟩
      rcases (Program.conversation_done _ _ _).mp hdone with ⟨rfl, hfound⟩
      cases hfound
      exact ⟨before, pointer, List.append_nil _, hbefore, beq_iff_eq.mp haccept⟩

/-- A burst is sent behind a reading that the FIFO is empty, or not at all. -/
theorem keeps_sendBurst (spins : Nat) (burst : List UInt8) (h : burst.length ≤ fifoDepth) :
    (sendBurst spins burst).Keeps P (fun _ => True) (fun _ => True) := by
  intro events outcome hc
  rcases (Program.conversation_bind _ _ _ _).mp hc with ⟨first, rest, ended, rfl, hwait, hpush⟩
  rcases keeps_waitFifoLevel hP 0 spins first ended hwait with ⟨hfirst, hwithin⟩
  cases ended with
  | ok a =>
      rcases conversation_pushFifo burst rest outcome hpush with ⟨rfl, rfl⟩
      rcases waitFifoLevel_ok hP 0 spins first hwait with ⟨before, pointer, rfl, hbefore, hempty⟩
      rw [List.append_assoc]
      exact ⟨hP.composes.append _ _ hbefore (hP.burst pointer burst hempty h), trivial⟩
  | error cause =>
      rcases (Program.conversation_done _ _ _).mp hpush with ⟨rfl, rfl⟩
      rw [List.append_nil]
      exact ⟨hfirst, trivial⟩
  | fault => exact hwithin.elim

end Rest

section Shape

variable {ε ε' α β : Type} {P : List (Event Bus.interface) → Prop}
  {preset : Except Error (BitVec 32)} {template current : BitVec 32}

/-- What sends the frame and starts the transfer: so many bytes are queued, and
    if nothing goes wrong the start follows. -/
def Launches (P : List (Event Bus.interface) → Prop) (template current : BitVec 32) (count : Nat)
    (p : Driver ε α) : Prop :=
  ∀ events outcome, p.Conversation events outcome →
    (Queued count events ∧ outcome.isOk = false) ∨
      ∃ queue rest, events = queue ++ starting template current ++ rest ∧ Queued count queue ∧
        P rest

theorem launches_go {tail : Driver ε α} (h : tail.Keeps P (fun _ => True) (fun _ => True)) :
    Launches P template current 0
      ((go (Transfer.cleared current ||| template)).bind fun _ => tail) := by
  intro events outcome hc
  rcases (Program.conversation_ask _ _ _ _).mp hc with ⟨_, _, rfl, hstart⟩
  rcases (Program.conversation_ask _ _ _ _).mp hstart with ⟨_, rest, rfl, htail⟩
  exact Or.inr ⟨[], rest, rfl, ⟨fun _ ha => absurd ha List.not_mem_nil, Nat.le_refl 0⟩,
    (h rest outcome htail).1⟩

theorem launches_queue {m n : Nat} {p : Driver ε α} {f : α → Driver ε β} (hp : Queues m p)
    (hf : ∀ a, Launches P template current n (f a)) :
    Launches P template current (m + n) (p.bind f) := by
  intro events outcome h
  rcases Program.conversation_bind_isOk _ _ _ _ h
    with ⟨first, rest, a, rfl, hfirst, hrest⟩ | ⟨ended, hended, -, hfail⟩
  · have hq := hp first _ hfirst
    rcases hf a rest outcome hrest with ⟨hmore, hfail⟩ | ⟨queue, later, rfl, hmore, hlater⟩
    · exact Or.inl ⟨queued_append _ _ hq hmore, hfail⟩
    · refine Or.inr ⟨first ++ queue, later, ?_, queued_append _ _ hq hmore, hlater⟩
      rw [List.append_assoc, List.append_assoc, List.append_assoc]
  · exact Or.inl ⟨queued_mono _ (Nat.le_add_right m n) (hp events ended hended), hfail⟩

/-- A transfer that passes its check is prepared and launched. -/
theorem transfers_prepare (checked : Except ε α) (template : α → BitVec 32)
    (launch : α → BitVec 32 → Driver ε β)
    (h : ∀ a, checked = .ok a → preset = .ok (template a) ∧ ∀ current, ∃ count ≤ fifoDepth,
      Launches P (template a) current count (launch a (Transfer.cleared current ||| template a))) :
    Transfers P preset ((Program.ofExcept checked).bind fun a =>
      (prepare (template a)).bind (launch a)) := by
  intro events outcome hc
  cases checked with
  | error cause =>
      rcases (Program.conversation_done _ _ _).mp hc with ⟨rfl, rfl⟩
      exact .refused
  | ok a =>
      rcases h a rfl with ⟨hpreset, hlaunch⟩
      rcases (Program.conversation_ask _ _ _ _).mp hc with ⟨current, _, rfl, hflush⟩
      rcases (Program.conversation_ask _ _ _ _).mp hflush with ⟨_, later, rfl, hlater⟩
      rcases hlaunch current with ⟨count, hcount, hl⟩
      rcases hl later outcome hlater with ⟨hq, hfail⟩ | ⟨queue, rest, rfl, hq, hrest⟩
      · rw [hfail]
        exact .abandoned current later (queued_mono _ hcount hq)
      · have hshape := Transferring.started (template a) current queue rest outcome.isOk hpreset
          (queued_mono _ hcount hq) hrest
        rw [List.append_assoc, List.append_assoc] at hshape
        rw [List.append_assoc]
        exact hshape

/-- What follows a transfer that was started belongs to its rest. -/
theorem transfers_bind (hP : Composes P) {p : Driver ε α} {f : α → Driver ε β}
    (hp : Transfers P preset p) (hf : ∀ a, (f a).Keeps P (fun _ => True) (fun _ => True)) :
    Transfers P preset (p.bind f) := by
  intro events outcome h
  rcases Program.conversation_bind_isOk _ _ _ _ h
    with ⟨first, rest, a, rfl, hfirst, hrest⟩ | ⟨ended, hended, hnot, hfail⟩
  · have hmore := (hf a rest outcome hrest).1
    cases hp first _ hfirst with
    | started template current queue later _ hpreset hqueue hlater =>
        rw [List.append_assoc]
        exact .started template current queue (later ++ rest) _ hpreset hqueue
          (hP.append _ _ hlater hmore)
  · have hshape := hp events ended hended
    rw [hnot] at hshape
    rw [hfail]
    exact hshape

theorem transfers_mapError (f : ε → ε') {p : Driver ε α} (hp : Transfers P preset p) :
    Transfers P preset (p.mapError f) := by
  intro events outcome h
  rcases Program.conversation_mapError_isOk _ _ _ _ h with ⟨ended, hended, hsame⟩
  rw [hsame]
  exact hp events ended hended

end Shape

section Operations

variable {P : List (Event Bus.interface) → Prop} (hP : Tolerates P)

-- What checks the number of address bytes lets through at most four.
theorem count_le_of_flash {count : Nat} {f : BitVec 32 → BitVec 32} {template : BitVec 32}
    (h : (Transfer.flash count).map f = .ok template) : count ≤ 4 := by
  refine Nat.le_of_not_lt fun hlarge => ?_
  rw [Transfer.flash, if_pos hlarge] at h
  cases h

-- And as many have a preset.
theorem exists_flash {count : Nat} (h : count ≤ 4) (f : BitVec 32 → BitVec 32) :
    ∃ template, (Transfer.flash count).map f = .ok template := by
  rw [Transfer.flash, if_neg (Nat.not_lt_of_le h)]
  exact ⟨_, rfl⟩

theorem length_lt_of_checkFifo {length : Nat} {u : Unit} (h : checkFifo length = .ok u) :
    length < fifoDepth := by
  refine Nat.lt_of_not_le fun hlarge => ?_
  rw [checkFifo, if_pos hlarge] at h
  cases h

/-- A command is prepared and queued before anything else. -/
theorem command_bind {ε α : Type} (preset : BitVec 32) (opcode : UInt8) (address : UInt32)
    (count : Nat) (f : BitVec 32 → Driver ε α) :
    (command preset opcode address count).bind f =
      (prepare preset).bind fun transfer => (pushByte opcode).bind fun _ =>
        (pushFifo (Bytes.bigEndian count address.toNat)).bind fun _ => f transfer := by
  change (command preset opcode address count >>= f) = (prepare preset >>= fun transfer =>
    pushByte opcode >>= fun _ => pushFifo (Bytes.bigEndian count address.toNat) >>= fun _ =>
      f transfer)
  simp only [command, bind_assoc, pure_bind]

/-- A transfer with an address has the shape if what follows its frame queues
    nothing more. -/
theorem transfers_command {α : Type} {f : BitVec 32 → BitVec 32} (opcode : UInt8)
    (address : UInt32) (count : Nat) (next : BitVec 32 → Driver Error α)
    (h : ∀ template current,
      Launches P template current 0 (next (Transfer.cleared current ||| template))) :
    Transfers P ((Transfer.flash count).map f)
      ((Program.ofExcept ((Transfer.flash count).map f)).bind fun preset =>
        (command preset opcode address count).bind next) := by
  simp only [command_bind]
  refine transfers_prepare _ (fun preset => preset) _ fun template htemplate =>
    ⟨htemplate, fun current => ⟨_, ?_, launches_queue (queues_pushByte opcode) fun _ =>
      launches_queue (queues_pushFifo _) fun _ => h template current⟩⟩
  have hcount := count_le_of_flash htemplate
  rw [Bytes.length_bigEndian, fifoDepth]
  omega

include hP

theorem transfers_readRegister (opcode : UInt8) (length spins : Nat) :
    Transfers P (.ok Transfer.registerRead) (readRegister opcode length spins) := by
  refine transfers_prepare _ (fun _ => Transfer.registerRead) _ fun _ hcheck =>
    ⟨rfl, fun current => ⟨_, ?_, launches_queue (queues_set Offset.option _ (by decide)) fun _ =>
      launches_queue (queues_pushByte opcode) fun _ => launches_queue (queues_pushFifo _) fun _ =>
        launches_queue (queues_setTransferLength length) fun _ => launches_go ?_⟩⟩
  · have hlength := length_lt_of_checkFifo hcheck
    rw [List.length_replicate]
    omega
  · refine keeps_bind hP.composes (keeps_waitFor hP _ _) fun _ _ => ?_
    refine keeps_bind hP.composes (keeps_popFifo hP length) fun response _ => ?_
    refine keeps_bind hP.composes (keeps_flush hP) fun _ _ => ?_
    refine keeps_bind hP.composes (keeps_say hP _ _) fun _ _ => ?_
    exact keeps_done hP.composes (.ok response) trivial

theorem transfers_writeRegister (opcode : UInt8) (data : List UInt8) (fullDuplex : Bool)
    (spins : Nat) :
    Transfers P (.ok (Transfer.registerWrite fullDuplex))
      (writeRegister opcode data fullDuplex spins) := by
  refine transfers_prepare _ (fun _ => Transfer.registerWrite fullDuplex) _ fun _ hcheck =>
    ⟨rfl, fun current => ⟨_, ?_, launches_queue (queues_when fullDuplex
      (queues_setTransferLength data.length)) fun _ => launches_queue (queues_pushByte opcode)
        fun _ => launches_queue (queues_pushFifo data) fun _ => launches_go ?_⟩⟩
  · have hlength := length_lt_of_checkFifo hcheck
    omega
  · refine keeps_bind hP.composes (keeps_finish hP spins) fun _ _ => ?_
    exact keeps_say hP _ _

theorem transfers_readFlash (opcode : UInt8) (address : UInt32) (count length spins : Nat) :
    Transfers P (Transfer.flashRead count) (readFlash opcode address count length spins) := by
  refine transfers_bind hP.composes (transfers_mapError _
    (transfers_command opcode address count _ fun template current =>
      launches_queue (queues_setTransferLength _) fun _ =>
        launches_go (keeps_bind hP.composes (keeps_waitFor hP _ _) fun _ _ =>
          keeps_done hP.composes (.ok ()) trivial))) fun _ => ?_
  refine keeps_bind hP.composes
    (keeps_mapError _ (keeps_receive hP _ _ _) fun _ _ => trivial) fun received _ => ?_
  refine keeps_bind hP.composes
    (keeps_mapError _ (keeps_finish hP spins) fun _ _ => trivial) fun _ _ => ?_
  refine keeps_bind hP.composes (keeps_say hP _ _) fun _ _ => ?_
  exact keeps_done hP.composes (.ok _) trivial

theorem transfers_writeFlash (opcode : UInt8) (address : UInt32) (count : Nat)
    (data : List UInt8) (spins : Nat) :
    Transfers P (Transfer.flashWrite count) (writeFlash opcode address count data spins) := by
  refine transfers_command opcode address count _ fun template current =>
    launches_queue (queues_setTransferLength _) fun _ => launches_go ?_
  refine keeps_bind hP.composes (keeps_waitFifoLevel hP 0 spins) fun _ _ => ?_
  refine keeps_bind hP.composes (keeps_flush hP) fun _ _ => ?_
  refine keeps_bind hP.composes (keeps_forEach hP.composes _ _ fun burst hburst =>
    keeps_sendBurst hP spins burst
      (Bytes.length_le_of_mem_chunks fifoDepth (by decide) data burst hburst)) fun _ _ => ?_
  refine keeps_bind hP.composes (keeps_finish hP spins) fun _ _ => ?_
  exact keeps_say hP _ _

theorem transfers_erase (opcode : UInt8) (address : UInt32) (count spins : Nat) :
    Transfers P (Transfer.flashErase count) (erase opcode address count spins) := by
  refine transfers_command opcode address count _ fun template current => launches_go ?_
  refine keeps_bind hP.composes (keeps_finish hP spins) fun _ _ => ?_
  exact keeps_say hP _ _

theorem transfers_silent {preset : Except Error (BitVec 32)} {p : Driver Error Unit}
    (h : Transfers P preset p) : Transfers P preset (Request.silent p) :=
  transfers_bind hP.composes (transfers_mapError _ h) fun _ =>
    keeps_done hP.composes (.ok []) trivial

/-- Every request has the shape of a transfer with its preset. -/
theorem Request.transfers (request : Request) :
    Transfers P request.preset request.program := by
  cases request with
  | readRegister opcode length spins =>
      exact transfers_mapError _ (transfers_readRegister hP opcode length spins)
  | writeRegister opcode data fullDuplex spins =>
      exact transfers_silent hP (transfers_writeRegister hP opcode data fullDuplex spins)
  | readFlash opcode address count length spins =>
      exact transfers_readFlash hP opcode address count length spins
  | writeFlash opcode address count data spins =>
      exact transfers_silent hP (transfers_writeFlash hP opcode address count data spins)
  | erase opcode address count spins =>
      exact transfers_silent hP (transfers_erase hP opcode address count spins)

end Operations

end Flash

end BoardSupport
