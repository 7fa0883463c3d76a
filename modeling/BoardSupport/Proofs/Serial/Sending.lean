import Mathlib.Data.List.Infix
import BoardSupport.Proofs.Bus.Polling
import BoardSupport.Proofs.Register.Field
import BoardSupport.Serial.Service

/-!
# Sending over the Serial Line

What goes out over a serial line on every bus.

A byte is sent in two steps that cannot be taken at once: the driver reads the
transmit register until it no longer says that the FIFO is full, and then
writes the byte there. `Sends` says what this comes to for some bytes, access
by access, and that sending some bytes and then others is sending both. A text
is sent as the UTF-8 of its characters.

The driver asks a given number of times before it gives up. `WaitsEnd` says of
the accesses of a run that the bus never answered that often in a row that the
FIFO is full. Nothing is given up in such a run, so it is the run of a driver
that would go on asking forever.

## Main definitions

* `Serial.Call.content`: The bytes that a client asks for.
* `Serial.refuses`: A read that was told that the FIFO is full.
* `Serial.WaitsEnd`: No wait used up the driver's patience.
* `Serial.Sends`: Accesses that send some bytes.

## Theorems

* `Serial.data_put`: The word that is written for a byte.
* `Serial.sends_append`: Bytes sent one after another.
* `Serial.conversation_putByte`, `Serial.conversation_writeBytes`: A byte, and
  bytes in order.
* `Serial.writeBytes_ne_fault`: Sending never fails an assertion.
* `Serial.toUTF8_eq`: The bytes of a text are those of its characters.
* `Serial.sends_turns`: Calls one after another.
-/

namespace BoardSupport

namespace Serial

open Bus (Access accesses writeEvent)
open Program (keeps_bind keeps_done keeps_forEach keeps_poll)

variable {σ : Type}

/-- The bytes that a client asks for: texts and characters in UTF-8. -/
def Call.content : Call → List UInt8
  | .bytes sent => sent
  | .text sent => sent.toList.flatMap String.utf8EncodeChar
  | .char sent => String.utf8EncodeChar sent

/-- A read of the transmit register that was told that the FIFO is full. -/
def refuses (a : Access) : Bool :=
  a.reads Offset.transmitData && a.value.testBit 31

/-- Fewer than `patience` reads in a row are told that the FIFO is full. -/
def WaitsEnd (patience : Nat) (xs : List Access) : Prop :=
  ∀ rest ∈ xs.tails, (rest.takeWhile refuses).length < patience

instance (patience : Nat) (xs : List Access) : Decidable (WaitsEnd patience xs) :=
  inferInstanceAs (Decidable (∀ rest ∈ xs.tails, _))

/-- The write of a byte to the FIFO, with the other bits of the word zero. -/
def byteWrite (b : UInt8) : Access :=
  .ofWrite 32 Offset.transmitData (b.toBitVec.setWidth 32)

/-- A read that was told that the FIFO has room. -/
def Admits (r : Access) : Prop :=
  ∃ word : BitVec 32, r = .ofRead 32 Offset.transmitData word ∧ word.getLsbD 31 = false

/-- Accesses that send some bytes: to no register but the one for transmitting,
    each byte written once and in order, and each write right after a read that
    was told that there is room. -/
structure Sends (bytes : List UInt8) (xs : List Access) : Prop where
  inRegister : ∀ a ∈ xs, a.bits = 32 ∧ a.offset = Offset.transmitData
  written : xs.filter Access.isWrite = bytes.map byteWrite
  admitted : Bus.Preceded Access.isWrite (fun r _ => Admits r) xs

theorem sends_append (bs cs : List UInt8) (xs ys : List Access) (hx : Sends bs xs)
    (hy : Sends cs ys) : Sends (bs ++ cs) (xs ++ ys) where
  inRegister a ha := by
    rcases List.mem_append.mp ha with ha | ha
    · exact hx.inRegister a ha
    · exact hy.inRegister a ha
  written := by rw [List.filter_append, List.map_append, hx.written, hy.written]
  admitted := Bus.preceded_append xs ys hx.admitted hy.admitted

-- Reads of the register alone send nothing.
theorem sends_reads (words : List (BitVec 32)) :
    Sends [] (words.map (Access.ofRead 32 Offset.transmitData)) where
  inRegister := by
    intro a ha
    rcases List.mem_map.mp ha with ⟨word, -, rfl⟩
    exact ⟨rfl, rfl⟩
  written := by
    rw [List.map_nil, List.filter_eq_nil_iff]
    intro a ha
    rcases List.mem_map.mp ha with ⟨word, -, rfl⟩
    exact Bool.false_ne_true
  admitted := by
    refine Bus.preceded_of_forall _ fun a ha => ?_
    rcases List.mem_map.mp ha with ⟨word, -, rfl⟩
    rfl

theorem sends_byte (b : UInt8) (word : BitVec 32) (h : word.getLsbD 31 = false) :
    Sends [b] [.ofRead 32 Offset.transmitData word, byteWrite b] where
  inRegister := by
    intro a ha
    rcases List.mem_pair.mp ha with rfl | rfl
    · exact ⟨rfl, rfl⟩
    · exact ⟨rfl, rfl⟩
  written := rfl
  admitted := Bus.preceded_pair _ _ rfl ⟨word, rfl, h⟩

/-- The word that is written for a byte has the byte in its low bits and is zero
    elsewhere. -/
theorem data_put (b : UInt8) :
    (TransmitData.data.put b.toNat 0 : BitVec 32) = b.toBitVec.setWidth 32 := by
  refine BitVec.eq_of_getLsbD_eq fun i hi => ?_
  have hbyte : b.toNat.testBit i = b.toBitVec.getLsbD i := rfl
  rw [Register.Field.getLsbD_put, decide_eq_true hi, Bool.true_and, BitVec.getLsbD_setWidth,
    decide_eq_true hi, Bool.true_and]
  by_cases hin : i < 8
  · rw [if_pos ⟨Nat.zero_le i, by simpa [TransmitData.data, Register.number] using hin⟩]
    exact hbyte
  · rw [if_neg fun h => hin (by simpa [TransmitData.data, Register.number] using h.2),
      BitVec.getLsbD_of_ge b.toBitVec i (Nat.le_of_not_lt hin)]
    exact BitVec.getLsbD_zero

-- What the driver takes for a full FIFO is the top bit.
theorem refuses_read (word : BitVec 32) :
    refuses (.ofRead 32 Offset.transmitData word) = TransmitData.full.isSet word := by
  rw [TransmitData.full, Register.isSet_flag]
  rfl

theorem waitsEnd_left (patience : Nat) (xs ys : List Access) (h : WaitsEnd patience (xs ++ ys)) :
    WaitsEnd patience xs := by
  intro rest hrest
  have hsuffix : rest ++ ys <:+ xs ++ ys := by
    rcases (List.mem_tails rest xs).mp hrest with ⟨front, rfl⟩
    exact ⟨front, (List.append_assoc front rest ys).symm⟩
  have hlonger : (rest.takeWhile refuses).length ≤ ((rest ++ ys).takeWhile refuses).length := by
    rw [List.takeWhile_append]
    split
    · rename_i hall
      rw [hall, List.length_append]
      exact Nat.le_add_right _ _
    · exact Nat.le_refl _
  exact Nat.lt_of_le_of_lt hlonger (h _ ((List.mem_tails _ _).mpr hsuffix))

theorem waitsEnd_right (patience : Nat) (xs ys : List Access) (h : WaitsEnd patience (xs ++ ys)) :
    WaitsEnd patience ys :=
  fun rest hrest => h rest ((List.mem_tails rest (xs ++ ys)).mpr
    (((List.mem_tails rest ys).mp hrest).trans (List.suffix_append xs ys)))

-- The waits of a run are those of its parts.
theorem divides_waitsEnd (patience : Nat) :
    Divides fun events => WaitsEnd patience (accesses events) := by
  refine ⟨fun first rest h => ?_, fun first rest h => ?_⟩
  · rw [Bus.accesses_append] at h
    exact waitsEnd_left patience _ _ h
  · rw [Bus.accesses_append] at h
    exact waitsEnd_right patience _ _ h

/-- If the wait for room ends, one byte is sent. -/
theorem conversation_putByte (patience : Nat) (b : UInt8) (events : List (Event Bus.interface))
    (outcome : Outcome Stalled Unit)
    (h : (putByte patience b).Conversation events outcome)
    (hends : WaitsEnd patience (accesses events)) :
    outcome = .ok () ∧ Sends [b] (accesses events) := by
  rcases (Program.conversation_bind _ _ _ _).mp h with ⟨waited, rest, ended, rfl, hpoll, hrest⟩
  rcases Bus.conversation_poll 32 Offset.transmitData TransmitData.full.isSet (!·) patience
    waited ended hpoll with ⟨found, hpolls, rfl⟩
  generalize hreads : accesses waited = reads at hpolls
  cases hpolls with
  | exhausted words hwords hlength =>
      -- The driver would have been told as often as it asks that the FIFO is full.
      have hall : ∀ a ∈ words.map (Access.ofRead 32 Offset.transmitData), refuses a = true := by
        intro a ha
        rcases List.mem_map.mp ha with ⟨word, hword, rfl⟩
        rw [refuses_read, (Bool.not_eq_false' _).mp (hwords word hword)]
      have hshort := hends _ ((List.mem_tails _ _).mpr (List.suffix_refl _))
      rw [Bus.accesses_append, hreads, List.takeWhile_append_of_pos hall, List.length_append,
        List.length_map, hlength] at hshort
      omega
  | accepted words word _ _ hroom =>
      rcases (Program.conversation_ask _ _ _ _).mp hrest with ⟨_, rest, rfl, hdone⟩
      rcases (Program.conversation_done _ _ _).mp hdone with ⟨rfl, rfl⟩
      refine ⟨rfl, ?_⟩
      have hbit : word.getLsbD 31 = false := by
        rw [← Register.isSet_flag "full" 31 word]
        exact (Bool.not_eq_true' _).mp hroom
      change Sends [b] (accesses (waited ++
        [writeEvent 32 Offset.transmitData (TransmitData.data.put b.toNat 0)]))
      rw [Bus.accesses_append, hreads, Bus.accesses_write, data_put, List.append_assoc]
      exact sends_append [] [b] _ _ (sends_reads words) (sends_byte b word hbit)

/-- If all waits end, bytes are sent in order. -/
theorem conversation_writeBytes (patience : Nat) (bytes : List UInt8)
    (events : List (Event Bus.interface)) (outcome : Outcome Stalled Unit)
    (h : (writeBytes patience bytes).Conversation events outcome)
    (hends : WaitsEnd patience (accesses events)) :
    outcome = .ok () ∧ Sends bytes (accesses events) := by
  induction bytes generalizing events with
  | nil =>
      rcases (Program.conversation_done _ _ _).mp h with ⟨rfl, rfl⟩
      exact ⟨rfl, sends_reads []⟩
  | cons b bytes ih =>
      rcases (Program.conversation_bind _ _ _ _).mp h with ⟨first, rest, ended, rfl, hb, hrest⟩
      rw [Bus.accesses_append] at hends
      rcases conversation_putByte patience b first ended hb (waitsEnd_left patience _ _ hends)
        with ⟨rfl, hsent⟩
      rcases ih rest hrest (waitsEnd_right patience _ _ hends) with ⟨rfl, hlater⟩
      refine ⟨rfl, ?_⟩
      rw [Bus.accesses_append]
      exact sends_append [b] bytes _ _ hsent hlater

/-- Sending never ends by a failed assertion, whether the waits end or not. -/
theorem writeBytes_ne_fault (patience : Nat) (bytes : List UInt8)
    (events : List (Event Bus.interface)) (outcome : Outcome Stalled Unit)
    (h : (writeBytes patience bytes).Conversation events outcome) : outcome ≠ .fault := by
  have hP : Composes fun _ : List (Event Bus.interface) => True :=
    ⟨trivial, fun _ _ _ _ => trivial⟩
  have hfull : (transmitFull : Driver Stalled Bool).Keeps (fun _ => True) (fun _ => True)
      (fun _ => True) :=
    keeps_bind hP (Bus.keeps_read 32 _ fun _ => trivial) fun _ _ => keeps_done hP (.ok _) trivial
  have hbyte : ∀ b ∈ bytes, (putByte patience b).Keeps (fun _ => True) (fun _ => True)
      (fun _ => True) := by
    intro b _
    refine keeps_bind hP (keeps_poll hP patience _ hfull) fun answer _ => ?_
    cases answer with
    | none => exact keeps_done hP (.error _) trivial
    | some _ => exact Bus.keeps_write 32 _ _ trivial
  rintro rfl
  exact (keeps_forEach hP _ bytes hbyte events _ h).2

/-- The bytes of a text are those of its characters. -/
theorem toUTF8_eq (text : String) :
    text.toUTF8.data.toList = text.toList.flatMap String.utf8EncodeChar := by
  rw [String.toUTF8, ← String.utf8Encode_toList, List.utf8Encode, List.data_toByteArray]

/-- If all waits end, a call sends what was asked for. -/
theorem conversation_call (patience : Nat) (call : Call) (events : List (Event Bus.interface))
    (outcome : Outcome Stalled Unit) (h : (call.program patience).Conversation events outcome)
    (hends : WaitsEnd patience (accesses events)) :
    outcome = .ok () ∧ Sends call.content (accesses events) := by
  have hcontent : call.program patience = writeBytes patience call.content := by
    cases call with
    | bytes sent => rfl
    | text sent => exact congrArg (writeBytes patience) (toUTF8_eq sent)
    | char sent =>
        refine congrArg (writeBytes patience) ((toUTF8_eq (String.singleton sent)).trans ?_)
        rw [String.toList_singleton, List.flatMap_singleton]
        rfl
  rw [hcontent] at h
  exact conversation_writeBytes patience call.content events outcome h hends

/-- If all waits end, calls one after another send what was asked for in
    order. -/
theorem sends_turns (patience : Nat) (machine : Machine Bus.interface σ) (s : σ)
    (calls : List Call)
    (hends : WaitsEnd patience
      (accesses (Service.events ((service patience).turns machine () s calls)))) :
    (∀ t ∈ (service patience).turns machine () s calls, t.outcome = .ok ()) ∧
      Sends (calls.flatMap Call.content)
        (accesses (Service.events ((service patience).turns machine () s calls))) := by
  refine (service patience).carried_turns (fun events => WaitsEnd patience (accesses events))
    (fun calls events => Sends (calls.flatMap Call.content) (accesses events))
    (divides_waitsEnd patience) (sends_reads []) (fun call asked outcome hasked hwaits => ?_)
    machine s calls hends
  rcases conversation_call patience call asked outcome hasked hwaits with ⟨houtcome, hsent⟩
  refine ⟨houtcome, fun calls rest hrest => ?_⟩
  rw [List.flatMap_cons, Bus.accesses_append]
  exact sends_append _ _ _ _ hsent hrest

end Serial

end BoardSupport
