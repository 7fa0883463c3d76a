import BoardSupport.Device.Simulated
import BoardSupport.Proofs.Serial.Sending

/-!
# The Transmit FIFO

No byte that is sent over a serial line is lost.

Between the read that says that there is room and the write of the byte, the
FIFO goes on draining, and so it does at any other time. A history is what
happens to a FIFO in some order: a byte drains, or the register is accessed.
The driver has a part in the accesses only, and the FIFO answers them as it is
at that moment. So a statement about all histories with the accesses of a run
is one about all ways in which draining and the driver come in between each
other.

Draining only makes room. What has been found to have room has it when the
byte arrives, and that is all that is needed: the bytes drained and those
queued are together the bytes written so far.

## Main definitions

* `Serial.Fifo`: A transmit FIFO and the bytes that went out or were lost.
* `Serial.Moment`: Something that happens to it.
* `Serial.Fifo.after`, `Serial.Fifo.Tells`: What it makes of that, and what it
  answers.
* `Serial.Fifo.Runs`: A history, from FIFO to FIFO.
* `Serial.Lossless`: Accesses by which no FIFO loses a byte.

## Theorems

* `Serial.Fifo.holds_runs`: What a history preserves.
* `Serial.lossless_of_sends`: Bytes that are sent as they should be are not
  lost.
* `Serial.service_sends`: What a client asks for is sent and not lost.
-/

namespace BoardSupport

namespace Serial

open Bus (Access accesses)

/-- The bytes waiting in a FIFO, those that have drained, and those that arrived
    when it was full. -/
structure Fifo where
  queued : List UInt8
  drained : List UInt8
  dropped : List UInt8
  deriving DecidableEq, Repr

/-- Something that happens to a FIFO. -/
inductive Moment where
  | drains
  | access (a : Access)
  deriving DecidableEq, Repr

/-- The access that a moment is, if it is one. -/
def Moment.access? : Moment → Option Access
  | .drains => none
  | .access a => some a

/-- The accesses of a history. -/
def accessesOf (moments : List Moment) : List Access :=
  moments.filterMap Moment.access?

namespace Fifo

/-- A FIFO that nothing has happened to. -/
def empty : Fifo :=
  ⟨[], [], []⟩

/-- The byte that has waited longest goes out. -/
def drain (f : Fifo) : Fifo :=
  match f.queued with
  | [] => f
  | b :: rest => { f with queued := rest, drained := f.drained ++ [b] }

/-- A byte arrives, and is lost if the FIFO is full. -/
def accept (depth : Nat) (f : Fifo) (b : UInt8) : Fifo :=
  if f.queued.length < depth then
    { f with queued := f.queued ++ [b] }
  else
    { f with dropped := f.dropped ++ [b] }

/-- What a moment does to a FIFO of some depth. -/
def after (depth : Nat) (f : Fifo) : Moment → Fifo
  | .drains => f.drain
  | .access a =>
    if a.writes Offset.transmitData then f.accept depth (UInt8.ofNat a.value) else f

/-- A read of the register tells in its top bit whether the FIFO is full. -/
def Tells (depth : Nat) (f : Fifo) : Moment → Prop
  | .drains => True
  | .access a => a.reads Offset.transmitData = true →
    (a.value.testBit 31 = true ↔ f.queued.length = depth)

instance (depth : Nat) (f : Fifo) : (m : Moment) → Decidable (f.Tells depth m)
  | .drains => inferInstanceAs (Decidable True)
  | .access _ => inferInstanceAs (Decidable (_ → _))

/-- These moments happen one after another, and leave another FIFO. -/
def Runs (depth : Nat) : Fifo → List Moment → Fifo → Prop
  | f, [], g => g = f
  | f, m :: rest, g => f.Tells depth m ∧ Runs depth (f.after depth m) rest g

instance decidableRuns (depth : Nat) :
    (f : Fifo) → (past : List Moment) → (g : Fifo) → Decidable (Runs depth f past g)
  | f, [], g => inferInstanceAs (Decidable (g = f))
  | f, m :: rest, g =>
    have := decidableRuns depth (f.after depth m) rest g
    inferInstanceAs (Decidable (f.Tells depth m ∧ _))

end Fifo

/-- The bytes written by some accesses. -/
def sentBytes (xs : List Access) : List UInt8 :=
  (xs.filter Access.isWrite).map fun a => UInt8.ofNat a.value

theorem sentBytes_append (xs ys : List Access) :
    sentBytes (xs ++ ys) = sentBytes xs ++ sentBytes ys := by
  rw [sentBytes, List.filter_append, List.map_append]
  rfl

theorem Sends.sentBytes_eq {bytes : List UInt8} {xs : List Access} (h : Sends bytes xs) :
    sentBytes xs = bytes := by
  have hbyte : ∀ b, UInt8.ofNat (byteWrite b).value = b := by
    intro b
    have hvalue : (byteWrite b).value = b.toNat :=
      (BitVec.toNat_setWidth 32 b.toBitVec).trans
        (Nat.mod_eq_of_lt (Nat.lt_of_lt_of_le b.toBitVec.isLt (by decide)))
    rw [hvalue, UInt8.ofNat_toNat]
  rw [sentBytes, h.written, List.map_map]
  exact (List.map_congr_left fun b _ => hbyte b).trans (List.map_id bytes)

/-- No FIFO loses a byte. However deep it is and however it drains, at every
    point of a history with these accesses nothing has been dropped, the bytes
    drained and then those queued are the first of the bytes, and after the last
    access they are all of them. -/
def Lossless (bytes : List UInt8) (xs : List Access) : Prop :=
  ∀ depth past f, Fifo.Runs depth .empty past f → accessesOf past <+: xs →
    f.dropped = [] ∧ f.drained ++ f.queued <+: bytes ∧
      (accessesOf past = xs → f.drained ++ f.queued = bytes)

namespace Fifo

/-- A FIFO after accesses of a driver that asks for room: there is some if that
    is what was read last. -/
structure Holds (depth : Nat) (xs : List Access) (f : Fifo) : Prop where
  fits : f.queued.length ≤ depth
  room : ∀ r, xs.getLast? = some r → Admits r → f.queued.length < depth
  dropped : f.dropped = []
  sent : f.drained ++ f.queued = sentBytes xs

variable {depth : Nat} {xs : List Access} {f : Fifo}

/-- Draining makes room and loses nothing. -/
theorem holds_drain (h : Holds depth xs f) : Holds depth xs f.drain := by
  unfold drain
  cases hqueued : f.queued with
  | nil => exact h
  | cons b rest =>
      have hlength : f.queued.length = rest.length + 1 := congrArg List.length hqueued
      refine ⟨?_, ?_, h.dropped, ?_⟩
      · have hfits := h.fits
        change rest.length ≤ depth
        omega
      · intro r hlast hr
        have hroom := h.room r hlast hr
        change rest.length < depth
        omega
      · rw [← h.sent, hqueued, List.append_assoc]
        rfl

/-- A byte that arrives after room was found is queued. -/
theorem holds_accept (h : Holds depth xs f) (r w : Access) (hlast : xs.getLast? = some r)
    (hr : Admits r) (hw : w.isWrite = true) :
    Holds depth (xs ++ [w]) (f.accept depth (UInt8.ofNat w.value)) := by
  have hroom := h.room r hlast hr
  rw [accept, if_pos hroom]
  refine ⟨?_, ?_, h.dropped, ?_⟩
  · rw [List.length_append]
    exact hroom
  · -- What was accessed last is a write, which says nothing about room.
    intro r' hlast' hr'
    rw [List.getLast?_append_cons, List.getLast?_singleton] at hlast'
    rcases hr' with ⟨word, rfl, -⟩
    cases hlast'
    cases hw
  · have hone : sentBytes [w] = [UInt8.ofNat w.value] := by
      rw [sentBytes, List.filter_cons_of_pos hw]
      rfl
    rw [sentBytes_append, hone, ← h.sent]
    exact (List.append_assoc _ _ _).symm

/-- A read leaves the FIFO as it is and tells whether there is room. -/
theorem holds_read (h : Holds depth xs f) (a : Access) (ha : a.isWrite = false)
    (htells : f.Tells depth (.access a)) : Holds depth (xs ++ [a]) f := by
  refine ⟨h.fits, ?_, h.dropped, ?_⟩
  · intro r hlast hr
    rw [List.getLast?_append_cons, List.getLast?_singleton] at hlast
    obtain rfl := Option.some.inj hlast
    rcases hr with ⟨word, rfl, hword⟩
    have hnot : f.queued.length ≠ depth := by
      intro hfull
      have hbit : word.getLsbD 31 = true := (htells rfl).mpr hfull
      rw [hword] at hbit
      cases hbit
    exact Nat.lt_of_le_of_ne h.fits hnot
  · have hnone : sentBytes [a] = [] := by
      rw [sentBytes, List.filter_cons_of_neg (by rw [ha]; exact Bool.false_ne_true)]
      rfl
    rw [sentBytes_append, hnone, List.append_nil, h.sent]

/-- What one moment preserves. -/
theorem holds_after (h : Holds depth xs f) (a : Access) (later : List Access)
    (hregister : a.offset = Offset.transmitData)
    (hadmitted : Bus.Preceded Access.isWrite (fun r _ => Admits r) (xs ++ a :: later))
    (htells : f.Tells depth (.access a)) : Holds depth (xs ++ [a]) (f.after depth (.access a)) := by
  cases hw : a.isWrite with
  | true =>
      rcases hadmitted xs a later rfl hw with ⟨r, hlast, hr⟩
      have hwrites : a.writes Offset.transmitData = true := by
        rw [Access.writes, hw, hregister]
        rfl
      rw [after, if_pos hwrites]
      exact holds_accept h r a hlast hr hw
  | false =>
      have hreads : a.writes Offset.transmitData = false := by
        rw [Access.writes, hw]
        rfl
      rw [after, hreads, if_neg Bool.false_ne_true]
      exact holds_read h a hw htells

/-- What a history preserves, as long as its accesses are those of a driver that
    asks for room. -/
theorem holds_runs (past : List Moment) (f g : Fifo) (xs : List Access)
    (hregister : ∀ a ∈ accessesOf past, a.offset = Offset.transmitData)
    (hadmitted : Bus.Preceded Access.isWrite (fun r _ => Admits r) (xs ++ accessesOf past))
    (h : Holds depth xs f) (hrun : Runs depth f past g) :
    Holds depth (xs ++ accessesOf past) g := by
  -- Induction on the history: accesses go from what is to come to what has been.
  induction past generalizing f xs with
  | nil =>
      cases hrun
      rw [accessesOf, List.filterMap_nil, List.append_nil]
      exact h
  | cons m rest ih =>
      rcases hrun with ⟨htells, hrun⟩
      cases m with
      | drains => exact ih _ xs hregister hadmitted (holds_drain h) hrun
      | access a =>
          have hstep := holds_after h a (accessesOf rest) (hregister a List.mem_cons_self)
            hadmitted htells
          have hsplit : xs ++ accessesOf (.access a :: rest) = (xs ++ [a]) ++ accessesOf rest :=
            List.append_cons xs a (accessesOf rest)
          rw [hsplit] at hadmitted ⊢
          exact ih _ (xs ++ [a]) (fun a' ha' => hregister a' (List.mem_cons_of_mem a ha'))
            hadmitted hstep hrun

theorem holds_empty (depth : Nat) : Holds depth [] empty :=
  ⟨Nat.zero_le depth, nofun, rfl, rfl⟩

end Fifo

/-- Bytes that are sent as they should be are not lost. -/
theorem lossless_of_sends (bytes : List UInt8) (xs : List Access) (h : Sends bytes xs) :
    Lossless bytes xs := by
  intro depth past f hrun hpast
  rcases hpast with ⟨later, rfl⟩
  have hheld := Fifo.holds_runs past .empty f []
    (fun a ha => (h.inRegister a (List.mem_append_left later ha)).2)
    (Bus.preceded_left _ later h.admitted) (Fifo.holds_empty depth) hrun
  rw [List.nil_append] at hheld
  have hbytes := h.sentBytes_eq
  refine ⟨hheld.dropped, ?_, fun hall => ?_⟩
  · rw [hheld.sent, ← hbytes, sentBytes_append]
    exact List.prefix_append _ _
  · rw [hheld.sent, ← hbytes, ← hall]

/-- Whatever the bus answers, as long as all waits end: every call is carried
    out, what was asked for is sent in order, and nothing of it is lost. -/
theorem service_sends {σ : Type} (patience : Nat) (machine : Machine Bus.interface σ) (s : σ)
    (calls : List Call)
    (hends : WaitsEnd patience
      (accesses (Service.events ((service patience).turns machine () s calls)))) :
    (∀ t ∈ (service patience).turns machine () s calls, t.outcome = .ok ()) ∧
      Sends (calls.flatMap Call.content)
        (accesses (Service.events ((service patience).turns machine () s calls))) ∧
      Lossless (calls.flatMap Call.content)
        (accesses (Service.events ((service patience).turns machine () s calls))) := by
  rcases sends_turns patience machine s calls hends with ⟨houtcomes, hsent⟩
  exact ⟨houtcomes, hsent, lossless_of_sends _ _ hsent⟩

-- A FIFO for a single byte that drains in time for three of them.
example :
    Fifo.Runs 1 .empty
      [.access (.ofRead 32 Offset.transmitData 0), .access (byteWrite 0xC3),
        .access (.ofRead 32 Offset.transmitData 0x80000000), .drains,
        .access (.ofRead 32 Offset.transmitData 0x9C), .access (byteWrite 0xA9), .drains,
        .access (.ofRead 32 Offset.transmitData 0x7FFFFFFF), .access (byteWrite 0x41)]
      ⟨[0x41], [0xC3, 0xA9], []⟩ := by
  decide

/-- A line that says now and then that its FIFO is full. -/
def hesitant : Device.Simulated :=
  (⟨.empty, ∅, .none⟩ : Device.Simulated).script Offset.transmitData
    [0, 0x80000000, 0x9C, 0x800000FF, 0x7FFFFFFF]

theorem service_sends_hesitant :
    let turns := (service 2).turns Device.simulated.machine () hesitant
      [.char 'é', .bytes [], .text "A"]
    WaitsEnd 2 (accesses (Service.events turns)) ∧
      (∀ t ∈ turns, t.outcome = .ok ()) ∧
      Sends [0xC3, 0xA9, 0x41] (accesses (Service.events turns)) ∧
      Lossless [0xC3, 0xA9, 0x41] (accesses (Service.events turns)) := by
  have hends : WaitsEnd 2 (accesses (Service.events ((service 2).turns Device.simulated.machine ()
      hesitant [.char 'é', .bytes [], .text "A"]))) := by
    decide +kernel
  exact ⟨hends, service_sends 2 Device.simulated.machine hesitant _ hends⟩

end Serial

end BoardSupport
