import BoardSupport.Proofs.Flash.Bursts
import BoardSupport.Proofs.Flash.Isolation
import BoardSupport.Proofs.Flash.View

/-!
# Reading from a Simulated Part

What comes of a read of flash, for every queue of bytes and every buffer.

The driver waits for the exact size of each burst, while the fill level never
shows more than a full FIFO. A full burst is there as soon as that many bytes
are queued. The last burst, if it is a partial one, is there only while exactly
that many bytes are queued: with more in the queue the level never falls to the
size that is waited for. So a read whose size is a multiple of the depth goes
well with any queue that is long enough, and any other read only with a queue of
exactly its size.

A read moves at least a full FIFO, so the size that counts is never below that.

## Main definitions

* `Flash.Complete`: The queues with which a read goes well.
* `Flash.consumed`: Bytes taken from the queue by a read that does not.
* `Flash.Delivers`, `Flash.Starves`: How a read ends.

## Theorems

* `Flash.reaches_startRead`: A read is started, and its first bytes are there.
* `Flash.reaches_receive_bursts`: Full bursts from a queue that is long enough.
* `Flash.reaches_receive_complete`, `Flash.reaches_receive_starved`: All bursts.
* `Flash.readFlash_outcome`: What comes of a read.
-/

namespace BoardSupport

namespace Flash

open Device (FlashModel Simulated)
open Program (leads_done leads_bind leads_bind_error leads_mapError_ok leads_mapError_error
  leads_poll leads_poll_refused)

/-- A queue from which a read of some size gets all its bursts, of eight bytes
    but for the last one. -/
def Complete (size : Nat) (queued : List UInt8) : Prop :=
  (size % 8 = 0 ∧ size ≤ queued.length) ∨ (size % 8 ≠ 0 ∧ queued.length = size)

instance (size : Nat) (queued : List UInt8) : Decidable (Complete size queued) :=
  inferInstanceAs (Decidable (_ ∨ _))

/-- The bytes that a read gets in full bursts. -/
def consumed (size : Nat) (queued : List UInt8) : Nat :=
  8 * min (size / 8) (queued.length / 8)

/-- The burst that a read does not get: a full one if too few bytes are queued
    for all of those, and the last one otherwise. -/
def missed (size : Nat) (queued : List UInt8) : Nat :=
  if queued.length < 8 * (size / 8) then 8 else size % 8

-- The bursts of a read are as large as the FIFO, and the last one is the rest.
theorem burstSizes_eq (size : Nat) :
    burstSizes size =
      List.replicate (size / 8) 8 ++ if size % 8 = 0 then [] else [size % 8] :=
  rfl

-- A read that goes well fills the buffer.
theorem length_le_of_complete {length : Nat} {queued : List UInt8}
    (h : Complete (max 8 length) queued) : length ≤ queued.length := by
  rcases h with ⟨-, hle⟩ | ⟨-, heq⟩
  · exact Nat.le_trans (Nat.le_max_right _ _) hle
  · rw [heq]
    exact Nat.le_max_right _ _

section Waits

variable {m : FlashModel} (hm : m.stuck = false) (v : View)

/-- Bytes are taken from the queue in order. -/
theorem reaches_popOnto {ε : Type} (taken : List UInt8) (count : Nat) (queued : List UInt8)
    (h : count ≤ queued.length) :
    Reaches m (popOnto taken count : Driver ε (List UInt8)) { v with queued := queued }
      (.ok ((queued.take count).reverse ++ taken)) { v with queued := queued.drop count } := by
  induction count generalizing taken queued with
  | zero => exact leads_done _ rfl
  | succ count ih =>
      cases queued with
      | nil => exact absurd h (Nat.not_succ_le_zero count)
      | cons b rest =>
          have hmore := ih (b :: taken) rest (Nat.le_of_succ_le_succ h)
          rw [List.take_succ_cons, List.reverse_cons, List.append_assoc]
          exact leads_bind (reaches_pop m v b rest) hmore

theorem reaches_waitFifoLevel (level spins : Nat) (hspins : 0 < spins) (hrunning : v.running = 1)
    (h : min 8 v.queued.length = level) :
    Reaches m (waitFifoLevel level spins) v (.ok ()) v := by
  refine leads_bind (leads_poll hspins (reaches_level m v hrunning) (beq_iff_eq.mpr h)) ?_
  exact leads_done _ rfl

theorem reaches_waitFifoLevel_refused (level spins : Nat) (hrunning : v.running = 1)
    (h : min 8 v.queued.length ≠ level) :
    Reaches m (waitFifoLevel level spins) v (.error (.fifoLevel level spins)) v := by
  refine leads_bind
    (leads_poll_refused spins (reaches_level m v hrunning) (beq_eq_false_iff_ne.mpr h)) ?_
  refine leads_bind (reaches_log m v _ _) ?_
  exact leads_done _ rfl

theorem reaches_waitFor (mask : BitVec 32) (spins : Nat) (hspins : 0 < spins)
    (h : Interrupts.intersects (v.status.setWidth 32) mask = true) :
    Reaches m (waitFor mask spins) v (.ok (v.status.setWidth 32)) v := by
  refine leads_bind (leads_poll hspins (reaches_status m v) h) ?_
  exact leads_done _ rfl

include hm

theorem reaches_finish (spins : Nat) (hspins : 0 < spins)
    (h : Interrupts.intersects (v.status.setWidth 32) Interrupts.done = true) :
    Reaches m (finish spins) v (.ok ()) v :=
  leads_bind (reaches_waitFor v Interrupts.done spins hspins h)
    (reaches_write m v hm 32 Offset.fifoPointer 0)

/-- What goes into the FIFO is not seen by the driver again. -/
theorem reaches_pushFifo {ε : Type} (bytes : List UInt8) :
    Reaches m (pushFifo bytes : Driver ε Unit) v (.ok ()) v := by
  induction bytes with
  | nil => exact leads_done _ rfl
  | cons b rest ih => exact leads_bind (reaches_write m v hm 8 Offset.fifoData b.toBitVec) ih

end Waits

section Bursts

variable {m : FlashModel} (v : View) (hrunning : v.running = 1) (spins : Nat)
  (received : List UInt8) (queued : List UInt8)

include hrunning

/-- A burst that is there. -/
theorem reaches_receive_burst (hspins : 0 < spins) (size : Nat) (rest : List Nat)
    (h : min 8 queued.length = size) {outcome : Outcome ReadFailure (List UInt8)}
    {v' : View} (hrest : Reaches m (receive spins ((queued.take size).reverse ++ received) rest)
      { v with queued := queued.drop size } outcome v') :
    Reaches m (receive spins received (size :: rest)) { v with queued := queued } outcome v' := by
  have hle : size ≤ queued.length := h ▸ Nat.min_le_right _ _
  refine leads_bind (leads_mapError_ok
    (reaches_waitFifoLevel { v with queued := queued } size spins hspins hrunning h)) ?_
  exact leads_bind (reaches_popOnto v received size queued hle) hrest

/-- A burst that is not there ends the read, and what was received until then is
    kept. -/
theorem reaches_receive_refused (size : Nat) (rest : List Nat)
    (h : min 8 queued.length ≠ size) :
    Reaches m (receive spins received (size :: rest)) { v with queued := queued }
      (.error ⟨.fifoLevel size spins, received⟩) { v with queued := queued } :=
  leads_bind_error (leads_mapError_error (fun cause => ReadFailure.mk cause received)
    (reaches_waitFifoLevel_refused { v with queued := queued } size spins hrunning h))

/-- Full bursts, as many as are queued. -/
theorem reaches_receive_bursts (hspins : 0 < spins) (count : Nat) (rest : List Nat)
    (h : 8 * count ≤ queued.length) {outcome : Outcome ReadFailure (List UInt8)} {v' : View}
    (hrest : Reaches m
      (receive spins ((queued.take (8 * count)).reverse ++ received) rest)
      { v with queued := queued.drop (8 * count) } outcome v') :
    Reaches m (receive spins received (List.replicate count 8 ++ rest))
      { v with queued := queued } outcome v' := by
  -- Induction on the bursts: what has been received and what is still queued
  -- make up the queue.
  induction count generalizing received queued with
  | zero => exact hrest
  | succ count ih =>
      have hsize : 8 * (count + 1) = 8 + 8 * count := by
        rw [Nat.mul_succ, Nat.add_comm]
      rw [hsize] at h hrest
      have hfull : min 8 queued.length = 8 := Nat.min_eq_left (Nat.le_of_add_right_le h)
      refine reaches_receive_burst v hrunning spins received queued hspins 8 _ hfull ?_
      refine ih _ _ ?_ ?_
      · rw [List.length_drop]
        omega
      · rw [← List.append_assoc, ← List.reverse_append, ← List.take_add, List.drop_drop]
        exact hrest

/-- All bursts come, and they are the beginning of the queue. -/
theorem reaches_receive_complete (hspins : 0 < spins) (size : Nat) (h : Complete size queued) :
    Reaches m (receive spins [] (burstSizes size)) { v with queued := queued }
      (.ok (queued.take size).reverse) { v with queued := queued.drop size } := by
  have hsize : 8 * (size / 8) + size % 8 = size := Nat.div_add_mod size 8
  rcases h with ⟨hwhole, hle⟩ | ⟨hpart, hlength⟩
  · rw [hwhole, Nat.add_zero] at hsize
    rw [burstSizes_eq, if_pos hwhole]
    refine reaches_receive_bursts v hrunning spins [] queued hspins _ [] (by omega) ?_
    rw [hsize, List.append_nil]
    exact leads_done _ rfl
  · rw [burstSizes_eq, if_neg hpart]
    refine reaches_receive_bursts v hrunning spins [] queued hspins _ _ (by omega) ?_
    -- What is left of the queue is the last burst.
    have hlast : min 8 (queued.drop (8 * (size / 8))).length = size % 8 := by
      have hlt : size % 8 < 8 := Nat.mod_lt size (by decide)
      rw [List.length_drop]
      omega
    refine reaches_receive_burst v hrunning spins _ _ hspins _ [] hlast ?_
    rw [← List.append_assoc, ← List.reverse_append, ← List.take_add, List.drop_drop, hsize,
      List.append_nil]
    exact leads_done _ rfl

/-- A burst is missing, and the full ones before it have been received. -/
theorem reaches_receive_starved (hspins : 0 < spins) (size : Nat) (h : ¬Complete size queued) :
    Reaches m (receive spins [] (burstSizes size)) { v with queued := queued }
      (.error ⟨.fifoLevel (missed size queued) spins,
        (queued.take (consumed size queued)).reverse⟩)
      { v with queued := queued.drop (consumed size queued) } := by
  have hsize : 8 * (size / 8) + size % 8 = size := Nat.div_add_mod size 8
  have hlength : 8 * (queued.length / 8) + queued.length % 8 = queued.length :=
    Nat.div_add_mod _ 8
  have hlt : queued.length % 8 < 8 := Nat.mod_lt _ (by decide)
  unfold missed
  by_cases hshort : queued.length < 8 * (size / 8)
  · -- Too few bytes for the full bursts: one of those is missing.
    have hfew : queued.length / 8 < size / 8 := Nat.div_lt_of_lt_mul hshort
    have hconsumed : consumed size queued = 8 * (queued.length / 8) := by
      rw [consumed, Nat.min_eq_right (Nat.le_of_lt hfew)]
    rcases Nat.exists_eq_add_of_lt hfew with ⟨more, hmore⟩
    rw [if_pos hshort, hconsumed, burstSizes_eq, hmore, Nat.add_assoc,
      ← List.replicate_append_replicate, List.append_assoc]
    refine reaches_receive_bursts v hrunning spins [] queued hspins _ _ (by omega) ?_
    rw [List.append_nil]
    refine reaches_receive_refused v hrunning spins _ _ _ _ ?_
    rw [List.length_drop]
    omega
  · -- The full bursts come, and the last one is not what is left of the queue.
    have henough : size / 8 ≤ queued.length / 8 :=
      (Nat.le_div_iff_mul_le (by decide)).mpr (by rw [Nat.mul_comm]; omega)
    have hconsumed : consumed size queued = 8 * (size / 8) := by
      rw [consumed, Nat.min_eq_left henough]
    have hpart : size % 8 ≠ 0 := fun hwhole => h (Or.inl ⟨hwhole, by omega⟩)
    have hother : queued.length ≠ size := fun heq => h (Or.inr ⟨hpart, heq⟩)
    rw [if_neg hshort, hconsumed, burstSizes_eq, if_neg hpart]
    refine reaches_receive_bursts v hrunning spins [] queued hspins _ _ (by omega) ?_
    rw [List.append_nil]
    refine reaches_receive_refused v hrunning spins _ _ _ _ ?_
    have hmod : size % 8 < 8 := Nat.mod_lt size (by decide)
    rw [List.length_drop]
    omega

end Bursts

section Start

/-- The view once a read has been started: it receives, and it is done. -/
def View.receiving (v : View) (template : BitVec 32) : View where
  transfer := (startWord template (v.transfer.setWidth 32)).setWidth 64
  status := 5
  queued := v.queued
  running := 1

-- Its status shows bytes to read and the end of the transfer.
theorem receiving_intersects (v : View) (template mask : BitVec 32)
    (h : mask = Interrupts.readable ∨ mask = Interrupts.done) :
    Interrupts.intersects ((v.receiving template).status.setWidth 32) mask = true := by
  rcases h with rfl | rfl
  · change Interrupts.intersects ((5 : BitVec 64).setWidth 32) Interrupts.readable = true
    decide
  · change Interrupts.intersects ((5 : BitVec 64).setWidth 32) Interrupts.done = true
    decide

-- A word keeps its bits when it is extended.
theorem getLsbD_extend (word : BitVec 32) (i : Nat) (h : i < 32) :
    (word.setWidth 64).getLsbD i = word.getLsbD i := by
  rw [BitVec.getLsbD_setWidth, decide_eq_true (Nat.lt_trans h (by decide)), Bool.true_and]

/-- What a read is started with starts a transfer. -/
theorem isSet_go_startWord (template current : BitVec 32) :
    Transfer.go.isSet ((startWord template current).setWidth 64) = true := by
  rw [Transfer.go, Register.isSet_flag, getLsbD_extend _ 15 (by decide), getLsbD_startWord]

/-- It starts one that receives, whatever the register held. -/
theorem mode_startWord (count : Nat) (template current : BitVec 32)
    (h : Transfer.flashRead count = .ok template) :
    Transfer.mode.get ((startWord template current).setWidth 64) = 1 := by
  have hreceive : ∀ n < 5, (Transfer.flashRead n).toOption.all
      fun preset => Transfer.mode.get (preset ||| 0x8000) == 1 := by decide
  have hmode := hreceive count (Nat.lt_succ_of_le (count_le_of_flash h))
  rw [h] at hmode
  rw [← beq_iff_eq.mp hmode]
  refine Register.Field.get_congr _ _ _ fun i hi => ?_
  have hi' : i < 2 := hi
  change ((startWord template current).setWidth 64).getLsbD (0 + i) = _
  rw [Nat.zero_add, getLsbD_extend _ i (by omega), startWord_eq,
    getLsbD_of_decided template current i (Or.inl (by omega))]
  exact congrArg _ (Nat.zero_add i).symm

variable {m : FlashModel} (hm : m.stuck = false) (v : View)

include hm

theorem reaches_go (count : Nat) (template : BitVec 32)
    (h : Transfer.flashRead count = .ok template) :
    Reaches m (go (Transfer.cleared (v.transfer.setWidth 32) ||| template) : Driver Error Unit) v
      (.ok ()) (v.receiving template) := by
  have hview : (v.after Offset.interruptStatus 0).after Offset.transfer
      ((startWord template (v.transfer.setWidth 32)).setWidth 64) = v.receiving template := by
    rw [View.after, if_pos rfl, if_pos (isSet_go_startWord _ _), mode_startWord count _ _ h]
    rfl
  rw [← hview]
  exact leads_bind (reaches_write m v hm 32 Offset.interruptStatus 0)
    (reaches_write m _ hm 32 Offset.transfer (startWord template (v.transfer.setWidth 32)))

/-- A read is started, and its first bytes are there at once. -/
theorem reaches_startRead (opcode : UInt8) (address : UInt32) (count total spins : Nat)
    (hcount : count ≤ 4) (htotal : total < UInt32.size) (hspins : 0 < spins) :
    ∃ template, Reaches m (startRead opcode address count total spins) v (.ok ())
      (v.receiving template) := by
  have hpreset : ∃ template, Transfer.flashRead count = .ok template := exists_flash hcount _
  rcases hpreset with ⟨template, htemplate⟩
  refine ⟨template, ?_⟩
  have hlength : Reaches m (setTransferLength total) v (.ok ()) v := by
    rw [setTransferLength, if_neg (Nat.not_le_of_lt htotal)]
    exact reaches_write m v hm 32 Offset.transferLength _
  unfold startRead
  rw [htemplate]
  change Reaches m ((command template opcode address count).bind _) _ _ _
  rw [command_bind]
  refine leads_bind (leads_bind (reaches_transfer m v)
    (leads_bind (reaches_write m v hm 32 Offset.fifoPointer 0) (leads_done _ rfl))) ?_
  refine leads_bind (reaches_write m v hm 8 Offset.fifoData opcode.toBitVec) ?_
  refine leads_bind (reaches_pushFifo hm v _) ?_
  refine leads_bind hlength ?_
  refine leads_bind (reaches_go hm v count template htemplate) ?_
  have hreadable : Interrupts.intersects ((v.receiving template).status.setWidth 32)
      Interrupts.readable = true := receiving_intersects v template _ (Or.inl rfl)
  exact leads_bind (reaches_waitFor (v.receiving template) _ spins hspins hreadable)
    (leads_done _ rfl)

/-- A read that gets all its bursts delivers the beginning of the queue. -/
theorem reaches_readFlash_complete (opcode : UInt8) (address : UInt32) (count length spins : Nat)
    (hcount : count ≤ 4) (hlength : length < UInt32.size) (hspins : 0 < spins)
    (h : Complete (max 8 length) v.queued) :
    ∃ template, Reaches m (readFlash opcode address count length spins) v
      (.ok (v.queued.take length))
      { v.receiving template with queued := v.queued.drop (max 8 length) } := by
  rcases reaches_startRead hm v opcode address count (max 8 length) spins hcount
    (Nat.max_lt.mpr ⟨by decide, hlength⟩) hspins with ⟨template, hstart⟩
  have hkept : kept length (v.queued.take (max 8 length)).reverse = v.queued.take length := by
    rw [kept, List.reverse_reverse, List.take_take, Nat.min_eq_left (Nat.le_max_right _ _)]
  refine ⟨template, leads_bind (leads_mapError_ok hstart) ?_⟩
  refine leads_bind (leads_mapError_ok (reaches_receive_complete (v.receiving template) rfl spins
    v.queued hspins _ h)) ?_
  refine leads_bind (leads_mapError_ok (reaches_finish hm _ spins hspins
    (receiving_intersects v template _ (Or.inr rfl)))) ?_
  refine leads_bind (reaches_log m _ _ _) ?_
  rw [← hkept]
  exact leads_done _ rfl

/-- A read that misses a burst reports it, with the bytes it had received. -/
theorem reaches_readFlash_starved (opcode : UInt8) (address : UInt32) (count length spins : Nat)
    (hcount : count ≤ 4) (hlength : length < UInt32.size) (hspins : 0 < spins)
    (h : ¬Complete (max 8 length) v.queued) :
    ∃ template, Reaches m (readFlash opcode address count length spins) v
      (.error ⟨.fifoLevel (missed (max 8 length) v.queued) spins,
        (v.queued.take (consumed (max 8 length) v.queued)).take length⟩)
      { v.receiving template with
        queued := v.queued.drop (consumed (max 8 length) v.queued) } := by
  rcases reaches_startRead hm v opcode address count (max 8 length) spins hcount
    (Nat.max_lt.mpr ⟨by decide, hlength⟩) hspins with ⟨template, hstart⟩
  refine ⟨template, leads_bind (leads_mapError_ok hstart) ?_⟩
  have hreceive := leads_mapError_error
    (fun failure => ReadFailure.mk failure.cause (kept length failure.received))
    (reaches_receive_starved (m := m) (v.receiving template) rfl spins v.queued hspins _ h)
  rw [kept, List.reverse_reverse] at hreceive
  exact leads_bind_error hreceive

end Start

/-- A simulated device that finishes its transfers and has no answers laid
    out. -/
structure Serving (d : Simulated) (m : FlashModel) : Prop where
  reaction : d.reaction = .flash m
  finishes : m.stuck = false
  unscripted : ∀ offset, d.scripts.getD offset [] = []

/-- A buffer after a read: what was delivered, or what was received before the
    read failed, has been written to its beginning. -/
def written (out : List UInt8) : Outcome ReadFailure (List UInt8) → List UInt8
  | .ok bytes => Bytes.overlay bytes out
  | .error failure => Bytes.overlay failure.received out
  | .fault => out

/-- The buffer holds the beginning of the queue, and the queue has lost as many
    bytes as were moved. -/
structure Delivers (m : FlashModel) (size : Nat) (out : List UInt8)
    (run : Outcome ReadFailure (List UInt8) × Simulated) : Prop where
  delivered : run.1 = .ok (m.queued.take out.length)
  stored : written out run.1 = m.queued.take out.length
  left : run.2.reaction = .flash { m with queued := m.queued.drop size, running := 1 }

/-- The missing burst is reported, the full bursts before it have left the
    queue, and what fits of them is in the buffer. -/
structure Starves (m : FlashModel) (size spins : Nat) (out : List UInt8)
    (run : Outcome ReadFailure (List UInt8) × Simulated) : Prop where
  reported : ∃ received, run.1 = .error ⟨.fifoLevel (missed size m.queued) spins, received⟩
  stored : written out run.1 = Bytes.overlay (m.queued.take (consumed size m.queued)) out
  left : run.2.reaction =
    .flash { m with queued := m.queued.drop (consumed size m.queued), running := 1 }

/-- What comes of a read: it goes well with the queues that have all its bursts
    and with no others, and either way it is known what the buffer and the queue
    hold afterwards. -/
structure Reads (m : FlashModel) (size spins : Nat) (out : List UInt8)
    (run : Outcome ReadFailure (List UInt8) × Simulated) : Prop where
  ok_iff : run.1.isOk = true ↔ Complete size m.queued
  delivers : Complete size m.queued → Delivers m size out run
  starves : ¬Complete size m.queued → Starves m size spins out run

/-- What a device shows before a call. -/
def View.of (d : Simulated) (m : FlashModel) : View :=
  ⟨d.registers.peek Offset.transfer, d.registers.peek Offset.interruptStatus, m.queued, m.running⟩

theorem shows_start (d : Simulated) (m : FlashModel) (h : Serving d m) :
    Shows m d (View.of d m) :=
  ⟨h.reaction, h.unscripted, rfl, rfl⟩

/-- What comes of a read of flash, for every queue, every buffer and every state
    of the registers. -/
theorem readFlash_outcome (d : Simulated) (m : FlashModel) (hd : Serving d m) (opcode : UInt8)
    (address : UInt32) (count spins : Nat) (out : List UInt8) (hcount : count ≤ 4)
    (hspins : 0 < spins) (hout : out.length ≤ 0xFFFFFFFF) :
    Reads m (max 8 out.length) spins out
      ((readFlash opcode address count out.length spins).run Device.simulated.machine d) := by
  have hlength : out.length < UInt32.size := Nat.lt_succ_of_le hout
  have hshows := shows_start d m hd
  by_cases h : Complete (max 8 out.length) m.queued
  · rcases reaches_readFlash_complete hd.finishes (View.of d m) opcode address count
      out.length spins hcount hlength hspins h with ⟨template, hreaches⟩
    rcases hreaches d hshows with ⟨t, hrun, ht⟩
    have hlen : (m.queued.take out.length).length = out.length :=
      List.length_take_of_le (length_le_of_complete h)
    rw [hrun]
    exact ⟨⟨fun _ => h, fun _ => rfl⟩,
      fun _ => ⟨rfl, Bytes.overlay_of_length_eq _ _ hlen, ht.reaction⟩, fun hnot => absurd h hnot⟩
  · rcases reaches_readFlash_starved hd.finishes (View.of d m) opcode address count
      out.length spins hcount hlength hspins h with ⟨template, hreaches⟩
    rcases hreaches d hshows with ⟨t, hrun, ht⟩
    rw [hrun]
    exact ⟨⟨fun hok => absurd hok Bool.false_ne_true, fun hyes => absurd hyes h⟩,
      fun hyes => absurd hyes h, fun _ => ⟨⟨_, rfl⟩, Bytes.overlay_take _ _, ht.reaction⟩⟩

/-- A device with eleven bytes queued. -/
def eleven : Simulated :=
  ⟨.empty, ∅, .flash ⟨[0, 1, 2, 3, 4, 5, 6, 7, 8, 9, 10], 0, false, 0⟩⟩

theorem readFlash_outcome_eleven :
    Serving eleven ⟨[0, 1, 2, 3, 4, 5, 6, 7, 8, 9, 10], 0, false, 0⟩ ∧
      Delivers ⟨[0, 1, 2, 3, 4, 5, 6, 7, 8, 9, 10], 0, false, 0⟩ 11 (List.replicate 11 0xEE)
        ((readFlash 0x03 0x123456 3 11 10).run Device.simulated.machine eleven) ∧
      Starves ⟨[0, 1, 2, 3, 4, 5, 6, 7, 8, 9, 10], 0, false, 0⟩ 10 10 (List.replicate 10 0xEE)
        ((readFlash 0x03 0x123456 3 10 10).run Device.simulated.machine eleven) := by
  have hserving : Serving eleven ⟨[0, 1, 2, 3, 4, 5, 6, 7, 8, 9, 10], 0, false, 0⟩ :=
    ⟨rfl, rfl, fun _ => rfl⟩
  have hread := fun (out : List UInt8) => readFlash_outcome eleven _ hserving 0x03 0x123456 3 10 out
    (by decide) (by decide)
  exact ⟨hserving, (hread (List.replicate 11 0xEE) (by decide)).delivers (by decide),
    (hread (List.replicate 10 0xEE) (by decide)).starves (by decide)⟩

end Flash

end BoardSupport
