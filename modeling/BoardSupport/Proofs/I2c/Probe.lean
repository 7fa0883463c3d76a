import BoardSupport.Proofs.I2c.View

/-!
# Probing the Controller

Where each part of bringing up a controller leads, on a simulated device that
works.

Every part is a straight line of reads and writes, so it is followed operation
by operation, and the view it leads to is read off at the end. Two of them are
more. Clearing the FIFO waits, but the device is done at once, so the first
question of the wait is accepted. Filling the FIFO is a loop, and its invariant
is that as many bytes have been counted as the FIFO holds while nothing is
pending: with it, the byte that overflows is the one after the depth.

Nothing that is in the FIFO or pending beforehand matters, because the probe
acknowledges and clears before it counts.

## Main definitions

* `I2c.View.afterReset`: The view after a reset.
* `I2c.raised`, `I2c.View.afterByte`: What one byte of a probe does.
* `I2c.View.primed`: The view from which the FIFO is filled.

## Theorems

* `I2c.Controller.reaches_clearFifo`, `I2c.Controller.reaches_reset`: Clearing
  the FIFO and resetting succeed.
* `I2c.Controller.reaches_fillFifo_found`,
  `I2c.Controller.reaches_fillFifo_missing`,
  `I2c.Controller.reaches_fillFifo_noisy`: The three ways of filling the FIFO.
* `I2c.Controller.reaches_probeFifo`: A probe starts from an empty FIFO.
* `I2c.Controller.reaches_probeMaxTransfer`: The bits that stay are found.
-/

namespace BoardSupport

namespace I2c

open Device (I2cModel)
open Program (leads_done leads_bind leads_poll)

-- A set inside another adds nothing to it.
theorem or_eq_of_and_not_eq_zero {bits : Nat} (a b : BitVec bits) (h : a &&& ~~~b = 0) :
    a ||| b = b := by
  refine BitVec.eq_of_getLsbD_eq fun i hi => ?_
  have hbit := congrArg (fun x => BitVec.getLsbD x i) h
  simp only [BitVec.getLsbD_and, BitVec.getLsbD_not, hi, decide_true, Bool.true_and] at hbit
  rw [BitVec.getLsbD_or]
  cases ha : a.getLsbD i with
  | false => rw [Bool.false_or]
  | true =>
      rw [ha, Bool.true_and] at hbit
      simp at hbit
      rw [hbit]
      rfl

/-- The view after a reset. -/
def View.afterReset (v : View) : View :=
  { v with control := Controller.masterMode, pending := 0, masked := allInterrupts, fill := 0 }

/-- The interrupts pending after a byte has been written, if none were
    before. -/
def raised (m : I2cModel) (v : View) : BitVec 16 :=
  if v.fill = m.fifoDepth then Interrupts.txOvf.put 1 m.noise else m.noise

/-- A byte is written and what it raises is acknowledged. -/
def View.afterByte (m : I2cModel) (v : View) : View :=
  { v with
    pending := 0
    fill := if v.fill = m.fifoDepth then v.fill else v.fill + 1
    dataWrites := v.dataWrites + 1 }

/-- The view from which the FIFO is filled: transmitting, with an empty FIFO
    and nothing pending. -/
def View.primed (v : View) : View :=
  { v with
    control := Control.clrfifo.put 0 (Control.rw.put 0 v.control)
    pending := 0
    fill := 0 }

namespace Controller

variable {m : I2cModel} (hm : Works m) (c : Controller) (v : View)

include hm

theorem reaches_acknowledge {ε : Type} :
    Reaches m (acknowledge : Driver ε (BitVec 16)) v (.ok v.pending) { v with pending := 0 } := by
  refine leads_bind (reaches_read m v Offset.interruptStatus v.pending rfl) ?_
  refine leads_bind (reaches_write m v hm Offset.interruptStatus v.pending) ?_
  exact leads_done _ rfl

theorem reaches_clearFifo (hspin : 0 < c.spinLimit) :
    Reaches m c.clearFifo v (.ok ())
      { v with control := Control.clrfifo.put 0 v.control, fill := 0 } := by
  -- The request is over before the first question, so that is answered with the
  -- request dropped.
  have hset : Control.clrfifo.isSet (Control.clrfifo.put 1 v.control) = true :=
    Register.isSet_put_flag "clrfifo" 6 1 v.control (by decide)
  have hdropped : Control.clrfifo.isSet (Control.clrfifo.put 0 v.control) = false :=
    Register.isSet_put_flag "clrfifo" 6 0 v.control (by decide)
  have hafter : v.after m Offset.control (Control.clrfifo.put 1 v.control) =
      { v with control := Control.clrfifo.put 0 v.control, fill := 0 } := by
    simp only [View.after, if_true, hset, Register.Field.put_put]
  have hwrite := reaches_write (ε := Error) m v hm Offset.control (Control.clrfifo.put 1 v.control)
  rw [hafter] at hwrite
  refine leads_bind (reaches_read m v Offset.control v.control rfl) ?_
  refine leads_bind hwrite ?_
  refine leads_bind (leads_poll hspin (reaches_read m _ Offset.control _ rfl) ?_) ?_
  · simp only [hdropped, Bool.not_false]
  · exact leads_done _ rfl

theorem reaches_reset (hspin : 0 < c.spinLimit) (hinside : v.masked &&& ~~~allInterrupts = 0) :
    Reaches m c.reset v (.ok ()) (View.afterReset v) := by
  -- Enabling nothing and disabling everything masks exactly the sources there
  -- are, if no other was masked before.
  have hmasked : (v.masked &&& ~~~0) ||| allInterrupts = allInterrupts := by
    have hones : (~~~0 : BitVec 16) = BitVec.allOnes 16 := by decide
    rw [hones, BitVec.and_allOnes]
    exact or_eq_of_and_not_eq_zero _ _ hinside
  have hcontrol : Control.clrfifo.put 0 (Control.clrfifo.put 0 masterMode) = masterMode := by
    decide
  refine leads_bind (reaches_write m v hm Offset.control masterMode) ?_
  refine leads_bind (reaches_clearFifo hm c _ hspin) ?_
  refine leads_bind (reaches_write m _ hm Offset.timeout defaultTimeout) ?_
  refine leads_bind (reaches_write m _ hm Offset.interruptEnable 0) ?_
  refine leads_bind (reaches_write m _ hm Offset.interruptDisable allInterrupts) ?_
  refine leads_bind (reaches_read m _ Offset.interruptMask allInterrupts ?_) ?_
  · exact congrArg some hmasked
  · rw [if_pos rfl]
    refine leads_bind (reaches_acknowledge hm _) ?_
    exact leads_done _ (View.ext hcontrol rfl hmasked rfl rfl rfl)

-- One byte of a probe, up to what is made of the interrupts it raised.
theorem reaches_byte {outcome : Outcome Error Nat} {v' : View} (hpending : v.pending = 0)
    (f : BitVec 16 → Driver Error Nat)
    (hf : Reaches m (f (raised m v)) (View.afterByte m v) outcome v') :
    Reaches m ((Bus.write 16 Offset.data 0).bind fun _ => acknowledge.bind f) v outcome v' := by
  -- Nothing was pending, so what is acknowledged is what this byte raised.
  have hraised : (v.after m Offset.data 0).pending = raised m v := by
    have hzero : (0 : BitVec 16) ||| m.noise = m.noise := BitVec.zero_or
    rw [View.after_data, hpending, hzero, raised]
    by_cases hfull : v.fill = m.fifoDepth
    · rw [if_pos hfull, if_pos hfull]
    · rw [if_neg hfull, if_neg hfull]
  have hview : { v.after m Offset.data 0 with pending := 0 } = View.afterByte m v := by
    rw [View.after_data, View.afterByte]
    by_cases hfull : v.fill = m.fifoDepth
    · rw [if_pos hfull, if_pos hfull]
    · rw [if_neg hfull, if_neg hfull]
  have hack := reaches_acknowledge (ε := Error) hm (v.after m Offset.data 0)
  rw [hraised, hview] at hack
  refine leads_bind (reaches_write m v hm Offset.data 0) ?_
  exact leads_bind hack hf

-- A byte that the FIFO takes, without noise: the probe goes on.
theorem reaches_fillFifo_taken {outcome : Outcome Error Nat} {v' : View} (hquiet : m.noise = 0)
    (hpending : v.pending = 0) (hroom : v.fill ≠ m.fifoDepth) (accepted tries : Nat)
    (hrest : Reaches m (c.fillFifo (accepted + 1) tries)
      { v with fill := v.fill + 1, dataWrites := v.dataWrites + 1 } outcome v') :
    Reaches m (c.fillFifo accepted (tries + 1)) v outcome v' := by
  have hraised : raised m v = 0 := by rw [raised, if_neg hroom, hquiet]
  have hview : View.afterByte m v =
      { v with fill := v.fill + 1, dataWrites := v.dataWrites + 1 } := by
    rw [View.afterByte, if_neg hroom, hpending]
  refine reaches_byte hm v hpending _ ?_
  rw [hraised, hview]
  exact hrest

/-- Without noise the probe finds the depth, with one byte more than the FIFO
    still takes, if it has that many tries. -/
theorem reaches_fillFifo_found (hquiet : m.noise = 0) (tries accepted : Nat)
    (hpending : v.pending = 0) (hfill : v.fill = accepted) (hle : accepted ≤ m.fifoDepth)
    (hlt : m.fifoDepth < accepted + tries) :
    Reaches m (c.fillFifo accepted tries) v (.ok m.fifoDepth)
      { v with
        fill := m.fifoDepth
        dataWrites := v.dataWrites + (m.fifoDepth - accepted) + 1 } := by
  -- Induction on the tries: the count is the fill, nothing is pending, and there
  -- are more tries than bytes that fit.
  induction tries generalizing accepted v with
  | zero => omega
  | succ tries ih =>
      by_cases hfull : accepted = m.fifoDepth
      · -- The FIFO is full, and this byte is the one that overflows.
        have hraised : raised m v = Interrupts.txOvf.put 1 0 := by
          rw [raised, if_pos (hfill.trans hfull), hquiet]
        have hview : View.afterByte m v =
            { v with
              fill := m.fifoDepth
              dataWrites := v.dataWrites + (m.fifoDepth - accepted) + 1 } := by
          rw [View.afterByte, if_pos (hfill.trans hfull), hpending, hfill, hfull, Nat.sub_self,
            Nat.add_zero]
        refine reaches_byte hm v hpending _ ?_
        rw [hraised, hview, ← hfull]
        exact leads_done _ rfl
      · -- There is room, and the count and the fill go up together.
        have hrest := ih { v with fill := v.fill + 1, dataWrites := v.dataWrites + 1 }
          (accepted + 1) hpending (congrArg (· + 1) hfill) (by omega) (by omega)
        refine reaches_fillFifo_taken hm c v hquiet hpending (by omega) accepted tries ?_
        have hcount : v.dataWrites + 1 + (m.fifoDepth - (accepted + 1)) =
            v.dataWrites + (m.fifoDepth - accepted) := by omega
        rw [hcount] at hrest
        exact hrest

/-- Without noise the probe gives up on a FIFO that takes a byte at every
    try. -/
theorem reaches_fillFifo_missing (hquiet : m.noise = 0) (tries accepted : Nat)
    (hpending : v.pending = 0) (hfill : v.fill = accepted)
    (hle : accepted + tries ≤ m.fifoDepth) :
    Reaches m (c.fillFifo accepted tries) v (.error (.fifoProbe (accepted + tries)))
      { v with fill := v.fill + tries, dataWrites := v.dataWrites + tries } := by
  -- The same invariant, but the tries are used up while there still is room.
  induction tries generalizing accepted v with
  | zero => exact leads_done _ rfl
  | succ tries ih =>
      have hrest := ih { v with fill := v.fill + 1, dataWrites := v.dataWrites + 1 }
        (accepted + 1) hpending (congrArg (· + 1) hfill) (by omega)
      refine reaches_fillFifo_taken hm c v hquiet hpending (by omega) accepted tries ?_
      have hcount : ∀ n, n + 1 + tries = n + (tries + 1) := by
        intro n
        omega
      simp only [hcount] at hrest
      exact hrest

/-- With noise beside the overflow, the probe stops at the first byte and
    reports what it raised. -/
theorem reaches_fillFifo_noisy (hnoise : Interrupts.withoutOverflow m.noise ≠ 0)
    (tries accepted : Nat) (hpending : v.pending = 0) :
    Reaches m (c.fillFifo accepted (tries + 1)) v (.error (.unexpectedInterrupt (raised m v)))
      (View.afterByte m v) := by
  -- Whether the byte fits decides about the overflow only, which is set aside.
  have hraised : Interrupts.withoutOverflow (raised m v) = Interrupts.withoutOverflow m.noise := by
    unfold raised Interrupts.withoutOverflow
    by_cases hfull : v.fill = m.fifoDepth
    · rw [if_pos hfull, Register.Field.put_put]
    · rw [if_neg hfull]
  have hsome : (!Interrupts.isEmpty (Interrupts.withoutOverflow (raised m v))) = true := by
    rw [hraised, Interrupts.isEmpty, beq_eq_false_iff_ne.mpr hnoise]
    rfl
  refine reaches_byte hm v hpending _ ?_
  rw [if_pos hsome]
  refine leads_bind (reaches_log m _ _ _) ?_
  exact leads_done _ rfl

/-- Whatever is in the FIFO or pending beforehand, the probe starts from an
    empty one. -/
theorem reaches_probeFifo {outcome : Outcome Error Nat} {v' : View} (hspin : 0 < c.spinLimit)
    (h : Reaches m (c.fillFifo 0 (maxFifoProbe + 1)) (View.primed v) outcome v') :
    Reaches m c.probeFifo v outcome v' := by
  refine leads_bind (reaches_read m v Offset.control v.control rfl) ?_
  refine leads_bind (reaches_write m v hm Offset.control (Control.rw.put 0 v.control)) ?_
  refine leads_bind (reaches_acknowledge hm _) ?_
  refine leads_bind (reaches_clearFifo hm c _ hspin) ?_
  -- Dropping the request to clear twice is dropping it once.
  change Reaches m (c.fillFifo 0 (maxFifoProbe + 1))
    { v with
      control := Control.clrfifo.put 0 (Control.clrfifo.put 0 (Control.rw.put 0 v.control))
      pending := 0
      fill := 0 } outcome v'
  rw [Register.Field.put_put]
  exact h

/-- The bits that stay are those the transfer counter has. -/
theorem reaches_probeMaxTransfer (hspin : 0 < c.spinLimit) :
    Reaches m c.probeMaxTransfer v (.ok m.transferMask.toNat)
      { v with
        control := Control.clrfifo.put 0 (Control.rw.put 1 (Control.hold.put 0 v.control))
        pending := 0
        transferSize := m.transferMask
        fill := 0 } := by
  have hstay : (0xFFFF : BitVec 16) &&& m.transferMask = m.transferMask :=
    BitVec.allOnes_and
  refine leads_bind (reaches_read m v Offset.control v.control rfl) ?_
  refine leads_bind (reaches_write m v hm Offset.control _) ?_
  refine leads_bind (reaches_write m _ hm Offset.transferSize 0) ?_
  refine leads_bind (reaches_acknowledge hm _) ?_
  refine leads_bind (reaches_clearFifo hm c _ hspin) ?_
  refine leads_bind (reaches_write m _ hm Offset.transferSize 0xFFFF) ?_
  refine leads_bind (reaches_read m _ Offset.transferSize m.transferMask ?_) ?_
  · exact congrArg some hstay
  · exact leads_done _ (View.ext (Register.Field.put_put _ _ _ _) rfl rfl hstay rfl rfl)

end Controller

end I2c

end BoardSupport
