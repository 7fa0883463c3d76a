import BoardSupport.Proofs.I2c.Probe

/-!
# Starting the Controller

What starting a controller finds on a simulated device that works, for every
depth of its FIFO and every width of its transfer counter.

There are four ways it can go. The FIFO overflows within the probe and the
counter is wide enough, or it is not; the FIFO does not overflow within the
probe; or an interrupt comes up that has nothing to do with the FIFO. Each is
a chain of the parts, from the view of the device at the start, whatever that
is.

## Main definitions

* `I2c.View.measured`: The view after both experiments.
* `I2c.Startable`: A controller and a device that can be started.
* `I2c.Started`, `I2c.Fails`: How starting ends.

## Theorems

* `I2c.usable_clock`: The input clocks that are not refused.
* `I2c.Controller.masterMode_eq`, `I2c.Interrupts.withoutOverflow_eq`,
  `I2c.Interrupts.put_txOvf`: The words that the driver makes out of flags.
* `I2c.Controller.reaches_start_found`, `I2c.Controller.reaches_start_narrow`:
  Starting with a depth that was found.
* `I2c.Controller.reaches_start_unprobed`: Starting without one.
* `I2c.Controller.start_finds_depth`: What starting reports, and what it leaves.
-/

namespace BoardSupport

namespace I2c

open Device (I2cModel)
open Program (leads_done leads_bind leads_bind_error leads_mapError_ok leads_mapError_error
  leads_onError_ok leads_onError_error)

/-- Master mode is the two bits for the bus role and for acknowledging. -/
theorem Controller.masterMode_eq : masterMode = 0x000A := by
  decide

/-- All sets of interrupts but the empty one and the overflow alone have others
    in them. -/
theorem Interrupts.withoutOverflow_eq (set : BitVec 16) :
    withoutOverflow set = set &&& ~~~0x0040 :=
  BitVec.or_zero

/-- The overflow comes on top of what is in the set. -/
theorem Interrupts.put_txOvf (set : BitVec 16) : txOvf.put 1 set = set ||| 0x0040 := by
  change (set &&& ~~~0x0040) ||| 0x0040 = set ||| 0x0040
  refine BitVec.eq_of_getLsbD_eq fun i hi => ?_
  simp only [BitVec.getLsbD_or, BitVec.getLsbD_and, BitVec.getLsbD_not, hi, decide_true,
    Bool.true_and]
  cases set.getLsbD i with
  | false => simp
  | true => simp

/-- An input clock that the slowest divisors do not divide down to nothing. -/
theorem usable_clock (clock : UInt32) (h : 5632 ≤ clock.toNat) :
    ¬ (clock = 0 ∨ Divisors.slowest.clock clock = 0) := by
  have hratio : Divisors.slowest.ratio = 5632 := by decide
  rintro (hzero | hslow)
  · rw [hzero] at h
    exact absurd h (by decide)
  · rw [Divisors.clock, hratio] at hslow
    omega

/-- The view after both experiments: receiving, with the bits that stayed in the
    transfer size register. -/
def View.measured (m : I2cModel) (v : View) : View :=
  { View.afterReset v with
    control := Control.clrfifo.put 0 (Control.rw.put 1 (Control.hold.put 0
      (View.primed (View.afterReset v)).control))
    transferSize := m.transferMask
    dataWrites := v.dataWrites + m.fifoDepth + 1 }

namespace Controller

variable {m : I2cModel} (hm : Works m) (c : Controller) (v : View)

include hm

/-- Without noise and with a FIFO that overflows in time, both experiments are
    carried out, and what is left is to compare their results. -/
theorem reaches_start_measured {outcome : Outcome Failure Controller} {v' : View}
    (hclock : 5632 ≤ c.install.inputClock.toNat) (hspin : 0 < c.spinLimit)
    (hinside : v.masked &&& ~~~allInterrupts = 0) (hquiet : m.noise = 0)
    (hdepth : m.fifoDepth ≤ maxFifoProbe)
    (h : ∀ message, Reaches m
      (if m.transferMask.toNat < m.fifoDepth + 1 then
        (c.say .error message).bind fun _ =>
          Program.fail ⟨.transferSizeTooSmall m.transferMask.toNat m.fifoDepth,
            { c with fifoSize := m.fifoDepth }⟩
      else
        (c.reset.mapError fun cause => ⟨cause, { c with fifoSize := m.fifoDepth }⟩).bind
          fun _ => pure { c with fifoSize := m.fifoDepth })
      (View.measured m v) outcome v') :
    Reaches m c.start v outcome v' := by
  -- The probe finds the depth because it tries once more than the deepest FIFO
  -- it looks for.
  have hfound := reaches_fillFifo_found hm c (View.primed (View.afterReset v)) hquiet
    (maxFifoProbe + 1) 0 rfl rfl (Nat.zero_le _) (by omega)
  have hprobe := reaches_probeFifo hm c (View.afterReset v) hspin hfound
  unfold start
  simp only [if_neg (usable_clock _ hclock)]
  refine leads_bind (leads_mapError_ok (reaches_reset hm c v hspin hinside)) ?_
  refine leads_bind (leads_mapError_ok (leads_onError_ok hprobe)) ?_
  refine leads_bind (reaches_log m _ _ _) ?_
  refine leads_bind (leads_mapError_ok (reaches_probeMaxTransfer hm c _ hspin)) ?_
  refine leads_bind (reaches_log m _ _ _) ?_
  exact h _

/-- If the FIFO cannot be filled as expected, starting ends there and leaves the
    depth it had. -/
theorem reaches_start_unprobed (hclock : 5632 ≤ c.install.inputClock.toNat)
    (hspin : 0 < c.spinLimit) (hinside : v.masked &&& ~~~allInterrupts = 0) (cause : Error)
    (v' : View) (hfill : Reaches m (c.fillFifo 0 (maxFifoProbe + 1))
      (View.primed (View.afterReset v)) (.error cause) v') :
    Reaches m c.start v (.error ⟨cause, c⟩) v' := by
  have hprobe := reaches_probeFifo hm c (View.afterReset v) hspin hfill
  unfold start
  simp only [if_neg (usable_clock _ hclock)]
  refine leads_bind (leads_mapError_ok (reaches_reset hm c v hspin hinside)) ?_
  -- The error passes the log on its way out, and nothing after it is done.
  refine leads_bind_error (leads_mapError_error (fun cause => Failure.mk cause c) ?_)
  exact leads_onError_error hprobe (reaches_log m _ _ _)

/-- The transfer counter can count one byte more than the FIFO holds. -/
theorem reaches_start_found (hclock : 5632 ≤ c.install.inputClock.toNat)
    (hspin : 0 < c.spinLimit) (hinside : v.masked &&& ~~~allInterrupts = 0)
    (hquiet : m.noise = 0) (hdepth : m.fifoDepth ≤ maxFifoProbe)
    (hmask : m.fifoDepth + 1 ≤ m.transferMask.toNat) :
    Reaches m c.start v (.ok { c with fifoSize := m.fifoDepth })
      (View.afterReset (View.measured m v)) := by
  -- The last reset finds what the first one masked.
  have hmasked : (View.measured m v).masked &&& ~~~allInterrupts = 0 := by
    change allInterrupts &&& ~~~allInterrupts = 0
    decide
  refine reaches_start_measured hm c v hclock hspin hinside hquiet hdepth fun message => ?_
  rw [if_neg (by omega)]
  refine leads_bind (leads_mapError_ok (reaches_reset hm c _ hspin hmasked)) ?_
  exact leads_done _ rfl

/-- The transfer counter cannot count that far. -/
theorem reaches_start_narrow (hclock : 5632 ≤ c.install.inputClock.toNat)
    (hspin : 0 < c.spinLimit) (hinside : v.masked &&& ~~~allInterrupts = 0)
    (hquiet : m.noise = 0) (hdepth : m.fifoDepth ≤ maxFifoProbe)
    (hmask : m.transferMask.toNat < m.fifoDepth + 1) :
    Reaches m c.start v
      (.error ⟨.transferSizeTooSmall m.transferMask.toNat m.fifoDepth,
        { c with fifoSize := m.fifoDepth }⟩)
      (View.measured m v) := by
  refine reaches_start_measured hm c v hclock hspin hinside hquiet hdepth fun message => ?_
  rw [if_pos hmask]
  refine leads_bind (reaches_log m _ _ _) ?_
  exact leads_done _ rfl

end Controller

/-- A controller that can be started on a device that works: a clock, some
    patience, no answers laid out, and no source masked that does not exist. -/
structure Startable (c : Controller) (d : Device.Simulated) (m : I2cModel) : Prop where
  clock : 5632 ≤ c.install.inputClock.toNat
  patience : 0 < c.spinLimit
  reaction : d.reaction = .i2c m
  works : Works m
  unscripted : ∀ offset, d.scripts.getD offset [] = []
  inside : I2cModel.held d.registers Offset.interruptMask &&& ~~~0x02FF = 0

/-- The controller knows the depth of its FIFO, one byte more than that was
    written, and it is in master mode with everything masked and nothing
    pending. -/
structure Started (c : Controller) (m : I2cModel)
    (run : Outcome Controller.Failure Controller ×
      Machine.Recording Bus.interface Device.Simulated) : Prop where
  found : run.1 = .ok { c with fifoSize := m.fifoDepth }
  dataWrites : run.2.events.countP isDataWrite = m.fifoDepth + 1
  control : I2cModel.held run.2.state.registers Offset.control = 0x000A
  masked : I2cModel.held run.2.state.registers Offset.interruptMask = 0x02FF
  pending : I2cModel.held run.2.state.registers Offset.interruptStatus = 0

/-- Starting ends with a failure after so many bytes have been written. -/
structure Fails (run : Outcome Controller.Failure Controller ×
    Machine.Recording Bus.interface Device.Simulated) (dataWrites : Nat)
    (failure : Controller.Failure) : Prop where
  reported : run.1 = .error failure
  dataWrites : run.2.events.countP isDataWrite = dataWrites

theorem countP_events {m : I2cModel} {r : Machine.Recording Bus.interface Device.Simulated}
    {v : View} (h : Shows m r v) : r.events.countP isDataWrite = v.dataWrites := by
  rw [Machine.Recording.events, List.countP_reverse]
  exact congrArg View.dataWrites h.view

-- At the start nothing has been written.
theorem shows_start (d : Device.Simulated) (m : I2cModel) (hreaction : d.reaction = .i2c m)
    (hunscripted : ∀ offset, d.scripts.getD offset [] = []) :
    Shows m (.start d) (View.of d.registers m.fill 0) :=
  ⟨hreaction, hunscripted, rfl⟩

namespace Controller

/-- Starting finds out the truth about the FIFO, whatever the registers hold
    and however full the FIFO is beforehand. A FIFO that never overflows and
    an interrupt that was not expected are reported, and the controller keeps
    the depth it had. -/
theorem start_finds_depth (c : Controller) (d : Device.Simulated) (m : I2cModel)
    (h : Startable c d m) :
    (m.noise = 0 → m.fifoDepth ≤ 32 → m.fifoDepth + 1 ≤ m.transferMask.toNat →
      Started c m (c.start.run Device.simulated.machine.recorded (.start d))) ∧
    (m.noise = 0 → m.fifoDepth ≤ 32 → m.transferMask.toNat < m.fifoDepth + 1 →
      Fails (c.start.run Device.simulated.machine.recorded (.start d)) (m.fifoDepth + 1)
        ⟨.transferSizeTooSmall m.transferMask.toNat m.fifoDepth,
          { c with fifoSize := m.fifoDepth }⟩) ∧
    (m.noise = 0 → 32 < m.fifoDepth →
      Fails (c.start.run Device.simulated.machine.recorded (.start d)) 33
        ⟨.fifoProbe 33, c⟩) ∧
    (m.noise &&& ~~~0x0040 ≠ 0 →
      Fails (c.start.run Device.simulated.machine.recorded (.start d)) 1
        ⟨.unexpectedInterrupt (if m.fifoDepth = 0 then m.noise ||| 0x0040 else m.noise), c⟩) := by
  have hshows := shows_start d m h.reaction h.unscripted
  refine ⟨fun hquiet hdepth hmask => ?_, fun hquiet hdepth hmask => ?_,
    fun hquiet hdeep => ?_, fun hnoise => ?_⟩
  · -- The FIFO overflows in time, and the counter can count that far.
    rcases reaches_start_found h.works c _ h.clock h.patience h.inside hquiet hdepth hmask _ hshows
      with ⟨r, hrun, hr⟩
    rw [hrun]
    refine ⟨rfl, ?_, (congrArg View.control hr.view).trans masterMode_eq,
      congrArg View.masked hr.view, congrArg View.pending hr.view⟩
    exact (countP_events hr).trans (congrArg (· + 1) (Nat.zero_add m.fifoDepth))
  · -- It overflows in time, but the counter cannot.
    rcases reaches_start_narrow h.works c _ h.clock h.patience h.inside hquiet hdepth hmask _ hshows
      with ⟨r, hrun, hr⟩
    rw [hrun]
    exact ⟨rfl, (countP_events hr).trans (congrArg (· + 1) (Nat.zero_add m.fifoDepth))⟩
  · -- Thirty-three bytes go in without an overflow.
    have hfill := reaches_fillFifo_missing h.works c
      (View.primed (View.afterReset (View.of d.registers m.fill 0))) hquiet (maxFifoProbe + 1) 0
      rfl rfl (by change 0 + 33 ≤ m.fifoDepth; omega)
    rcases reaches_start_unprobed h.works c _ h.clock h.patience h.inside _ _ hfill _ hshows
      with ⟨r, hrun, hr⟩
    rw [hrun]
    exact ⟨rfl, countP_events hr⟩
  · -- The first byte raises the noise, and the overflow if the FIFO has no room
    -- at all.
    rw [← Interrupts.withoutOverflow_eq] at hnoise
    have hfill := reaches_fillFifo_noisy h.works c
      (View.primed (View.afterReset (View.of d.registers m.fill 0))) hnoise maxFifoProbe 0 rfl
    rcases reaches_start_unprobed h.works c _ h.clock h.patience h.inside _ _ hfill _ hshows
      with ⟨r, hrun, hr⟩
    have hraised : raised m (View.primed (View.afterReset (View.of d.registers m.fill 0))) =
        if m.fifoDepth = 0 then m.noise ||| 0x0040 else m.noise := by
      rw [← Interrupts.put_txOvf]
      change (if 0 = m.fifoDepth then _ else _) = _
      by_cases hzero : m.fifoDepth = 0
      · rw [if_pos hzero.symm, if_pos hzero]
      · rw [if_neg (Ne.symm hzero), if_neg hzero]
    rw [hrun, hraised]
    exact ⟨rfl, countP_events hr⟩

/-- A device with the deepest FIFO a probe finds and a counter that just counts
    one byte more, five bytes in the FIFO and everything pending. -/
def deepest : Device.Simulated :=
  ⟨I2cModel.change .empty Offset.interruptStatus allInterrupts, ∅,
    .i2c ⟨32, 33, false, false, 0, 5⟩⟩

theorem start_finds_depth_deepest :
    Startable (.new ⟨⟨0x1C0F0000⟩, 5632⟩ 1) deepest ⟨32, 33, false, false, 0, 5⟩ ∧
      Started (.new ⟨⟨0x1C0F0000⟩, 5632⟩ 1) ⟨32, 33, false, false, 0, 5⟩
        ((Controller.new ⟨⟨0x1C0F0000⟩, 5632⟩ 1).start.run
          Device.simulated.machine.recorded (.start deepest)) := by
  have hstartable : Startable (.new ⟨⟨0x1C0F0000⟩, 5632⟩ 1) deepest
      ⟨32, 33, false, false, 0, 5⟩ := by
    refine ⟨by decide, by decide, rfl, ⟨rfl, rfl⟩, ?_, ?_⟩
    · intro offset
      rfl
    · rw [deepest, I2cModel.held_change, if_neg (by decide), I2cModel.held,
        RegisterMap.peek_empty]
      decide
  exact ⟨hstartable, (start_finds_depth _ _ _ hstartable).1 rfl (by decide) (by decide)⟩

end Controller

end I2c

end BoardSupport
