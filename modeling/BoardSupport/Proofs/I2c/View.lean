import BoardSupport.Bus.Trace
import BoardSupport.I2c.Controller
import BoardSupport.Proofs.Device.Simulated
import BoardSupport.Proofs.Program.Leads
import BoardSupport.Proofs.Register.Field

/-!
# A View of the Simulated Controller

What a driver can tell of a simulated I2C controller that works.

The controller's state is a map of registers together with a reaction. A driver
that brings it up sees four registers and the fill of the FIFO, so a view has
just these, and the number of bytes written to the FIFO so far. `View.after`
says what a write does to a view; `shows_write` says that the simulation does
the same, for every register and value. From then on a driver is followed on
views.

The reaction's parameters do not change while it runs: the depth of the FIFO,
the bits of the transfer counter, and the interrupts that come up by
themselves.

## Main definitions

* `I2c.View`: Registers, fill, and bytes written.
* `I2c.View.after`: A view after a write.
* `I2c.Shows`: A recorded run has reached a state of this view.
* `I2c.Reaches`: Where a driver leads, from view to view.

## Theorems

* `I2c.shows_write`: The simulation writes like its view.
* `I2c.reaches_read`, `I2c.reaches_write`, `I2c.reaches_log`: The operations of
  the bus.
-/

namespace BoardSupport

namespace I2c

open Device (I2cModel)

/-- The registers a driver sees, the fill of the FIFO, and how many bytes have
    been written to it. -/
@[ext]
structure View where
  control : BitVec 16
  pending : BitVec 16
  masked : BitVec 16
  transferSize : BitVec 16
  fill : Nat
  dataWrites : Nat

/-- A byte is written to the FIFO. -/
def isDataWrite : Event Bus.interface → Bool
  | ⟨.write _ offset _, _⟩ => offset == Offset.data
  | _ => false

/-- The controller clears its FIFO and masks its interrupts. -/
structure Works (m : I2cModel) : Prop where
  clears : m.clearSticks = false
  masks : m.maskBroken = false

/-- The view after a write. Clearing the FIFO is over at once, so the request
    for it is never seen. -/
def View.after (m : I2cModel) (v : View) (offset : Nat) (value : BitVec 16) : View :=
  if offset = Offset.control then
    { v with
      control := Control.clrfifo.put 0 value
      fill := if Control.clrfifo.isSet value then 0 else v.fill }
  else if offset = Offset.interruptStatus then
    { v with pending := 0 }
  else if offset = Offset.interruptMask then
    { v with masked := value }
  else if offset = Offset.interruptEnable then
    { v with masked := v.masked &&& ~~~value }
  else if offset = Offset.interruptDisable then
    { v with masked := v.masked ||| value }
  else if offset = Offset.transferSize then
    { v with transferSize := value &&& m.transferMask }
  else if offset = Offset.data then
    if v.fill = m.fifoDepth then
      { v with
        pending := Interrupts.txOvf.put 1 (v.pending ||| m.noise)
        dataWrites := v.dataWrites + 1 }
    else
      { v with
        pending := v.pending ||| m.noise
        fill := v.fill + 1
        dataWrites := v.dataWrites + 1 }
  else
    v

-- A byte written to the FIFO raises the overflow if it is full, and fills it
-- otherwise.
theorem View.after_data (m : I2cModel) (v : View) (value : BitVec 16) :
    v.after m Offset.data value =
      if v.fill = m.fifoDepth then
        { v with
          pending := Interrupts.txOvf.put 1 (v.pending ||| m.noise)
          dataWrites := v.dataWrites + 1 }
      else
        { v with
          pending := v.pending ||| m.noise
          fill := v.fill + 1
          dataWrites := v.dataWrites + 1 } := rfl

/-- What the registers show. -/
def View.of (registers : RegisterMap) (fill dataWrites : Nat) : View where
  control := I2cModel.held registers Offset.control
  pending := I2cModel.held registers Offset.interruptStatus
  masked := I2cModel.held registers Offset.interruptMask
  transferSize := I2cModel.held registers Offset.transferSize
  fill := fill
  dataWrites := dataWrites

/-- A recorded run has reached a state of this view. -/
structure Shows (m : I2cModel) (r : Machine.Recording Bus.interface Device.Simulated)
    (v : View) : Prop where
  reaction : r.state.reaction = .i2c { m with fill := v.fill }
  unscripted : ∀ offset, r.state.scripts.getD offset [] = []
  view : View.of r.state.registers v.fill (r.latest.countP isDataWrite) = v

-- A word of the width of the registers is stored like a change of the
-- controller's own, and then reacted to.
theorem accept_eq (d : Device.Simulated) (m : I2cModel) (offset : Nat) (value : BitVec 16)
    (h : d.reaction = .i2c m) :
    d.accept offset (value.setWidth 64) =
      { d with
        registers := (m.afterWrite (I2cModel.change d.registers offset value) offset value).2
        reaction := .i2c
          (m.afterWrite (I2cModel.change d.registers offset value) offset value).1 } := by
  have hword : (value.setWidth 64).setWidth 16 = value :=
    BitVec.setWidth_setWidth_of_le value (by decide)
  unfold Device.Simulated.accept
  rw [h]
  simp only [hword]
  rfl

-- A reaction to a write changes nothing of the model but the fill.
theorem afterWrite_model (m : I2cModel) (registers : RegisterMap) (offset : Nat)
    (value : BitVec 16) :
    (m.afterWrite registers offset value).1 =
      { m with fill := (m.afterWrite registers offset value).1.fill } := by
  unfold I2cModel.afterWrite
  repeat' split
  all_goals rfl

/-- The reaction to a write is what happens to the view, register by
    register. -/
theorem after_of (m : I2cModel) (hm : Works m) (registers : RegisterMap) (dataWrites : Nat)
    (offset : Nat) (value : BitVec 16) :
    (View.of registers m.fill dataWrites).after m offset value =
      View.of (m.afterWrite (I2cModel.change registers offset value) offset value).2
        (m.afterWrite (I2cModel.change registers offset value) offset value).1.fill
        (dataWrites + if offset = Offset.data then 1 else 0) := by
  -- Both sides ask for the register in the same order. In each case the change
  -- is stored first, so what the other registers hold is what they held.
  unfold View.after I2cModel.afterWrite
  by_cases hcontrol : offset = Offset.control
  · subst hcontrol
    by_cases hset : Control.clrfifo.isSet value = true
    · simp [View.of, hset, hm.clears, I2cModel.held_change, Offset.control,
        Offset.interruptStatus, Offset.interruptMask, Offset.transferSize, Offset.data]
    · -- a request that was not made is dropped from the word without changing it
      have hput : Control.clrfifo.put 0 value = value :=
        Register.put_zero_flag "clrfifo" 6 value (Bool.eq_false_iff.mpr hset)
      simp [View.of, hset, hput, I2cModel.held_change, Offset.control,
        Offset.interruptStatus, Offset.interruptMask, Offset.transferSize, Offset.data]
  by_cases hstatus : offset = Offset.interruptStatus
  · subst hstatus
    simp [View.of, I2cModel.held_change, Offset.control, Offset.interruptStatus,
      Offset.interruptMask, Offset.transferSize, Offset.data]
  by_cases hmask : offset = Offset.interruptMask
  · subst hmask
    simp [View.of, I2cModel.held_change, Offset.control, Offset.interruptStatus,
      Offset.interruptMask, Offset.interruptEnable, Offset.interruptDisable,
      Offset.transferSize, Offset.data]
  by_cases henable : offset = Offset.interruptEnable
  · subst henable
    simp [View.of, I2cModel.held_change, Offset.control, Offset.interruptStatus,
      Offset.interruptMask, Offset.interruptEnable, Offset.transferSize, Offset.data]
  by_cases hdisable : offset = Offset.interruptDisable
  · subst hdisable
    simp [View.of, hm.masks, I2cModel.held_change, Offset.control, Offset.interruptStatus,
      Offset.interruptMask, Offset.interruptEnable, Offset.interruptDisable,
      Offset.transferSize, Offset.data]
  by_cases hsize : offset = Offset.transferSize
  · subst hsize
    simp [View.of, I2cModel.held_change, Offset.control, Offset.interruptStatus,
      Offset.interruptMask, Offset.interruptEnable, Offset.interruptDisable,
      Offset.transferSize, Offset.data]
  by_cases hdata : offset = Offset.data
  · subst hdata
    -- Noise is raised by every byte, the overflow only if the FIFO is full.
    by_cases hfull : m.fill = m.fifoDepth
    · simp [View.of, hfull, I2cModel.held_change, Offset.control, Offset.interruptStatus,
        Offset.interruptMask, Offset.interruptEnable, Offset.interruptDisable,
        Offset.transferSize, Offset.data]
    · simp [View.of, hfull, I2cModel.held_change, Offset.control, Offset.interruptStatus,
        Offset.interruptMask, Offset.interruptEnable, Offset.interruptDisable,
        Offset.transferSize, Offset.data]
  · -- A register that no driver looks at shows in no view.
    simp [View.of, I2cModel.held_change, hcontrol, hstatus, hmask, henable, hdisable, hsize,
      hdata, Ne.symm hcontrol, Ne.symm hstatus, Ne.symm hmask, Ne.symm hsize]

section Operations

variable {m : I2cModel} {r : Machine.Recording Bus.interface Device.Simulated} {v : View}

/-- The simulation writes like its view. -/
theorem shows_write (hm : Works m) (hs : Shows m r v) (offset : Nat) (value : BitVec 16) :
    Shows m (Device.simulated.machine.recorded (.write 16 offset value) r).2
      (v.after m offset value) := by
  -- The reaction runs at the fill of the view, and works there as well.
  have hworks : Works { m with fill := v.fill } := ⟨hm.clears, hm.masks⟩
  have hview := after_of { m with fill := v.fill } hworks r.state.registers
    (r.latest.countP isDataWrite) offset value
  rw [hs.view] at hview
  change v.after m offset value = _ at hview
  have haccept := accept_eq r.state _ offset value hs.reaction
  refine ⟨?_, ?_, ?_⟩
  · change (r.state.accept offset (value.setWidth 64)).reaction = _
    rw [haccept, hview]
    exact congrArg Device.Reaction.i2c (afterWrite_model _ _ _ _)
  · change ∀ other, (r.state.accept offset (value.setWidth 64)).scripts.getD other [] = []
    rw [haccept]
    exact hs.unscripted
  · change View.of (r.state.accept offset (value.setWidth 64)).registers _
      (List.countP isDataWrite (⟨.write 16 offset value, ()⟩ :: r.latest)) = _
    rw [haccept, List.countP_cons, hview]
    simp only [isDataWrite, beq_iff_eq]
    rfl

/-- A read that no answer has been laid out for is answered with what the
    register holds. -/
theorem shows_read (hs : Shows m r v) (offset : Nat) :
    Device.simulated.machine.recorded (.read 16 offset) r =
      (I2cModel.held r.state.registers offset,
        ⟨r.state, ⟨.read 16 offset, I2cModel.held r.state.registers offset⟩ :: r.latest⟩) := by
  have hanswer : r.state.answer offset = (r.state.registers.peek offset, r.state) := by
    refine r.state.answer_stored offset (hs.unscripted offset) fun model hr => ?_
    rw [hs.reaction] at hr
    cases hr
  have hread : Device.simulated.machine (.read 16 offset) r.state =
      (I2cModel.held r.state.registers offset, r.state) := by
    change ((r.state.answer offset).1.setWidth 16, (r.state.answer offset).2) = _
    rw [hanswer]
    rfl
  unfold Machine.recorded
  rw [hread]

-- An event that is no byte for the FIFO counts for nothing.
theorem shows_event (hs : Shows m r v) (e : Event Bus.interface) (he : isDataWrite e = false) :
    Shows m ⟨r.state, e :: r.latest⟩ v := by
  refine ⟨hs.reaction, hs.unscripted, ?_⟩
  rw [List.countP_cons_of_neg (by rw [he]; exact Bool.false_ne_true)]
  exact hs.view

end Operations

/-- What the view says about a register, if anything. -/
def View.shown? (v : View) (offset : Nat) : Option (BitVec 16) :=
  if offset = Offset.control then some v.control
  else if offset = Offset.interruptStatus then some v.pending
  else if offset = Offset.interruptMask then some v.masked
  else if offset = Offset.transferSize then some v.transferSize
  else none

theorem held_of_shown (registers : RegisterMap) (fill dataWrites offset : Nat)
    (value : BitVec 16)
    (h : (View.of registers fill dataWrites).shown? offset = some value) :
    I2cModel.held registers offset = value := by
  unfold View.shown? at h
  by_cases hcontrol : offset = Offset.control
  · rw [if_pos hcontrol] at h
    rw [hcontrol]
    exact Option.some.inj h
  rw [if_neg hcontrol] at h
  by_cases hstatus : offset = Offset.interruptStatus
  · rw [if_pos hstatus] at h
    rw [hstatus]
    exact Option.some.inj h
  rw [if_neg hstatus] at h
  by_cases hmask : offset = Offset.interruptMask
  · rw [if_pos hmask] at h
    rw [hmask]
    exact Option.some.inj h
  rw [if_neg hmask] at h
  by_cases hsize : offset = Offset.transferSize
  · rw [if_pos hsize] at h
    rw [hsize]
    exact Option.some.inj h
  · rw [if_neg hsize] at h
    cases h

section Reaches

variable {ε α : Type} (m : I2cModel) (v : View)

/-- Where a driver leads on a recorded simulation, from view to view. -/
abbrev Reaches (p : Driver ε α) (v : View) (outcome : Outcome ε α) (v' : View) : Prop :=
  p.Leads Device.simulated.machine.recorded (Shows m) v outcome v'

theorem reaches_write (hm : Works m) (offset : Nat) (value : BitVec 16) :
    Reaches m (Bus.write 16 offset value : Driver ε Unit) v (.ok ()) (v.after m offset value) :=
  fun _ hs => ⟨_, rfl, shows_write hm hs offset value⟩

theorem reaches_read (offset : Nat) (value : BitVec 16) (h : v.shown? offset = some value) :
    Reaches m (Bus.read 16 offset : Driver ε (BitVec 16)) v (.ok value) v := by
  intro r hs
  rw [Bus.read, Program.run_ask, shows_read hs]
  refine ⟨_, ?_, shows_event hs
    ⟨.read 16 offset, I2cModel.held r.state.registers offset⟩ rfl⟩
  rw [← hs.view] at h
  rw [held_of_shown _ _ _ _ _ h]
  rfl

theorem reaches_log (level : Log.Level) (message : String) :
    Reaches m (Bus.log level message : Driver ε Unit) v (.ok ()) v := by
  intro r hs
  exact ⟨_, rfl, shows_event hs ⟨.log level message, ()⟩ rfl⟩

end Reaches

end I2c

end BoardSupport
