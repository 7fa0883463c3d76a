import BoardSupport.I2c.Service
import BoardSupport.Proofs.Bus.Accesses
import BoardSupport.Proofs.I2c.Divisors

/-!
# Orderly Use of the Controller

What the driver of an I2C controller keeps to on every bus.

Two things are kept to throughout. Every access is to a register of the
window, in the width of the registers. And the interrupt status is written
only to acknowledge: right after it has been read, and with what was read.

Most of what the driver does is setting up, which is alike in many respects:
reads, acknowledgements, and writes that neither move data nor measure the
transfer counter. So the parts that set up are followed once, for any property
of events that such steps have; keeping to order is one of them.

## Main definitions

* `I2c.InWindow`: Offsets of the controller's registers.
* `I2c.IsSetup`: Writes that only set up.
* `I2c.Observes`: Properties of events that looking at the controller has.
* `I2c.Tolerates`: Properties of events that setting it up has as well.
* `I2c.Orderly`: Accesses in the window, and exact acknowledgements.

## Theorems

* `I2c.orderly_append`, `I2c.tolerates_orderly`: Order composes, and setting up
  has it.
* `I2c.Controller.keeps_busDivisors`, `I2c.Controller.keeps_waitBusInactive`:
  What only looks keeps to anything that looking has.
* `I2c.Controller.keeps_clearFifo`, `I2c.Controller.keeps_reset`: What sets up
  keeps to anything that setting up has.
* `I2c.Controller.keeps_fillFifo`: The probe keeps to order and finds no depth
  beyond its tries.
* `I2c.Controller.keeps_setBusFrequency`: Divisors are put into their fields
  without a failed assertion.
* `I2c.Controller.keeps_serve`: Every call keeps to order.
-/

namespace BoardSupport

namespace I2c

open Bus (Access accesses readEvent writeEvent logEvent keeps_read keeps_write keeps_log)
open Program (keeps_done keeps_bind keeps_mapError keeps_onError keeps_mono keeps_poll keeps_expect
  keeps_ofExcept)

/-- An offset of the controller's window, on a boundary of 32 bits. -/
def InWindow (offset : Nat) : Prop :=
  offset % 4 = 0 ∧ offset ≤ Offset.last

instance (offset : Nat) : Decidable (InWindow offset) :=
  inferInstanceAs (Decidable (_ ∧ _))

/-- A write that only sets up: it acknowledges nothing, moves no data, and does
    not measure the transfer counter. -/
def IsSetup (offset : Nat) (value : BitVec 16) : Prop :=
  offset ≠ Offset.interruptStatus ∧ offset ≠ Offset.data ∧
    (offset = Offset.transferSize → value ≠ 0xFFFF)

-- No word written to any other register acknowledges, moves data or measures.
theorem isSetup_of_ne {offset : Nat} {value : BitVec 16} (hstatus : offset ≠ Offset.interruptStatus)
    (hdata : offset ≠ Offset.data) (hsize : offset ≠ Offset.transferSize) :
    IsSetup offset value :=
  ⟨hstatus, hdata, fun h => absurd h hsize⟩

/-- A property of events that composes and that everything has by which the
    controller is looked at. -/
structure Observes (P : List (Event Bus.interface) → Prop) : Prop where
  composes : Composes P
  read : ∀ offset value, InWindow offset → P [readEvent 16 offset value]
  log : ∀ level message, P [logEvent level message]

/-- Such a property that also everything has by which the controller is set
    up. -/
structure Tolerates (P : List (Event Bus.interface) → Prop) : Prop extends Observes P where
  write : ∀ offset value, InWindow offset → IsSetup offset value → P [writeEvent 16 offset value]
  acknowledge : ∀ value, P [readEvent 16 Offset.interruptStatus value,
    writeEvent 16 Offset.interruptStatus value]

/-- Every write to the interrupt status comes right after a read of it, and
    writes what was read. -/
def Acknowledges (xs : List Access) : Prop :=
  ∀ before w after, xs = before ++ w :: after → w.writes Offset.interruptStatus = true →
    before.getLast? = some ⟨false, 16, Offset.interruptStatus, w.value⟩

/-- Accesses in the window only, and exact acknowledgements. -/
structure Orderly (events : List (Event Bus.interface)) : Prop where
  inWindow : ∀ a ∈ accesses events, a.bits = 16 ∧ InWindow a.offset
  acknowledges : Acknowledges (accesses events)

theorem acknowledges_iff (xs : List Access) :
    Acknowledges xs ↔ Bus.Preceded (Access.writes Offset.interruptStatus)
      (fun r w => r = ⟨false, 16, Offset.interruptStatus, w.value⟩) xs := by
  constructor
  · intro h before w after heq hw
    exact ⟨_, h before w after heq hw, rfl⟩
  · intro h before w after heq hw
    rcases h before w after heq hw with ⟨_, hlast, rfl⟩
    exact hlast

theorem acknowledges_append (xs ys : List Access) (hx : Acknowledges xs) (hy : Acknowledges ys) :
    Acknowledges (xs ++ ys) :=
  (acknowledges_iff _).mpr (Bus.preceded_append xs ys ((acknowledges_iff xs).mp hx)
    ((acknowledges_iff ys).mp hy))

-- Accesses among which the interrupt status is not written.
theorem acknowledges_of_forall (xs : List Access)
    (h : ∀ a ∈ xs, a.writes Offset.interruptStatus = false) : Acknowledges xs :=
  (acknowledges_iff xs).mpr (Bus.preceded_of_forall xs h)

theorem orderly_append (first rest : List (Event Bus.interface)) (hf : Orderly first)
    (hr : Orderly rest) : Orderly (first ++ rest) := by
  refine ⟨(Bus.composes_accesses _).append _ _ hf.inWindow hr.inWindow, ?_⟩
  rw [Bus.accesses_append]
  exact acknowledges_append _ _ hf.acknowledges hr.acknowledges

theorem composes_orderly : Composes Orderly :=
  ⟨⟨fun _ ha => absurd ha List.not_mem_nil,
    acknowledges_of_forall [] fun _ ha => absurd ha List.not_mem_nil⟩, orderly_append⟩

-- Anything but a write to the interrupt status is in order by itself.
theorem orderly_write (offset : Nat) (value : BitVec 16) (hin : InWindow offset)
    (hne : offset ≠ Offset.interruptStatus) : Orderly [writeEvent 16 offset value] where
  inWindow := Bus.forall_write ⟨rfl, hin⟩
  acknowledges := acknowledges_of_forall _ (Bus.forall_write (beq_eq_false_iff_ne.mpr hne))

/-- Setting up is in order. -/
theorem tolerates_orderly : Tolerates Orderly where
  composes := composes_orderly
  read offset value hin :=
    ⟨Bus.forall_read ⟨rfl, hin⟩, acknowledges_of_forall _ (Bus.forall_read rfl)⟩
  write offset value hin hsetup := orderly_write offset value hin hsetup.1
  acknowledge value := by
    have hin : InWindow Offset.interruptStatus := by decide
    refine ⟨(Bus.composes_accesses _).append [readEvent 16 Offset.interruptStatus value] _
      (Bus.forall_read ⟨rfl, hin⟩) (Bus.forall_write ⟨rfl, hin⟩), ?_⟩
    exact (acknowledges_iff _).mpr (Bus.preceded_pair _ _ rfl rfl)
  log level message :=
    ⟨fun _ ha => absurd ha List.not_mem_nil,
      acknowledges_of_forall [] fun _ ha => absurd ha List.not_mem_nil⟩

namespace Controller

section Looking

variable {P : List (Event Bus.interface) → Prop} (hP : Observes P) (c : Controller)

include hP

theorem keeps_register {ε : Type} {E : ε → Prop} (offset : Nat) (h : InWindow offset) :
    (Bus.read 16 offset : Driver ε (BitVec 16)).Keeps P (fun _ => True) E :=
  keeps_read 16 offset fun value => hP.read offset value h

theorem keeps_say {ε : Type} {E : ε → Prop} (level : Log.Level) (message : String) :
    (c.say level message : Driver ε Unit).Keeps P (fun _ => True) E :=
  keeps_log level _ (hP.log level _)

theorem keeps_control {ε : Type} {E : ε → Prop} :
    (control : Driver ε (BitVec 16)).Keeps P (fun _ => True) E :=
  keeps_register hP Offset.control (by decide)

theorem keeps_busDivisors {ε : Type} {E : ε → Prop} :
    (busDivisors : Driver ε Divisors).Keeps P (fun _ => True) E :=
  keeps_bind hP.composes (keeps_control hP) fun _ _ => keeps_done hP.composes (.ok _) trivial

theorem keeps_busActive {ε : Type} {E : ε → Prop} :
    (busActive : Driver ε Bool).Keeps P (fun _ => True) E :=
  keeps_bind hP.composes (keeps_register hP Offset.status (by decide)) fun _ _ =>
    keeps_done hP.composes (.ok _) trivial

theorem keeps_waitBusInactive :
    c.waitBusInactive.Keeps P (fun _ => True) (fun _ => True) := by
  refine keeps_bind hP.composes (keeps_poll hP.composes _ _ (keeps_busActive hP))
    fun answer _ => ?_
  cases answer with
  | some _ => exact keeps_done hP.composes (.ok ()) trivial
  | none =>
      refine keeps_bind hP.composes (keeps_say hP c _ _) fun _ _ => ?_
      exact keeps_done hP.composes (.error _) trivial

theorem keeps_pendingInterrupts {ε : Type} {E : ε → Prop} :
    (c.pendingInterrupts : Driver ε (BitVec 16)).Keeps P (fun _ => True) E := by
  refine keeps_bind hP.composes (keeps_register hP Offset.interruptStatus (by decide))
    fun set _ => ?_
  refine keeps_bind hP.composes (keeps_say hP c _ _) fun _ _ => ?_
  exact keeps_done hP.composes (.ok set) trivial

end Looking

section Setup

variable {P : List (Event Bus.interface) → Prop} (hP : Tolerates P) (c : Controller)

include hP

theorem keeps_set {ε : Type} {E : ε → Prop} (offset : Nat) (value : BitVec 16)
    (h : InWindow offset ∧ offset ∉ [Offset.interruptStatus, Offset.data, Offset.transferSize]) :
    (Bus.write 16 offset value : Driver ε Unit).Keeps P (fun _ => True) E := by
  rcases h with ⟨hin, hother⟩
  simp only [List.mem_cons, List.not_mem_nil, or_false, not_or] at hother
  exact keeps_write 16 offset value
    (hP.write offset value hin (isSetup_of_ne hother.1 hother.2.1 hother.2.2))

theorem keeps_acknowledge {ε : Type} {E : ε → Prop} :
    (acknowledge : Driver ε (BitVec 16)).Keeps P (fun _ => True) E := by
  -- Its two accesses go together, so they are not taken one by one.
  intro events outcome h
  rcases (Program.conversation_ask _ _ _ _).mp h with ⟨value, _, rfl, hwrite⟩
  rcases (Program.conversation_ask _ _ _ _).mp hwrite with ⟨_, _, rfl, hdone⟩
  rcases (Program.conversation_done _ _ _).mp hdone with ⟨rfl, rfl⟩
  exact ⟨hP.acknowledge value, trivial⟩

theorem keeps_clearFifo : c.clearFifo.Keeps P (fun _ => True) (fun _ => True) := by
  refine keeps_bind hP.composes (keeps_control hP.toObserves) fun cr _ => ?_
  refine keeps_bind hP.composes (keeps_set hP Offset.control _ (by decide)) fun _ _ => ?_
  refine keeps_bind hP.composes
    (keeps_poll hP.composes _ _ (keeps_control hP.toObserves)) fun answer _ => ?_
  cases answer with
  | some _ => exact keeps_done hP.composes (.ok ()) trivial
  | none =>
      refine keeps_bind hP.composes (keeps_say hP.toObserves c _ _) fun _ _ => ?_
      exact keeps_done hP.composes (.error _) trivial

/-- Resetting sets up. -/
theorem keeps_reset : c.reset.Keeps P (fun _ => True) (fun _ => True) := by
  refine keeps_bind hP.composes (keeps_set hP Offset.control _ (by decide)) fun _ _ => ?_
  refine keeps_bind hP.composes (keeps_clearFifo hP c) fun _ _ => ?_
  refine keeps_bind hP.composes (keeps_set hP Offset.timeout _ (by decide)) fun _ _ => ?_
  refine keeps_bind hP.composes
    (keeps_set hP Offset.interruptEnable _ (by decide)) fun _ _ => ?_
  refine keeps_bind hP.composes
    (keeps_set hP Offset.interruptDisable _ (by decide)) fun _ _ => ?_
  refine keeps_bind hP.composes
    (keeps_register hP.toObserves Offset.interruptMask (by decide)) fun mask _ => ?_
  by_cases hmask : mask = allInterrupts
  · rw [if_pos hmask]
    refine keeps_bind hP.composes (keeps_acknowledge hP) fun _ _ => ?_
    exact keeps_done hP.composes (.ok ()) trivial
  · rw [if_neg hmask]
    refine keeps_bind hP.composes (keeps_say hP.toObserves c _ _) fun _ _ => ?_
    exact keeps_done hP.composes (.error _) trivial

end Setup

section Order

variable (c : Controller)

theorem keeps_probeMaxTransfer :
    c.probeMaxTransfer.Keeps Orderly (fun _ => True) (fun _ => True) := by
  have hP := tolerates_orderly
  refine keeps_bind hP.composes (keeps_control hP.toObserves) fun cr _ => ?_
  refine keeps_bind hP.composes (keeps_set hP Offset.control _ (by decide)) fun _ _ => ?_
  refine keeps_bind hP.composes
    (keeps_write 16 _ _ (orderly_write Offset.transferSize 0 (by decide) (by decide))) fun _ _ => ?_
  refine keeps_bind hP.composes (keeps_acknowledge hP) fun _ _ => ?_
  refine keeps_bind hP.composes (keeps_clearFifo hP c) fun _ _ => ?_
  refine keeps_bind hP.composes
    (keeps_write 16 _ _ (orderly_write Offset.transferSize 0xFFFF (by decide) (by decide)))
    fun _ _ => ?_
  refine keeps_bind hP.composes
    (keeps_register hP.toObserves Offset.transferSize (by decide)) fun size _ => ?_
  exact keeps_done hP.composes (.ok _) trivial

/-- The probe keeps to order, and the depth it finds is one it has counted up
    to. -/
theorem keeps_fillFifo (accepted tries : Nat) :
    (c.fillFifo accepted tries).Keeps Orderly (· < accepted + tries) (fun _ => True) := by
  have hP := tolerates_orderly
  induction tries generalizing accepted with
  | zero => exact keeps_done hP.composes (.error _) trivial
  | succ tries ih =>
      refine keeps_bind hP.composes
        (keeps_write 16 _ _ (orderly_write Offset.data 0 (by decide) (by decide))) fun _ _ => ?_
      refine keeps_bind hP.composes (keeps_acknowledge hP) fun set _ => ?_
      split
      · refine keeps_bind hP.composes (keeps_say hP.toObserves c _ _) fun _ _ => ?_
        exact keeps_done hP.composes (.error _) trivial
      split
      · exact keeps_done hP.composes (.ok accepted) (Nat.lt_add_of_pos_right (Nat.succ_pos tries))
      · refine keeps_mono (ih (accepted + 1)) (fun n hn => ?_) fun _ h => h
        omega

theorem keeps_probeFifo :
    c.probeFifo.Keeps Orderly (· ≤ maxFifoProbe) (fun _ => True) := by
  have hP := tolerates_orderly
  refine keeps_bind hP.composes (keeps_control hP.toObserves) fun cr _ => ?_
  refine keeps_bind hP.composes (keeps_set hP Offset.control _ (by decide)) fun _ _ => ?_
  refine keeps_bind hP.composes (keeps_acknowledge hP) fun _ _ => ?_
  refine keeps_bind hP.composes (keeps_clearFifo hP c) fun _ _ => ?_
  refine keeps_mono (keeps_fillFifo c 0 (maxFifoProbe + 1)) (fun n hn => ?_) fun _ h => h
  change n < 0 + (maxFifoProbe + 1) at hn
  omega

/-- A controller whose FIFO is no deeper than the probe looks is such a one
    however starting it ends. -/
theorem keeps_start (h : c.fifoSize ≤ maxFifoProbe) :
    c.start.Keeps Orderly (fun c => c.fifoSize ≤ maxFifoProbe)
      (fun failure => failure.controller.fifoSize ≤ maxFifoProbe) := by
  have hP := tolerates_orderly
  unfold start
  simp only
  split
  · refine keeps_bind hP.composes (keeps_say hP.toObserves c _ _) fun _ _ => ?_
    exact keeps_done hP.composes (.error _) h
  refine keeps_bind hP.composes
    (keeps_mapError _ (keeps_reset hP c) fun _ _ => h) fun _ _ => ?_
  refine keeps_bind hP.composes (keeps_mapError _
    (keeps_onError hP.composes _ (keeps_probeFifo c) fun _ _ => keeps_say hP.toObserves c _ _)
    fun _ _ => h) fun depth hdepth => ?_
  -- From here on the depth is known, and a failure reports it.
  refine keeps_bind hP.composes (keeps_say hP.toObserves c _ _) fun _ _ => ?_
  refine keeps_bind hP.composes
    (keeps_mapError _ (keeps_probeMaxTransfer c) fun _ _ => hdepth) fun size _ => ?_
  refine keeps_bind hP.composes (keeps_say hP.toObserves c _ _) fun _ _ => ?_
  split
  · refine keeps_bind hP.composes (keeps_say hP.toObserves c _ _) fun _ _ => ?_
    exact keeps_done hP.composes (.error _) hdepth
  · refine keeps_bind hP.composes
      (keeps_mapError _ (keeps_reset hP c) fun _ _ => hdepth) fun _ _ => ?_
    exact keeps_done hP.composes (.ok _) hdepth

end Order

end Controller

namespace Controller

variable {P : List (Event Bus.interface) → Prop} (hP : Tolerates P) (c : Controller)

include hP

/-- Divisors that were found are put into their fields without a failed
    assertion. -/
theorem keeps_setBusFrequency (requested : UInt32) :
    (c.setBusFrequency requested).Keeps P (fun _ => True) (fun _ => True) := by
  have hchoice : (Program.ofExcept (Divisors.forFrequency c.install.inputClock requested) :
      Driver Error (Divisors × Nat)).Keeps P (fun r => r.1.Fits) (fun _ => True) :=
    keeps_ofExcept hP.composes _ (fun r hr => Divisors.forFrequency_fits _ _ r.1 r.2 hr)
      fun _ _ => trivial
  refine keeps_bind hP.composes
    (keeps_onError hP.composes _ hchoice fun _ _ => keeps_say hP.toObserves c _ _) fun r hr => ?_
  rcases r with ⟨d, actual⟩
  refine keeps_bind hP.composes (keeps_control hP.toObserves) fun cr _ => ?_
  refine keeps_bind hP.composes
    (keeps_expect hP.composes _ _ (d.put?_divA cr hr)) fun crA _ => ?_
  refine keeps_bind hP.composes (keeps_expect hP.composes _ _ (d.put?_divB crA hr)) fun crB _ => ?_
  refine keeps_bind hP.composes (keeps_set hP Offset.control _ (by decide)) fun _ _ => ?_
  refine keeps_bind hP.composes (keeps_say hP.toObserves c _ _) fun _ _ => ?_
  exact keeps_done hP.composes (.ok actual) trivial

-- A call that tells the controller nothing leaves it as it was.
theorem keeps_keeping {α : Type} (tell : α → Reply) (p : Driver Error α)
    (hp : p.Keeps P (fun _ => True) (fun _ => True)) :
    (c.keeping tell p).Keeps P (fun r => r.2 = c) (fun failure => failure.controller = c) :=
  keeps_bind hP.composes (keeps_mapError _ hp fun _ _ => rfl) fun _ _ =>
    keeps_done hP.composes (.ok _) rfl

end Controller

/-- Every call keeps to order, and leaves a controller whose FIFO is no deeper
    than the probe looks. -/
theorem Controller.keeps_serve (c : Controller) (call : Call) (h : c.fifoSize ≤ maxFifoProbe) :
    (c.serve call).Keeps Orderly (fun r => r.2.fifoSize ≤ maxFifoProbe)
      (fun failure => failure.controller.fifoSize ≤ maxFifoProbe) := by
  have hP := tolerates_orderly
  have hkeep : ∀ {α : Type} (tell : α → Reply) (p : Driver Error α),
      p.Keeps Orderly (fun _ => True) (fun _ => True) →
      (c.keeping tell p).Keeps Orderly (fun r => r.2.fifoSize ≤ maxFifoProbe)
        (fun failure => failure.controller.fifoSize ≤ maxFifoProbe) := by
    intro α tell p hp
    refine keeps_mono (keeps_keeping hP c tell p hp) (fun r hr => ?_) fun failure hf => ?_
    · rw [hr]
      exact h
    · rw [hf]
      exact h
  cases call with
  | reset => exact hkeep _ _ (keeps_reset hP c)
  | start =>
      refine keeps_bind hP.composes (keeps_start c h) fun found hfound => ?_
      exact keeps_done hP.composes (.ok (Reply.done, found)) hfound
  | setBusFrequency requested => exact hkeep _ _ (keeps_setBusFrequency hP c requested)
  | busDivisors => exact hkeep _ _ (keeps_busDivisors hP.toObserves)
  | busActive => exact hkeep _ _ (keeps_busActive hP.toObserves)
  | waitBusInactive => exact hkeep _ _ (keeps_waitBusInactive hP.toObserves c)
  | pendingInterrupts => exact hkeep _ _ (keeps_pendingInterrupts hP.toObserves c)

end I2c

end BoardSupport
