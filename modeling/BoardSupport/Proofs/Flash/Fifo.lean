import BoardSupport.Proofs.Flash.Transferring
import BoardSupport.Proofs.Flash.Waits

/-!
# The FIFO Is Never Overrun

How many bytes can be waiting in the FIFO, whatever the bus answers.

The driver knows that the FIFO is empty after it has emptied it, and after it
has read a fill level of zero. From there on every byte it puts in may still be
there. Counting like that, no call puts a byte into a full FIFO: not in the
middle of a transfer, not after one that was abandoned with bytes still queued,
and not with more data than the FIFO holds.

A call starts with whatever the one before left, so what is shown of its events
is shown for every number of bytes that fits. Then it holds of calls in a row.

## Main definitions

* `Flash.fill`: Bytes that may be waiting after one more access.
* `Flash.Fits`: From no more than a full FIFO on, it is never overrun.

## Theorems

* `Flash.foldl_fill_le`: What is waiting was there before or was put in.
* `Flash.tolerates_fits`, `Flash.fits_transferring`: The rest of a transfer, and
  all of it.
* `Flash.service_fits`: Every session.
-/

namespace BoardSupport

namespace Flash

open Bus (Access accesses readEvent writeEvent keeps_write)
open Program (keeps_done keeps_bind keeps_mapError keeps_ofExcept)

/-- The number of bytes that may be waiting in the FIFO after an access. -/
def fill (queued : Nat) (a : Access) : Nat :=
  if a.writes Offset.fifoPointer then 0
  else if a.reads Offset.fifoPointer && a.value % 16 == 0 then 0
  else if a.writes Offset.fifoData then queued + 1
  else queued

/-- From no more bytes than fit on, no more than fit are ever waiting. The FIFO
    has room for eight. -/
def Fits (events : List (Event Bus.interface)) : Prop :=
  ∀ queued ≤ 8, ∀ n, ((accesses events).take n).foldl fill queued ≤ 8

theorem composes_fits : Composes Fits where
  nil queued hqueued n := by
    rw [Bus.accesses_nil, List.take_nil]
    exact hqueued
  append first rest hf hr queued hqueued n := by
    -- The second part starts with what a beginning of the first has left.
    rw [Bus.accesses_append, List.take_append, List.foldl_append]
    exact hr _ (hf queued hqueued n) _

/-- What is waiting was waiting before or was put in. -/
theorem foldl_fill_le (xs : List Access) (queued : Nat) :
    xs.foldl fill queued ≤ queued + xs.countP (Access.writes Offset.fifoData) := by
  induction xs generalizing queued with
  | nil => exact Nat.le_refl queued
  | cons a rest ih =>
      refine Nat.le_trans (ih (fill queued a)) ?_
      rw [List.countP_cons, fill]
      split
      · omega
      split
      · omega
      split
      · omega
      · omega

-- Without data nothing is put in.
theorem fits_of_no_data (events : List (Event Bus.interface))
    (h : ∀ a ∈ accesses events, a.writes Offset.fifoData = false) : Fits events := by
  intro queued hqueued n
  have hle := foldl_fill_le ((accesses events).take n) queued
  rw [List.countP_eq_zero.mpr fun a ha => by rw [h a (List.mem_of_mem_take ha)]; simp] at hle
  exact Nat.le_trans hle hqueued

/-- After the FIFO is known to be empty, it takes as many bytes as it is
    deep. -/
theorem fits_emptied (a : Access) (e : Event Bus.interface) (rest : List (Event Bus.interface))
    (he : Bus.access? e = some a) (ha : ∀ queued, fill queued a = 0)
    (hrest : (accesses rest).countP (Access.writes Offset.fifoData) ≤ 8) :
    Fits (e :: rest) := by
  intro queued hqueued n
  have haccesses : accesses (e :: rest) = a :: accesses rest := List.filterMap_cons_some he
  rw [haccesses]
  cases n with
  | zero => exact hqueued
  | succ n =>
      rw [List.take_succ_cons, List.foldl_cons, ha]
      have hcount := (List.take_sublist n (accesses rest)).countP_le
        (p := Access.writes Offset.fifoData)
      have hle := foldl_fill_le ((accesses rest).take n) 0
      omega

/-- The rest of a transfer fits. -/
theorem tolerates_fits : Tolerates Fits where
  composes := composes_fits
  read bits offset answer _ := fits_of_no_data _ (Bus.forall_read rfl)
  flush := fits_of_no_data _ (Bus.forall_write rfl)
  burst pointer bytes hempty hbytes := by
    refine fits_emptied _ _ _ rfl (fun queued => ?_)
      (Nat.le_trans (queued_push bytes).bytes hbytes)
    rw [fifoLevel_eq] at hempty
    change (if (_ && pointer.toNat % 16 == 0) = true then 0 else _) = 0
    rw [hempty]
    rfl
  log level message := fits_of_no_data _ fun _ ha => absurd ha List.not_mem_nil

/-- A transfer fits: its frame goes into a FIFO that was just emptied. -/
theorem fits_transferring (preset : Except Error (BitVec 32))
    (events : List (Event Bus.interface)) (delivered : Bool)
    (h : Transferring Fits preset events delivered) : Fits events := by
  have hP := tolerates_fits
  have hopened : ∀ (current : BitVec 32) (queue : List (Event Bus.interface)),
      Queued fifoDepth queue → Fits (opening current ++ queue) := by
    intro current queue hqueue
    refine composes_fits.append [readEvent 32 Offset.transfer current]
      (writeEvent 32 Offset.fifoPointer 0 :: queue) ?_ ?_
    · exact fits_of_no_data _ (Bus.forall_read rfl)
    · exact fits_emptied _ _ _ rfl (fun _ => rfl) hqueue.bytes
  cases h with
  | refused => exact composes_fits.nil
  | abandoned current queue hqueue => exact hopened current queue hqueue
  | started template current queue rest _ _ hqueue hrest =>
      refine composes_fits.append _ _ (composes_fits.append _ _ (hopened current queue hqueue) ?_)
        hrest
      refine fits_of_no_data _ fun a ha => ?_
      rcases List.mem_cons.mp ha with rfl | ha
      · rfl
      · cases List.mem_singleton.mp ha
        rfl

section Setup

theorem keeps_fits_write {ε : Type} {E : ε → Prop} (offset : Nat) (value : BitVec 32)
    (h : offset ≠ Offset.fifoData) :
    (Bus.write 32 offset value : Driver ε Unit).Keeps Fits (fun _ => True) E := by
  exact keeps_write 32 offset value
    (fits_of_no_data _ (Bus.forall_write (beq_eq_false_iff_ne.mpr h)))

-- Setting the controller up does not touch the FIFO.
theorem keeps_setup (count : Nat) :
    (setup count).Keeps Fits (fun _ => True) (fun _ => True) := by
  have hP := tolerates_fits
  refine keeps_bind hP.composes (keeps_ofExcept hP.composes _ (fun _ _ => trivial)
    fun _ _ => trivial) fun template (_ : True) => ?_
  refine keeps_bind hP.composes (keeps_fits_write Offset.memoryMapped 0 (by decide)) fun _ _ => ?_
  refine keeps_bind hP.composes
    (keeps_register hP 32 Offset.control (by decide)) fun ctrl _ => ?_
  refine keeps_bind hP.composes (keeps_fits_write Offset.control _ (by decide)) fun _ _ => ?_
  refine keeps_bind hP.composes (keeps_fits_write Offset.chipEnable 0 (by decide)) fun _ _ => ?_
  refine keeps_bind hP.composes (keeps_fits_write Offset.transfer _ (by decide)) fun _ _ => ?_
  exact keeps_say hP _ _

theorem keeps_setClockDivider (divider : Nat) :
    (setClockDivider divider).Keeps Fits (fun _ => True) (fun _ => True) := by
  have hP := tolerates_fits
  unfold setClockDivider
  split
  · exact keeps_done hP.composes (.error _) trivial
  · refine keeps_bind hP.composes
      (keeps_register hP 32 Offset.control (by decide)) fun ctrl _ => ?_
    refine keeps_bind hP.composes (keeps_fits_write Offset.control _ (by decide)) fun _ _ => ?_
    exact keeps_say hP _ _

theorem keeps_silent {P : List (Event Bus.interface) → Prop} (hP : Composes P)
    {p : Driver Error Unit} (hp : p.Keeps P (fun _ => True) (fun _ => True)) :
    (Request.silent p).Keeps P (fun _ => True) (fun _ => True) :=
  keeps_bind hP (keeps_mapError _ hp fun _ _ => trivial) fun _ _ =>
    keeps_done hP (.ok []) trivial

end Setup

/-- Whatever a call asks for fits. -/
theorem Call.fits (call : Call) (events : List (Event Bus.interface))
    (outcome : Outcome ReadFailure (List UInt8)) (h : call.program.Conversation events outcome) :
    Fits events := by
  cases call with
  | setup count => exact (keeps_silent composes_fits (keeps_setup count) events outcome h).1
  | setClockDivider divider =>
      exact (keeps_silent composes_fits (keeps_setClockDivider divider) events outcome h).1
  | transfer request =>
      exact fits_transferring _ _ _ (request.transfers tolerates_fits events outcome h)

/-- Through any calls on any machine, and at every access among them, no more
    bytes are waiting than the eight that the FIFO holds. -/
theorem service_fits {σ : Type} (machine : Machine Bus.interface σ) (s : σ) (calls : List Call)
    (n : Nat) :
    ((accesses (Service.events (service.turns machine () s calls))).take n).foldl fill 0 ≤ 8 := by
  have hturns := service.forall_turns (fun _ => True) (fun t => Fits t.asked)
    (fun _ call events outcome _ h => ⟨trivial, call.fits events outcome h⟩)
    machine () s calls trivial
  exact Service.holds_events composes_fits _ hturns 0 (Nat.zero_le 8) n

end Flash

end BoardSupport
