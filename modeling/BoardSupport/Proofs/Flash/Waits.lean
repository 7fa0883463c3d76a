import BoardSupport.Flash.Controller
import BoardSupport.Proofs.Bus.Polling
import BoardSupport.Proofs.Register.Field

/-!
# Waits for the Flash Controller

What the two waits of the driver come to on every bus.

The driver waits for an interrupt in the status register and for a fill level in
the pointer register of the FIFO. Either way it asks at most as often as it was
told to. A wait that runs out says so to the log and reports what was waited for
and how often it asked.

What is looked at in the registers is little: the low four bits of the pointer
are the fill level, and the lowest bit of the status is the end of a transfer.

## Main definitions

* `Flash.Waits`: The accesses of a wait.
* `Flash.Expires`: Accesses that end with a wait that ran out.

## Theorems

* `Flash.fifoLevel_eq`, `Flash.intersects_done`: What is looked at.
* `Flash.conversation_waitFor`: A wait for an interrupt.
* `Flash.conversation_waitFifoLevel`, `Flash.ready_of_polls`: A wait for a fill
  level, and one that ended well.
* `Flash.conversation_finish`: A wait for the end, after which the FIFO is emptied.
-/

namespace BoardSupport

namespace Flash

open Bus (Access Polls accesses)

/-- An access of a wait: to the fill level or to the interrupt status. -/
def Waits (a : Access) : Prop :=
  a.offset = Offset.fifoPointer ∨ a.offset = Offset.interruptStatus

/-- Accesses that end with a wait that ran out: it asked as often as it was told to, no
    answer was the right one, and the error says what it waited for. -/
inductive Expires (spins : Nat) : Error → List Access → Prop where
  | level (earlier polled : List Access) (level : Nat)
      (hpolls : Polls 32 Offset.fifoPointer (fun pointer => pointer.toNat % 16 == level) spins
        polled none) : Expires spins (.fifoLevel level spins) (earlier ++ polled)
  | status (earlier polled : List Access) (mask : BitVec 32)
      (hpolls : Polls 32 Offset.interruptStatus (fun status => status &&& mask != 0) spins
        polled none) : Expires spins (.timeout mask spins) (earlier ++ polled)

/-- What goes before does not matter. -/
theorem Expires.prepend {spins : Nat} {cause : Error} {xs : List Access} (before : List Access)
    (h : Expires spins cause xs) : Expires spins cause (before ++ xs) := by
  cases h with
  | level earlier polled level hpolls =>
      rw [← List.append_assoc]
      exact .level _ polled level hpolls
  | status earlier polled mask hpolls =>
      rw [← List.append_assoc]
      exact .status _ polled mask hpolls

-- A wait is waiting, whatever register of the two it is on.
theorem waits_of_offset {offset : Nat} {xs : List Access}
    (h : offset = Offset.fifoPointer ∨ offset = Offset.interruptStatus)
    (hxs : ∀ a ∈ xs, a.offset = offset) : ∀ a ∈ xs, Waits a := by
  intro a ha
  rw [Waits, hxs a ha]
  exact h

-- Waiting neither puts into the FIFO nor takes from it.
theorem writes_of_waits (a : Access) (h : Waits a) : a.writes Offset.fifoData = false := by
  rw [Access.writes]
  rcases h with h | h
  · rw [h]
    exact Bool.and_false _
  · rw [h]
    exact Bool.and_false _

theorem reads_of_waits (a : Access) (h : Waits a) : a.reads Offset.fifoData = false := by
  rw [Access.reads]
  rcases h with h | h
  · rw [h]
    exact Bool.and_false _
  · rw [h]
    exact Bool.and_false _

-- The fill level is the low four bits of the pointer register.
theorem fifoLevel_eq (pointer : BitVec 32) : fifoLevel pointer = pointer.toNat % 16 := by
  rw [fifoLevel, BitVec.toNat_and]
  exact Nat.and_two_pow_sub_one_eq_mod pointer.toNat 4

/-- A status has an interrupt in common with the end of a transfer if its lowest
    bit is set. -/
theorem intersects_done (status : BitVec 32) :
    Interrupts.intersects status Interrupts.done = status.getLsbD 0 := by
  have hmask : Interrupts.done = 1#32 := by decide
  rw [Interrupts.intersects, hmask, BitVec.and_one_eq_setWidth_ofBool_getLsbD]
  cases status.getLsbD 0 with
  | true => rfl
  | false => rfl

-- What is said to the log is no access.
theorem conversation_say {ε : Type} (level : Log.Level) (message : String)
    (events : List (Event Bus.interface)) (outcome : Outcome ε Unit)
    (h : (say level message).Conversation events outcome) :
    accesses events = [] ∧ outcome = .ok () := by
  rcases (Program.conversation_ask _ _ _ _).mp h with ⟨_, _, rfl, hdone⟩
  rcases (Program.conversation_done _ _ _).mp hdone with ⟨rfl, rfl⟩
  exact ⟨rfl, rfl⟩

/-- A wait on a register of the controller that reports a cause, and says so to the
    log, when it runs out. -/
theorem conversation_wait {α β : Type} (offset : Nat) (f : BitVec 32 → α) (accept : α → Bool)
    (spins : Nat) (next : Option α → Driver Error β) (g : α → β) (message : String) (cause : Error)
    (hsome : ∀ a, next (some a) = .done (.ok (g a)))
    (hnone : next none = (say .warn message).bind fun _ => .done (.error cause))
    (events : List (Event Bus.interface)) (outcome : Outcome Error β)
    (h : ((Program.poll spins ((Bus.read 32 offset).bind fun w => .done (.ok (f w)))
      accept).bind next).Conversation events outcome) :
    ∃ found, Polls 32 offset (fun w => accept (f w)) spins (accesses events) found ∧
      outcome = found.elim (.error cause) fun w => .ok (g (f w)) := by
  rcases (Program.conversation_bind _ _ _ _).mp h with ⟨polled, rest, ended, rfl, hpoll, hrest⟩
  rcases Bus.conversation_poll 32 offset f accept spins polled ended hpoll
    with ⟨found, hpolls, rfl⟩
  refine ⟨found, ?_⟩
  cases found with
  | some word =>
      change (next (some (f word))).Conversation rest outcome at hrest
      rw [hsome] at hrest
      rcases (Program.conversation_done _ _ _).mp hrest with ⟨rfl, rfl⟩
      rw [List.append_nil]
      exact ⟨hpolls, rfl⟩
  | none =>
      change (next none).Conversation rest outcome at hrest
      rw [hnone] at hrest
      rcases (Program.conversation_bind (say .warn message) _ _ _).mp hrest
        with ⟨saying, _, _, rfl, hsay, hfail⟩
      rcases conversation_say .warn message saying _ hsay with ⟨hsilent, rfl⟩
      rcases (Program.conversation_done _ _ _).mp hfail with ⟨rfl, rfl⟩
      rw [List.append_nil, Bus.accesses_append, hsilent, List.append_nil]
      exact ⟨hpolls, rfl⟩

/-- A wait for an interrupt. -/
theorem conversation_waitFor (mask : BitVec 32) (spins : Nat) (events : List (Event Bus.interface))
    (outcome : Outcome Error (BitVec 32)) (h : (waitFor mask spins).Conversation events outcome) :
    ∃ found, Polls 32 Offset.interruptStatus (Interrupts.intersects · mask) spins (accesses events)
        found ∧
      outcome = found.elim (.error (.timeout mask spins)) .ok :=
  conversation_wait Offset.interruptStatus id (Interrupts.intersects · mask) spins _ id _ _
    (fun _ => rfl) rfl events outcome h

/-- A wait for a fill level. -/
theorem conversation_waitFifoLevel (level spins : Nat) (events : List (Event Bus.interface))
    (outcome : Outcome Error Unit) (h : (waitFifoLevel level spins).Conversation events outcome) :
    ∃ found, Polls 32 Offset.fifoPointer (fun pointer => pointer.toNat % 16 == level) spins
        (accesses events) found ∧
      outcome = found.elim (.error (.fifoLevel level spins)) fun _ => .ok () := by
  simp only [← fifoLevel_eq]
  exact conversation_wait Offset.fifoPointer fifoLevel (· == level) spins _ (fun _ => ()) _ _
    (fun _ => rfl) rfl events outcome h

/-- A wait for a fill level that ended well has read that level last. -/
theorem ready_of_polls {level spins : Nat} {xs : List Access} {pointer : BitVec 32}
    (h : Polls 32 Offset.fifoPointer (fun pointer => pointer.toNat % 16 == level) spins xs
      (some pointer)) :
    ∃ before, xs = before ++ [.ofRead 32 Offset.fifoPointer pointer] ∧ (∀ a ∈ before, Waits a) ∧
      pointer.toNat % 16 = level := by
  rcases h.split with ⟨before, hxs, hbefore, haccept⟩
  exact ⟨before, hxs, waits_of_offset (Or.inl rfl) hbefore, beq_iff_eq.mp haccept⟩

/-- A wait for the end of a transfer, after which the FIFO is emptied. -/
theorem conversation_finish (spins : Nat) (events : List (Event Bus.interface))
    (outcome : Outcome Error Unit) (h : (finish spins).Conversation events outcome) :
    (∀ a ∈ accesses events, Waits a) ∧
      (outcome = .ok () ∨ (outcome = .error (.timeout Interrupts.done spins) ∧
        Expires spins (.timeout Interrupts.done spins) (accesses events))) := by
  rcases (Program.conversation_bind _ _ _ _).mp h with ⟨waited, rest, ended, rfl, hwait, hrest⟩
  rcases conversation_waitFor _ _ _ _ hwait with ⟨found, hpolls, rfl⟩
  have hwaits := waits_of_offset (Or.inr rfl) hpolls.offset_eq
  rw [Bus.accesses_append]
  cases found with
  | some status =>
      rcases (Program.conversation_ask _ _ _ _).mp hrest with ⟨_, _, rfl, hdone⟩
      rcases (Program.conversation_done _ _ _).mp hdone with ⟨rfl, rfl⟩
      exact ⟨List.forall_mem_append.mpr ⟨hwaits, List.forall_mem_singleton.mpr (Or.inl rfl)⟩,
        Or.inl rfl⟩
  | none =>
      rcases (Program.conversation_done _ _ _).mp hrest with ⟨rfl, rfl⟩
      rw [Bus.accesses_nil, List.append_nil]
      exact ⟨hwaits, Or.inr ⟨rfl, .status [] _ _ hpolls⟩⟩

end Flash

end BoardSupport
