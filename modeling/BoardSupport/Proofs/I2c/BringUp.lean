import BoardSupport.Proofs.I2c.Orderly
import BoardSupport.Proofs.Register.Field

/-!
# What a Started Controller Has Shown

Success on a bus that may answer anything.

Nothing is assumed about the device, so the depth that starting reports has to
be justified by the accesses alone. The depth is a count of bytes that were
each followed by a silent interrupt status, up to one that was followed by the
overflow and nothing else. The transfer counter has shown that it counts one
byte more, and the last look at the interrupt mask found every source masked.

The parts of starting that only set up write no data and do not measure the
counter. So each of these answers comes from one part, and the others can be
left out.

## Main definitions

* `I2c.Idle`: Events without data and without measuring the counter.
* `I2c.Probed`: What the accesses of a start show about the depth.
* `I2c.Sound`: What is promised of a session.

## Theorems

* `I2c.Controller.fillFifo_ok`: The answers to the bytes of a probe.
* `I2c.Controller.start_ok`: What a successful start has shown.
* `I2c.service_sound`: Every session is sound, on any machine.
-/

namespace BoardSupport

namespace I2c

open Bus (Access accesses following readEvent writeEvent)
open Program (conversation_bind_ok conversation_mapError_ok conversation_onError_ok)

/-- A write of ones to the transfer size register, which measures the counter. -/
def measures (a : Access) : Bool :=
  a.writes Offset.transferSize && a.value == 0xFFFF

/-- No data are written, and the transfer counter is not measured. -/
def Idle (events : List (Event Bus.interface)) : Prop :=
  ∀ a ∈ accesses events, a.writes Offset.data = false ∧ measures a = false

theorem tolerates_idle : Tolerates Idle where
  composes := Bus.composes_accesses _
  read _ _ _ := Bus.forall_read ⟨rfl, rfl⟩
  write offset value _ hsetup := by
    refine Bus.forall_write ⟨beq_eq_false_iff_ne.mpr hsetup.2.1, ?_⟩
    by_cases hsize : offset = Offset.transferSize
    · -- The counter may be cleared, but not with ones.
      have hvalue : value.toNat ≠ 0xFFFF := fun h =>
        hsetup.2.2 hsize (BitVec.eq_of_toNat_eq h)
      rw [measures, Bool.and_eq_false_iff]
      exact Or.inr (beq_eq_false_iff_ne.mpr hvalue)
    · rw [measures, Bool.and_eq_false_iff]
      exact Or.inl (beq_eq_false_iff_ne.mpr hsize)
  acknowledge value :=
    (Bus.composes_accesses _).append [readEvent 16 Offset.interruptStatus value] _
      (Bus.forall_read ⟨rfl, rfl⟩) (Bus.forall_write ⟨rfl, rfl⟩)
  log _ _ a ha := absurd ha List.not_mem_nil

/-- What the first look at the interrupt status showed after each byte of
    data. -/
def afterData (xs : List Access) : List (Option Nat) :=
  following (Access.writes Offset.data) (Access.reads Offset.interruptStatus) xs

/-- What was read back after the transfer counter was measured. -/
def afterMeasuring (xs : List Access) : List (Option Nat) :=
  following measures (Access.reads Offset.transferSize) xs

/-- What the interrupt mask showed when it was last looked at. -/
def lastMask (xs : List Access) : Option Nat :=
  (xs.filter (Access.reads Offset.interruptMask)).getLast?.map Access.value

/-- What the accesses of a successful start show about the depth it found: so
    many bytes were followed by silence and one more by the overflow alone, the
    counter counts one byte more, and in the end every source is masked. -/
structure Probed (depth : Nat) (xs : List Access) : Prop where
  dataWrites : xs.countP (Access.writes Offset.data) = depth + 1
  overflow : afterData xs = List.replicate depth (some 0) ++ [some 0x40]
  counted : ∃ size, afterMeasuring xs = [some size] ∧ depth + 1 ≤ size
  masked : lastMask xs = some 0x02FF

/-- The answers to the data and to the measuring among some events. -/
structure Answers (data measured : List (Option Nat)) (events : List (Event Bus.interface)) :
    Prop where
  data : afterData (accesses events) = data
  measured : afterMeasuring (accesses events) = measured

-- Setting up asks neither.
theorem answers_idle (events : List (Event Bus.interface)) (h : Idle events) :
    Answers [] [] events :=
  ⟨Bus.following_eq_nil _ _ _ fun a ha => (h a ha).1,
    Bus.following_eq_nil _ _ _ fun a ha => (h a ha).2⟩

theorem answers_append {data data' measured measured' : List (Option Nat)}
    (first rest : List (Event Bus.interface)) (hd : none ∉ data) (hm : none ∉ measured)
    (hf : Answers data measured first) (hr : Answers data' measured' rest) :
    Answers (data ++ data') (measured ++ measured') (first ++ rest) := by
  have hd' : none ∉ afterData (accesses first) := hf.data ▸ hd
  have hm' : none ∉ afterMeasuring (accesses first) := hf.measured ▸ hm
  refine ⟨?_, ?_⟩
  · rw [Bus.accesses_append, ← hf.data, ← hr.data]
    exact Bus.following_append _ _ _ _ hd'
  · rw [Bus.accesses_append, ← hf.measured, ← hr.measured]
    exact Bus.following_append _ _ _ _ hm'

theorem answers_idle_append {data measured : List (Option Nat)}
    (first rest : List (Event Bus.interface)) (hf : Idle first) (hr : Answers data measured rest) :
    Answers data measured (first ++ rest) :=
  answers_append first rest List.not_mem_nil List.not_mem_nil (answers_idle first hf) hr

/-- A byte of data, and the acknowledgement of what it raised. -/
def byteEvents (raised : BitVec 16) : List (Event Bus.interface) :=
  [writeEvent 16 Offset.data 0, readEvent 16 Offset.interruptStatus raised,
    writeEvent 16 Offset.interruptStatus raised]

-- With the overflow set aside a set is empty only if there was nothing else in
-- it.
theorem eq_of_isEmpty_withoutOverflow (set : BitVec 16)
    (h : Interrupts.isEmpty (Interrupts.withoutOverflow set) = true) :
    set = if Interrupts.txOvf.isSet set then 0x40 else 0 := by
  have hput : Interrupts.txOvf.put 0 set = 0 := beq_iff_eq.mp h
  by_cases hset : Interrupts.txOvf.isSet set = true
  · have hone : Interrupts.txOvf.put 1 set = Interrupts.txOvf.put 1 0 := by
      rw [← hput, Register.Field.put_put]
    have hsame : Interrupts.txOvf.put 1 set = set :=
      Register.put_isSet_flag "tx_ovf" 6 set true hset
    rw [if_pos hset, ← hsame, hone]
    decide
  · have hsame : Interrupts.txOvf.put 0 set = set :=
      Register.put_zero_flag "tx_ovf" 6 set (Bool.eq_false_iff.mpr hset)
    rw [if_neg hset, ← hsame, hput]

-- Looks before the last one do not matter.
theorem lastMask_append (first rest : List (Event Bus.interface)) (value : Nat)
    (h : lastMask (accesses rest) = some value) :
    lastMask (accesses (first ++ rest)) = some value := by
  rcases Option.map_eq_some_iff.mp h with ⟨a, ha, hvalue⟩
  rw [lastMask, Bus.accesses_append, List.filter_append, List.getLast?_append, ha]
  exact congrArg some hvalue

namespace Controller

variable (c : Controller)

/-- A byte of a probe that goes on was followed by silence, and one that ends
    it by the overflow alone. -/
theorem fillFifo_byte (tries accepted depth : Nat) (events : List (Event Bus.interface))
    (h : (c.fillFifo accepted (tries + 1)).Conversation events (.ok depth)) :
    (events = byteEvents 0x40 ∧ depth = accepted) ∨
      ∃ rest, events = byteEvents 0 ++ rest ∧
        (c.fillFifo (accepted + 1) tries).Conversation rest (.ok depth) := by
  rcases (Program.conversation_ask _ _ _ _).mp h with ⟨_, _, rfl, hack⟩
  rcases (Program.conversation_ask _ _ _ _).mp hack with ⟨set, _, rfl, hclear⟩
  rcases (Program.conversation_ask _ _ _ _).mp hclear with ⟨_, rest, rfl, hrest⟩
  change Program.Conversation
    (if (!Interrupts.isEmpty (Interrupts.withoutOverflow set)) = true then _
      else if Interrupts.txOvf.isSet set = true then pure accepted
      else c.fillFifo (accepted + 1) tries) rest (.ok depth) at hrest
  by_cases hempty : Interrupts.isEmpty (Interrupts.withoutOverflow set) = true
  · have hset := eq_of_isEmpty_withoutOverflow set hempty
    rw [hempty, Bool.not_true, if_neg Bool.false_ne_true] at hrest
    by_cases hovf : Interrupts.txOvf.isSet set = true
    · rw [if_pos hovf] at hrest hset
      rcases (Program.conversation_done _ _ _).mp hrest with ⟨rfl, hdepth⟩
      cases hdepth
      rw [hset]
      exact Or.inl ⟨rfl, rfl⟩
    · rw [if_neg hovf] at hrest hset
      rw [hset]
      exact Or.inr ⟨rest, rfl, hrest⟩
  · -- Another interrupt, and no depth is delivered.
    rw [if_pos (by rw [Bool.eq_false_iff.mpr hempty]; rfl)] at hrest
    exact absurd hrest (Program.not_ok_of_bind_fail _ _ _ _)

/-- A probe that succeeds found silence after every byte but the last. -/
theorem fillFifo_ok (tries accepted depth : Nat) (events : List (Event Bus.interface))
    (h : (c.fillFifo accepted tries).Conversation events (.ok depth)) :
    accepted ≤ depth ∧
      Answers (List.replicate (depth - accepted) (some 0) ++ [some 0x40]) [] events := by
  -- Induction on the tries: each byte that is followed by silence is one more
  -- in the count.
  induction tries generalizing accepted events with
  | zero => cases ((Program.conversation_done _ _ _).mp h).2
  | succ tries ih =>
      rcases fillFifo_byte c tries accepted depth events h with ⟨rfl, rfl⟩ | ⟨rest, rfl, hrest⟩
      · rw [Nat.sub_self]
        exact ⟨Nat.le_refl _, rfl, rfl⟩
      · rcases ih _ _ hrest with ⟨hle, hanswers⟩
        have hcount : depth - accepted = (depth - (accepted + 1)) + 1 := by omega
        have hbyte : Answers [some 0] [] (byteEvents 0) := ⟨rfl, rfl⟩
        have hboth := answers_append _ _ (by decide) List.not_mem_nil hbyte hanswers
        rw [hcount]
        exact ⟨Nat.le_of_succ_le hle, hboth⟩

theorem probeFifo_ok (depth : Nat) (events : List (Event Bus.interface))
    (h : c.probeFifo.Conversation events (.ok depth)) :
    Answers (List.replicate depth (some 0) ++ [some 0x40]) [] events := by
  have hP := tolerates_idle
  rcases (keeps_control hP.toObserves (E := fun _ => True)).split h
    with ⟨_, _, cr, rfl, hidle₁, -, hset⟩
  rcases (keeps_set hP (E := fun _ => True) Offset.control _ (by decide)).split hset
    with ⟨_, _, _, rfl, hidle₂, -, hack⟩
  rcases (keeps_acknowledge hP (E := fun _ => True)).split hack
    with ⟨_, _, _, rfl, hidle₃, -, hclear⟩
  rcases (keeps_clearFifo hP c).split hclear with ⟨_, _, _, rfl, hidle₄, -, hfill⟩
  refine answers_idle_append _ _ hidle₁ (answers_idle_append _ _ hidle₂
    (answers_idle_append _ _ hidle₃ (answers_idle_append _ _ hidle₄ ?_)))
  exact (fillFifo_ok c _ 0 depth _ hfill).2

/-- The longest transfer is what was read back after the counter was
    measured. -/
theorem probeMaxTransfer_ok (size : Nat) (events : List (Event Bus.interface))
    (h : c.probeMaxTransfer.Conversation events (.ok size)) :
    Answers [] [some size] events := by
  have hP := tolerates_idle
  have hzero : Idle [writeEvent 16 Offset.transferSize 0] := Bus.forall_write (by decide)
  rcases (keeps_control hP.toObserves (E := fun _ => True)).split h
    with ⟨_, _, cr, rfl, hidle₁, -, hset⟩
  rcases (keeps_set hP (E := fun _ => True) Offset.control _ (by decide)).split hset
    with ⟨_, _, _, rfl, hidle₂, -, hsize⟩
  rcases (Bus.keeps_write (E := fun _ => True) 16 Offset.transferSize 0 hzero).split hsize
    with ⟨_, _, _, rfl, hidle₃, -, hack⟩
  rcases (keeps_acknowledge hP (E := fun _ => True)).split hack
    with ⟨_, _, _, rfl, hidle₄, -, hclear⟩
  rcases (keeps_clearFifo hP c).split hclear with ⟨_, _, _, rfl, hidle₅, -, hmeasure⟩
  refine answers_idle_append _ _ hidle₁ (answers_idle_append _ _ hidle₂
    (answers_idle_append _ _ hidle₃ (answers_idle_append _ _ hidle₄
      (answers_idle_append _ _ hidle₅ ?_))))
  -- What is left are the two accesses by which the counter is measured.
  rcases (Program.conversation_ask _ _ _ _).mp hmeasure with ⟨_, _, rfl, hread⟩
  rcases (Program.conversation_ask _ _ _ _).mp hread with ⟨answer, _, rfl, hdone⟩
  rcases (Program.conversation_done _ _ _).mp hdone with ⟨rfl, hvalue⟩
  cases hvalue
  exact ⟨rfl, rfl⟩

/-- A reset that succeeds has last seen every source masked. -/
theorem reset_ok (events : List (Event Bus.interface))
    (h : c.reset.Conversation events (.ok ())) : lastMask (accesses events) = some 0x02FF := by
  rcases conversation_bind_ok _ _ _ _ h with ⟨_, _, _, rfl, -, hclear⟩
  rcases conversation_bind_ok _ _ _ _ hclear with ⟨_, _, _, rfl, -, htimeout⟩
  rcases conversation_bind_ok _ _ _ _ htimeout with ⟨_, _, _, rfl, -, henable⟩
  rcases conversation_bind_ok _ _ _ _ henable with ⟨_, _, _, rfl, -, hdisable⟩
  rcases conversation_bind_ok _ _ _ _ hdisable with ⟨_, _, _, rfl, -, hmask⟩
  refine lastMask_append _ _ _ (lastMask_append _ _ _ (lastMask_append _ _ _
    (lastMask_append _ _ _ (lastMask_append _ _ _ ?_))))
  rcases (Program.conversation_ask _ _ _ _).mp hmask with ⟨mask, rest, rfl, hrest⟩
  change Program.Conversation (if mask = allInterrupts then _ else _) rest (.ok ()) at hrest
  by_cases hall : mask = allInterrupts
  · rw [if_pos hall] at hrest
    rcases (Program.conversation_ask _ _ _ _).mp hrest with ⟨pending, _, rfl, hack⟩
    rcases (Program.conversation_ask _ _ _ _).mp hack with ⟨_, _, rfl, hdone⟩
    rcases (Program.conversation_done _ _ _).mp hdone with ⟨rfl, _⟩
    rw [hall]
    rfl
  · rw [if_neg hall] at hrest
    exact absurd hrest (Program.not_ok_of_bind_fail _ _ _ _)

/-- What a successful start has shown about the depth it delivers. -/
theorem start_ok (found : Controller) (events : List (Event Bus.interface))
    (h : c.start.Conversation events (.ok found)) : Probed found.fifoSize (accesses events) := by
  have hP := tolerates_idle
  unfold start at h
  simp only at h
  split at h
  · exact absurd h (Program.not_ok_of_bind_fail _ _ _ _)
  -- One part after the other: the reset, the probe, a message, the measuring, a
  -- message, and the reset again.
  rcases conversation_bind_ok _ _ _ _ h with ⟨e₁, _, _, rfl, hreset, hprobe⟩
  rcases conversation_bind_ok _ _ _ _ hprobe with ⟨e₂, _, depth, rfl, hprobed, hsay⟩
  rcases conversation_bind_ok _ _ _ _ hsay with ⟨e₃, _, _, rfl, hsaid, hmeasure⟩
  rcases conversation_bind_ok _ _ _ _ hmeasure with ⟨e₄, _, size, rfl, hmeasured, hsay'⟩
  rcases conversation_bind_ok _ _ _ _ hsay' with ⟨e₅, _, _, rfl, hsaid', hlast⟩
  split at hlast
  · exact absurd hlast (Program.not_ok_of_bind_fail _ _ _ _)
  rename_i hsize
  rcases conversation_bind_ok _ _ _ _ hlast with ⟨e₆, _, _, rfl, hreset', hdone⟩
  rcases (Program.conversation_done _ _ _).mp hdone with ⟨rfl, hfound⟩
  cases hfound
  rw [List.append_nil]
  have hidle₁ := (keeps_reset hP c e₁ _ (conversation_mapError_ok _ _ _ _ hreset)).1
  have hdata := probeFifo_ok c depth e₂
    (conversation_onError_ok _ _ _ _ (conversation_mapError_ok _ _ _ _ hprobed))
  have hidle₃ := (keeps_say hP.toObserves c _ _ (E := fun _ => True) e₃ _ hsaid).1
  have hcounter := probeMaxTransfer_ok c size e₄ (conversation_mapError_ok _ _ _ _ hmeasured)
  have hidle₅ := (keeps_say hP.toObserves c _ _ (E := fun _ => True) e₅ _ hsaid').1
  have hreset₆ := conversation_mapError_ok _ _ _ _ hreset'
  have hidle₆ := (keeps_reset hP c e₆ _ hreset₆).1
  have hanswers : Answers (List.replicate depth (some 0) ++ [some 0x40]) [some size]
      (e₁ ++ (e₂ ++ (e₃ ++ (e₄ ++ (e₅ ++ e₆))))) := by
    have hlater : Answers [] [some size] (e₃ ++ (e₄ ++ (e₅ ++ e₆))) :=
      answers_idle_append _ _ hidle₃ (answers_append _ _ List.not_mem_nil (by simp) hcounter
        (answers_idle_append _ _ hidle₅ (answers_idle e₆ hidle₆)))
    have hboth := answers_append e₂ _ (by simp) List.not_mem_nil hdata hlater
    rw [List.append_nil] at hboth
    exact answers_idle_append _ _ hidle₁ hboth
  refine ⟨?_, hanswers.data, ⟨size, hanswers.measured, Nat.le_of_not_lt hsize⟩, ?_⟩
  · -- There are as many bytes as answers to them.
    have hlen := congrArg List.length hanswers.data
    rw [afterData, Bus.length_following] at hlen
    simpa using hlen
  · exact lastMask_append _ _ _ (lastMask_append _ _ _ (lastMask_append _ _ _
      (lastMask_append _ _ _ (lastMask_append _ _ _ (reset_ok c e₆ hreset₆)))))

end Controller

/-- What is promised of a session, whatever the bus answers. No call ends by a
    failed assertion and no depth beyond the probe is ever reported. Throughout
    the session the registers are used in order, and every successful start has
    shown the depth it found. -/
structure Sound (turns : List (Service.Turn Bus.interface Controller Call Controller.Failure
    (Reply × Controller))) : Prop where
  ends : ∀ t ∈ turns, t.outcome ≠ .fault
  bounded : ∀ t ∈ turns, t.kept.fifoSize ≤ 32
  orderly : Orderly (Service.events turns)
  started : ∀ t ∈ turns, t.call = .start → ∀ reply, t.outcome = .ok reply →
    Probed t.kept.fifoSize (accesses t.asked)

/-- A session is sound on every machine, from every state of it, and however
    the calls follow each other. -/
theorem service_sound {σ : Type} (machine : Machine Bus.interface σ) (s : σ) (install : Install)
    (spinLimit : Nat) (calls : List Call) :
    Sound (service.turns machine (Controller.new install spinLimit) s calls) := by
  have hturns := service.forall_turns (fun c => c.fifoSize ≤ maxFifoProbe)
    (fun t => t.outcome ≠ .fault ∧ t.kept.fifoSize ≤ maxFifoProbe ∧ Orderly t.asked ∧
      (t.call = .start → ∀ reply, t.outcome = .ok reply →
        Probed t.kept.fifoSize (accesses t.asked)))
    (fun c call events outcome hc h => ?_) machine (Controller.new install spinLimit) s calls
    (Nat.zero_le maxFifoProbe)
  · exact {
      ends := fun t ht => (hturns t ht).1
      bounded := fun t ht => (hturns t ht).2.1
      orderly := Service.holds_events composes_orderly _ fun t ht => (hturns t ht).2.2.1
      started := fun t ht => (hturns t ht).2.2.2 }
  -- One call on a controller whose depth is within the probe.
  rcases Controller.keeps_serve c call hc events outcome h with ⟨horderly, hwithin⟩
  have hkept : (c.after outcome).fifoSize ≤ maxFifoProbe := by
    cases outcome with
    | ok reply => exact hwithin
    | error failure => exact hwithin
    | fault => exact hwithin.elim
  refine ⟨hkept, fun hfault => ?_, hkept, horderly, fun hcall reply hok => ?_⟩
  · subst hfault
    exact hwithin
  · subst hcall hok
    rcases conversation_bind_ok _ _ _ _ h with ⟨first, _, found, rfl, hstart, hdone⟩
    rcases (Program.conversation_done _ _ _).mp hdone with ⟨rfl, hreply⟩
    cases hreply
    rw [List.append_nil]
    exact Controller.start_ok c found first hstart

end I2c

end BoardSupport
