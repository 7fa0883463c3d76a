import BoardSupport.Proofs.Flash.Bursts
import BoardSupport.Proofs.Flash.Read

/-!
# What a Write Sends

Which bytes a write puts into the FIFO, on every bus.

Command and address are queued before the transfer starts, so they have to leave
the FIFO before the data may enter it. The driver waits for that, empties the FIFO,
and then sends the data in bursts, each behind a reading that the FIFO is empty.

A write may fail at any of its waits, and does nothing after that. So what has been
sent until then is the beginning of the data, and it ends where a burst ends.

## Main definitions

* `Flash.Filled`: Data behind a FIFO that was emptied of its frame.
* `Flash.Sent`: What a write comes to, for the bursts it sent.
* `Flash.Stopped`: How a write ends.

## Theorems

* `Flash.conversation_sendBursts`: Bursts are sent in order, until the FIFO does
  not become empty.
* `Flash.conversation_fill`: What a write goes through once it is started.
* `Flash.writeFlash_sent`: What every write comes to.
-/

namespace BoardSupport

namespace Flash

open Bus (Access Polls accesses)
open Device (Simulated)

/-- Data that are sent in bursts, each right behind a reading that the FIFO is
    empty, after a first such reading and the write that empties it. -/
def Filled (groups : List (List UInt8)) (xs : List Access) : Prop :=
  ∃ waited pointer filling,
    xs = waited ++ .ofRead 32 Offset.fifoPointer pointer ::
      .ofWrite 32 Offset.fifoPointer 0 :: filling ∧
    (∀ a ∈ waited, Waits a) ∧ pointer.toNat % 16 = 0 ∧ Bursts pushed (fun _ => 0) groups filling

/-- What a write comes to, for the bursts it sent. -/
structure Sent (data : List UInt8) (spins : Nat) (groups : List (List UInt8)) (xs : List Access)
    (outcome : Outcome Error Unit) : Prop where
  /-- The transfer is started once, for all of the data. What enters the FIFO from
      there on are the bursts and nothing else. -/
  underway : ∃ before start later, xs = before ++ start :: later ∧
    Underway data.length before start later ∧
    (groups ≠ [] ∨ outcome = .ok () → Filled groups later) ∧
    later.filter (Access.writes Offset.fifoData) = groups.flatten.map pushed
  sizes : ∀ bytes ∈ groups, bytes.length ≤ 8
  /-- What was sent are all of the data or a number of full bursts of them. -/
  whole : groups.flatten = data ∨
    (8 * groups.length ≤ data.length ∧ groups.flatten = data.take (8 * groups.length))
  delivered : outcome = .ok () → groups.flatten = data
  /-- A write that fails ends with the wait that ran out: one for an empty FIFO, or the
      one for the end of the transfer. -/
  failed : ∀ cause, outcome = .error cause →
    cause ∈ [.fifoLevel 0 spins, .timeout Interrupts.done spins] ∧ Expires spins cause xs
  ends : outcome ≠ .fault

section Send

/-- How a write ends: everything was sent, or a wait ran out. -/
def Stopped (spins : Nat) (unsent : List (List UInt8)) (xs : List Access)
    (outcome : Outcome Error Unit) : Prop :=
  (outcome = .ok () ∧ unsent = []) ∨
    ∃ cause, outcome = .error cause ∧
      cause ∈ [.fifoLevel 0 spins, .timeout Interrupts.done spins] ∧ Expires spins cause xs

-- What goes before does not matter.
theorem stopped_append {spins : Nat} {unsent : List (List UInt8)} {xs : List Access}
    {outcome : Outcome Error Unit} (before : List Access) (h : Stopped spins unsent xs outcome) :
    Stopped spins unsent (before ++ xs) outcome := by
  rcases h with hok | ⟨cause, houtcome, hcause, hexpires⟩
  · exact Or.inl hok
  · exact Or.inr ⟨cause, houtcome, hcause, hexpires.prepend before⟩

-- A wait for an empty FIFO that ran out.
theorem stopped_of_polls {spins : Nat} (unsent : List (List UInt8)) {xs : List Access}
    (h : Polls 32 Offset.fifoPointer (fun pointer => pointer.toNat % 16 == 0) spins xs none) :
    Stopped spins unsent xs (.error (.fifoLevel 0 spins)) :=
  Or.inr ⟨_, rfl, List.mem_cons_self, .level [] xs 0 h⟩

/-- Bursts are sent in order, until the FIFO does not become empty. -/
theorem conversation_sendBursts (spins : Nat) (pieces : List (List UInt8))
    (events : List (Event Bus.interface)) (outcome : Outcome Error Unit)
    (h : (Program.forEach (sendBurst spins) pieces).Conversation events outcome) :
    ∃ groups unsent, pieces = groups ++ unsent ∧
      Bursts pushed (fun _ => 0) groups (accesses events) ∧
      Stopped spins unsent (accesses events) outcome := by
  -- Induction on the pieces: a burst that was sent is in front of those of the
  -- rest.
  induction pieces generalizing events with
  | nil =>
      rcases (Program.conversation_done _ _ _).mp h with ⟨rfl, rfl⟩
      exact ⟨[], [], rfl, .nil, Or.inl ⟨rfl, rfl⟩⟩
  | cons piece pieces ih =>
      rcases (Program.conversation_bind _ _ _ _).mp h with ⟨first, later, _, rfl, hfirst, hlater⟩
      rcases (Program.conversation_bind _ _ _ _).mp hfirst
        with ⟨waited, pushing, _, rfl, hwait, hpush⟩
      rcases conversation_waitFifoLevel 0 spins _ _ hwait with ⟨found, hpolls, rfl⟩
      cases found with
      | none =>
          rcases (Program.conversation_done _ _ _).mp hpush with ⟨rfl, rfl⟩
          rcases (Program.conversation_done _ _ _).mp hlater with ⟨rfl, rfl⟩
          rw [List.append_nil, List.append_nil]
          exact ⟨[], piece :: pieces, rfl,
            .still _ (waits_of_offset (Or.inl rfl) hpolls.offset_eq), stopped_of_polls _ hpolls⟩
      | some pointer =>
          rcases conversation_pushFifo piece _ _ hpush with ⟨rfl, rfl⟩
          rcases ih later hlater with ⟨groups, unsent, rfl, hbursts, hstopped⟩
          rcases ready_of_polls hpolls with ⟨before, hwaited, hbefore, hempty⟩
          refine ⟨piece :: groups, unsent, rfl, ?_, ?_⟩
          · rw [Bus.accesses_append, Bus.accesses_append, hwaited, accesses_push, List.append_assoc,
              List.append_assoc]
            exact .burst before pointer piece groups _ hbefore hempty hbursts
          · rw [Bus.accesses_append]
            exact stopped_append _ hstopped

/-- Bursts are sent, and then the end of the transfer is waited for. -/
theorem conversation_sendAll (spins : Nat) (pieces : List (List UInt8)) (message : String)
    (events : List (Event Bus.interface)) (outcome : Outcome Error Unit)
    (h : ((Program.forEach (sendBurst spins) pieces).bind fun _ =>
      (finish spins).bind fun _ => say .trace message).Conversation events outcome) :
    ∃ groups unsent, pieces = groups ++ unsent ∧
      Bursts pushed (fun _ => 0) groups (accesses events) ∧
      Stopped spins unsent (accesses events) outcome := by
  rcases (Program.conversation_bind _ _ _ _).mp h with ⟨first, rest, ended, rfl, hfirst, hrest⟩
  rcases conversation_sendBursts spins pieces first ended hfirst
    with ⟨groups, unsent, hpieces, hbursts, hstopped⟩
  refine ⟨groups, unsent, hpieces, ?_⟩
  rcases hstopped with ⟨rfl, hall⟩ | ⟨cause, rfl, hcause, hexpires⟩
  · rcases (Program.conversation_bind (finish spins) _ _ _).mp hrest
      with ⟨finishing, saying, _, rfl, hfinish, hsay⟩
    rw [Bus.accesses_append]
    rcases conversation_finish spins finishing _ hfinish with ⟨hwaits, rfl | ⟨rfl, hexpires⟩⟩
    · rcases conversation_say .trace message saying outcome hsay with ⟨hsilent, rfl⟩
      rw [Bus.accesses_append, hsilent, List.append_nil]
      exact ⟨hbursts.append _ hwaits, Or.inl ⟨rfl, hall⟩⟩
    · rcases (Program.conversation_done _ _ _).mp hsay with ⟨rfl, rfl⟩
      rw [List.append_nil]
      exact ⟨hbursts.append _ hwaits, Or.inr ⟨_, rfl,
        List.mem_cons_of_mem _ List.mem_cons_self, hexpires.prepend _⟩⟩
  · rcases (Program.conversation_done _ _ _).mp hrest with ⟨rfl, rfl⟩
    rw [List.append_nil]
    exact ⟨hbursts, Or.inr ⟨cause, rfl, hcause, hexpires⟩⟩

/-- Data behind an emptied FIFO are data in bursts. -/
theorem bursts_of_filled {groups : List (List UInt8)} {xs : List Access} (h : Filled groups xs) :
    Bursts pushed (fun _ => 0) groups xs := by
  rcases h with ⟨waited, pointer, filling, rfl, hwaited, -, hbursts⟩
  have hopening : ∀ a ∈ [Access.ofRead 32 Offset.fifoPointer pointer,
      .ofWrite 32 Offset.fifoPointer 0], Waits a :=
    List.forall_mem_cons.mpr ⟨Or.inl rfl, List.forall_mem_singleton.mpr (Or.inl rfl)⟩
  exact (hbursts.wait _ hopening).wait _ hwaited

/-- What a write goes through once it is started. -/
theorem conversation_fill (spins : Nat) (pieces : List (List UInt8)) (message : String)
    (events : List (Event Bus.interface)) (outcome : Outcome Error Unit)
    (h : ((waitFifoLevel 0 spins).bind fun _ => (Bus.write 32 Offset.fifoPointer 0).bind fun _ =>
      (Program.forEach (sendBurst spins) pieces).bind fun _ =>
        (finish spins).bind fun _ => say .trace message).Conversation events outcome) :
    ∃ groups unsent, pieces = groups ++ unsent ∧
      Bursts pushed (fun _ => 0) groups (accesses events) ∧
      (groups ≠ [] ∨ outcome = .ok () → Filled groups (accesses events)) ∧
      Stopped spins unsent (accesses events) outcome := by
  rcases (Program.conversation_bind _ _ _ _).mp h with ⟨first, rest, ended, rfl, hwait, hrest⟩
  rcases conversation_waitFifoLevel 0 spins first ended hwait with ⟨found, hpolls, rfl⟩
  cases found with
  | none =>
      rcases (Program.conversation_done _ _ _).mp hrest with ⟨rfl, rfl⟩
      rw [List.append_nil]
      refine ⟨[], pieces, rfl, .still _ (waits_of_offset (Or.inl rfl) hpolls.offset_eq), ?_,
        stopped_of_polls _ hpolls⟩
      rintro (hnone | hok)
      · exact absurd rfl hnone
      · cases hok
  | some pointer =>
      rcases (Program.conversation_ask _ _ _ _).mp hrest with ⟨_, later, rfl, hlater⟩
      rcases conversation_sendAll spins pieces message later outcome hlater
        with ⟨groups, unsent, hpieces, hbursts, hstopped⟩
      rcases ready_of_polls hpolls with ⟨before, hwaited, hbefore, hempty⟩
      rw [Bus.accesses_append]
      have hfilled : Filled groups
          (accesses first ++ .ofWrite 32 Offset.fifoPointer 0 :: accesses later) := by
        rw [hwaited, List.append_assoc]
        exact ⟨before, pointer, accesses later, rfl, hbefore, hempty, hbursts⟩
      have hwhole := stopped_append
        (accesses first ++ [.ofWrite 32 Offset.fifoPointer 0]) hstopped
      rw [List.append_assoc] at hwhole
      exact ⟨groups, unsent, hpieces, bursts_of_filled hfilled, fun _ => hfilled, hwhole⟩

end Send

section Write

variable (data : List UInt8) (spins : Nat) (groups unsent : List (List UInt8))

/-- What was sent of the pieces of some data are all of the data or full bursts. -/
theorem flatten_of_chunks (h : Bytes.chunks fifoDepth data = groups ++ unsent) :
    groups.flatten = data ∨
      (8 * groups.length ≤ data.length ∧ groups.flatten = data.take (8 * groups.length)) := by
  have hgroups : groups = (Bytes.chunks fifoDepth data).take groups.length := by
    rw [h, List.take_left]
  have hflatten : groups.flatten = data.take (8 * groups.length) := by
    rw [hgroups, flatten_take_chunks, ← hgroups]
    rfl
  by_cases hall : 8 * groups.length ≤ data.length
  · exact Or.inr ⟨hall, hflatten⟩
  · rw [hflatten, List.take_of_length_le (Nat.le_of_not_le hall)]
    exact Or.inl rfl

/-- A write that was launched, then sent its bursts, and stopped. -/
theorem sent_launched (template current : BitVec 32) (frame : List UInt8)
    (rest : List (Event Bus.interface)) (outcome : Outcome Error Unit)
    (hdata : data.length < UInt32.size) (hpieces : Bytes.chunks fifoDepth data = groups ++ unsent)
    (hbursts : Bursts pushed (fun _ => 0) groups (accesses rest))
    (hfilled : groups ≠ [] ∨ outcome = .ok () → Filled groups (accesses rest))
    (hstopped : Stopped spins unsent (accesses rest) outcome) :
    Sent data spins groups (accesses (launching template current frame data.length ++ rest))
      outcome := by
  have hunderway := underway_launching template current frame _ hdata _
    (hbursts.offset_eq fun _ => rfl)
  have hpushed := hbursts.filter_eq (Access.writes Offset.fifoData) writes_of_waits fun _ => rfl
  refine ⟨⟨_, _, _, accesses_launching template current frame _ rest, hunderway, hfilled, hpushed⟩,
    fun bytes hbytes => ?_, flatten_of_chunks data groups unsent hpieces, ?_, ?_, ?_⟩
  · refine Bytes.length_le_of_mem_chunks fifoDepth (by decide) data bytes ?_
    rw [hpieces]
    exact List.mem_append_left _ hbytes
  · rintro rfl
    rcases hstopped with ⟨-, rfl⟩ | ⟨_, hfail, -⟩
    · rw [List.append_nil] at hpieces
      rw [← hpieces, flatten_chunks]
    · cases hfail
  · rintro cause rfl
    rcases hstopped with ⟨hok, -⟩ | ⟨_, hfail, hcause, hexpires⟩
    · cases hok
    · cases hfail
      rw [Bus.accesses_append]
      exact ⟨hcause, hexpires.prepend _⟩
  · rcases hstopped with ⟨rfl, -⟩ | ⟨_, rfl, -⟩
    · nofun
    · nofun

omit groups unsent in
/-- A write is started, sends its bursts and stops. -/
theorem conversation_writeFlash (opcode : UInt8) (address : UInt32) (count : Nat)
    (hcount : count ≤ 4) (hdata : data.length < UInt32.size) (events : List (Event Bus.interface))
    (outcome : Outcome Error Unit)
    (h : (writeFlash opcode address count data spins).Conversation events outcome) :
    ∃ template current rest groups unsent,
      events = launching template current (opcode :: Bytes.bigEndian count address.toNat)
        data.length ++ rest ∧
      Bytes.chunks fifoDepth data = groups ++ unsent ∧
      Bursts pushed (fun _ => 0) groups (accesses rest) ∧
      (groups ≠ [] ∨ outcome = .ok () → Filled groups (accesses rest)) ∧
      Stopped spins unsent (accesses rest) outcome := by
  have hpreset : ∃ template, Transfer.flashWrite count = .ok template := exists_flash hcount _
  rcases hpreset with ⟨template, htemplate⟩
  rw [writeFlash, htemplate] at h
  rcases conversation_launch template opcode address count data.length hdata _ events outcome h
    with ⟨current, rest, rfl, hnext⟩
  rcases conversation_fill spins _ _ rest outcome hnext with ⟨groups, unsent, hfill⟩
  exact ⟨template, current, rest, groups, unsent, rfl, hfill⟩

end Write

/-- What every write comes to, whatever the bus answers. -/
theorem writeFlash_sent {σ : Type} (machine : Machine Bus.interface σ) (s : σ) (opcode : UInt8)
    (address : UInt32) (count : Nat) (data : List UInt8) (spins : Nat) (hcount : count ≤ 4)
    (hdata : data.length ≤ 0xFFFFFFFF) :
    ∃ groups, Sent data spins groups
      (accesses ((writeFlash opcode address count data spins).run machine.recorded
        (.start s)).2.events)
      ((writeFlash opcode address count data spins).run machine.recorded (.start s)).1 := by
  have hlength : data.length < UInt32.size := Nat.lt_succ_of_le hdata
  have hc := (machine.conversation_recorded (writeFlash opcode address count data spins) s).1
  rcases conversation_writeFlash data spins opcode address count hcount hlength _ _ hc
    with ⟨template, current, rest, groups, unsent, hevents, hpieces, hbursts, hfilled, hstopped⟩
  rw [hevents]
  exact ⟨groups, sent_launched data spins groups unsent template current _ rest _ hlength hpieces
    hbursts hfilled hstopped⟩

/-- A device whose FIFO is empty twice, and then never again. -/
def clogging : Simulated :=
  Simulated.script ⟨.empty, ∅, .flash ⟨[], 3, false, 0⟩⟩ Offset.fifoPointer [0, 0]

theorem writeFlash_sent_clogging :
    (∃ groups, Sent [1, 2, 3, 4, 5, 6, 7, 8] 10 groups
      (accesses ((writeFlash 0x02 0x123456 3 [1, 2, 3, 4, 5, 6, 7, 8] 10).run
        Device.simulated.machine.recorded (.start clogging)).2.events) (.ok ())) ∧
    ∃ groups, Sent [1, 2, 3, 4, 5, 6, 7, 8, 9] 10 groups
      (accesses ((writeFlash 0x02 0x123456 3 [1, 2, 3, 4, 5, 6, 7, 8, 9] 10).run
        Device.simulated.machine.recorded (.start clogging)).2.events)
      (.error (.fifoLevel 0 10)) := by
  have hok : ((writeFlash 0x02 0x123456 3 [1, 2, 3, 4, 5, 6, 7, 8] 10).run
      Device.simulated.machine.recorded (.start clogging)).1 = .ok () := by
    decide +kernel
  have hfail : ((writeFlash 0x02 0x123456 3 [1, 2, 3, 4, 5, 6, 7, 8, 9] 10).run
      Device.simulated.machine.recorded (.start clogging)).1 = .error (.fifoLevel 0 10) := by
    decide +kernel
  rw [← hok, ← hfail]
  exact ⟨writeFlash_sent Device.simulated.machine clogging 0x02 0x123456 3
      [1, 2, 3, 4, 5, 6, 7, 8] 10 (by decide) (by decide),
    writeFlash_sent Device.simulated.machine clogging 0x02 0x123456 3
      [1, 2, 3, 4, 5, 6, 7, 8, 9] 10 (by decide) (by decide)⟩

end Flash

end BoardSupport
