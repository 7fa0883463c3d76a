import BoardSupport.Proofs.Flash.Bursts
import BoardSupport.Proofs.Flash.Read

/-!
# What a Read Receives

Where the bytes of a read come from and where they go, on every bus.

A read takes its bytes from the FIFO in bursts, each behind a reading of exactly
its size. What it delivers is the beginning of what it took, so nothing is lost,
taken twice or out of order. A read may fail at any of its waits. The bursts
until then have come whole, and the buffer has as much of them as fits.

The controller is asked for a full FIFO at least. What goes beyond the buffer is
taken like the rest and dropped at the end.

## Main definitions

* `Flash.Received`: What a read comes to, for the bursts it received.

## Theorems

* `Flash.conversation_popOnto`: Bytes are taken in order.
* `Flash.conversation_receive`: Bursts are received in order, until one is
  missing.
* `Flash.conversation_readFlash`: What a read goes through.
* `Flash.readFlash_received`: What every read comes to.
-/

namespace BoardSupport

namespace Flash

open Bus (Access accesses)

/-- What a read into a buffer comes to, for the bursts it received. -/
structure Received (out : List UInt8) (spins : Nat) (groups : List (List UInt8))
    (xs : List Access) (outcome : Outcome ReadFailure (List UInt8)) : Prop where
  /-- The transfer is started once, for a full FIFO at least. From there on the
      bursts come, each right behind a reading of its size. -/
  underway : ∃ before start later, xs = before ++ start :: later ∧
    Underway (max 8 out.length) before start later ∧ Bursts popped List.length groups later
  /-- Nothing is taken from the FIFO but the bursts. -/
  taken : xs.filter (Access.reads Offset.fifoData) = groups.flatten.map popped
  /-- All bursts are full ones but perhaps the last. -/
  sizes : groups.map List.length <+: burstSizes (max 8 out.length)
  length_eq : groups.flatten.length = min (8 * groups.length) (max 8 out.length)
  /-- A read that goes well has received everything, and fills the buffer with the
      beginning of it. -/
  delivered : ∀ bytes, outcome = .ok bytes →
    groups.map List.length = List.replicate (max 8 out.length / 8) 8 ++
      (if max 8 out.length % 8 = 0 then [] else [max 8 out.length % 8]) ∧
    groups.flatten.length = max 8 out.length ∧
    bytes = groups.flatten.take out.length ∧ written out outcome = bytes
  /-- A read that fails has filled the buffer as far as its bursts go, and left the
      rest of it alone. It ends with the wait that ran out. -/
  failed : ∀ failure, outcome = .error failure →
    written out outcome = groups.flatten.take (min (8 * groups.length) out.length) ++
      out.drop (min (8 * groups.length) out.length) ∧
    Expires spins failure.cause xs
  ends : outcome ≠ .fault

section Receive

/-- Bytes are taken from the FIFO in order, and nothing goes wrong. -/
theorem conversation_popOnto {ε : Type} (taken : List UInt8) (count : Nat)
    (events : List (Event Bus.interface)) (outcome : Outcome ε (List UInt8))
    (h : (popOnto taken count).Conversation events outcome) :
    ∃ bytes : List UInt8, bytes.length = count ∧ accesses events = bytes.map popped ∧
      outcome = .ok (bytes.reverse ++ taken) := by
  induction count generalizing taken events with
  | zero =>
      rcases (Program.conversation_done _ _ _).mp h with ⟨rfl, rfl⟩
      exact ⟨[], rfl, rfl, rfl⟩
  | succ count ih =>
      rcases (Program.conversation_ask _ _ _ _).mp h with ⟨word, later, rfl, hlater⟩
      rcases ih _ later hlater with ⟨bytes, hlength, hevents, rfl⟩
      refine ⟨UInt8.ofBitVec word :: bytes, congrArg (· + 1) hlength,
        congrArg (List.cons _) hevents, ?_⟩
      rw [List.reverse_cons, List.append_assoc]
      rfl

/-- Bursts are received in order, until one is missing. What has been received is
    kept either way. -/
theorem conversation_receive (spins : Nat) (received : List UInt8) (sizes : List Nat)
    (events : List (Event Bus.interface)) (outcome : Outcome ReadFailure (List UInt8))
    (h : (receive spins received sizes).Conversation events outcome) :
    ∃ groups : List (List UInt8), groups.map List.length <+: sizes ∧
      Bursts popped List.length groups (accesses events) ∧
      ((outcome = .ok (groups.flatten.reverse ++ received) ∧ groups.map List.length = sizes) ∨
        ∃ cause, outcome = .error ⟨cause, groups.flatten.reverse ++ received⟩ ∧
          Expires spins cause (accesses events)) := by
  -- Induction on the sizes: a burst that came is in front of those of the rest.
  induction sizes generalizing received events with
  | nil =>
      rcases (Program.conversation_done _ _ _).mp h with ⟨rfl, rfl⟩
      exact ⟨[], List.prefix_refl [], .nil, Or.inl ⟨rfl, rfl⟩⟩
  | cons size sizes ih =>
      rcases (Program.conversation_bind _ _ _ _).mp h with ⟨waited, _, ended, rfl, hwait, hrest⟩
      rcases (Program.conversation_mapError _ _ _ _).mp hwait with ⟨waitEnd, hpoll, hlast⟩
      rcases conversation_waitFifoLevel _ _ _ _ hpoll with ⟨found, hpolls, rfl⟩
      cases found with
      | none =>
          rcases (Program.conversation_done _ _ _).mp hlast with ⟨-, rfl⟩
          rcases (Program.conversation_done _ _ _).mp hrest with ⟨rfl, rfl⟩
          rw [List.append_nil]
          exact ⟨[], List.nil_prefix, .still _ (waits_of_offset (Or.inl rfl) hpolls.offset_eq),
            Or.inr ⟨_, rfl, .level [] _ size hpolls⟩⟩
      | some pointer =>
          rcases (Program.conversation_done _ _ _).mp hlast with ⟨-, rfl⟩
          rcases (Program.conversation_bind (popOnto received size) _ _ _).mp hrest
            with ⟨popping, later, _, rfl, hpop, hlater⟩
          rcases conversation_popOnto received size popping _ hpop with ⟨bytes, rfl, hbytes, rfl⟩
          rcases ih _ later hlater with ⟨groups, hsizes, hbursts, hend⟩
          rcases ready_of_polls hpolls with ⟨before, hxs, hbefore, hlevel⟩
          refine ⟨bytes :: groups, ?_, ?_, ?_⟩
          · exact (List.prefix_cons_inj bytes.length).mpr hsizes
          · rw [Bus.accesses_append, Bus.accesses_append, hxs, hbytes, List.append_assoc]
            exact .burst before pointer bytes groups _ hbefore hlevel hbursts
          · rw [List.flatten_cons, List.reverse_append, List.append_assoc]
            rcases hend with ⟨hok, hall⟩ | ⟨cause, hfail, hexpires⟩
            · exact Or.inl ⟨hok, congrArg (List.cons bytes.length) hall⟩
            · rw [Bus.accesses_append, Bus.accesses_append]
              exact Or.inr ⟨cause, hfail, (hexpires.prepend _).prepend _⟩

end Receive

section Read

-- What is kept of the bursts is the beginning of them.
theorem kept_flatten (length : Nat) (groups : List (List UInt8)) :
    kept length (groups.flatten.reverse ++ []) = groups.flatten.take length := by
  rw [kept, List.append_nil, List.reverse_reverse]

/-- A read ends with a wait for the end of the transfer, and then delivers. -/
theorem conversation_conclude (spins : Nat) (bytes : List UInt8) (message : String)
    (events : List (Event Bus.interface)) (outcome : Outcome ReadFailure (List UInt8))
    (h : (((finish spins).mapError fun cause => ReadFailure.mk cause bytes).bind fun _ =>
      (say .trace message).bind fun _ => .done (.ok bytes)).Conversation events outcome) :
    (∀ a ∈ accesses events, Waits a) ∧
      (outcome = .ok bytes ∨
        ∃ cause, outcome = .error ⟨cause, bytes⟩ ∧ Expires spins cause (accesses events)) := by
  rcases (Program.conversation_bind _ _ _ _).mp h with ⟨finished, _, _, rfl, hfirst, hrest⟩
  rcases (Program.conversation_mapError _ _ _ _).mp hfirst with ⟨ended, hfinish, hlast⟩
  rcases conversation_finish spins finished ended hfinish with ⟨hwaits, rfl | ⟨rfl, hexpires⟩⟩
  · rcases (Program.conversation_done _ _ _).mp hlast with ⟨-, rfl⟩
    rcases (Program.conversation_bind (say .trace message) _ _ _).mp hrest
      with ⟨saying, _, _, rfl, hsay, hdone⟩
    rcases conversation_say .trace message saying _ hsay with ⟨hsilent, rfl⟩
    rcases (Program.conversation_done _ _ _).mp hdone with ⟨rfl, rfl⟩
    rw [List.append_nil, Bus.accesses_append, hsilent, List.append_nil]
    exact ⟨hwaits, Or.inl rfl⟩
  · rcases (Program.conversation_done _ _ _).mp hlast with ⟨-, rfl⟩
    rcases (Program.conversation_done _ _ _).mp hrest with ⟨rfl, rfl⟩
    rw [List.append_nil]
    exact ⟨hwaits, Or.inr ⟨_, rfl, hexpires⟩⟩

/-- Once a read is started, its bursts are received. The beginning of them is
    delivered if they are complete, and is part of the failure otherwise. -/
theorem conversation_drain (spins length : Nat) (sizes : List Nat) (message : String)
    (events : List (Event Bus.interface)) (outcome : Outcome ReadFailure (List UInt8))
    (h : (((receive spins [] sizes).mapError fun failure =>
        ReadFailure.mk failure.cause (kept length failure.received)).bind fun received =>
      ((finish spins).mapError fun cause => ReadFailure.mk cause (kept length received)).bind
        fun _ => (say .trace message).bind fun _ =>
          .done (.ok (kept length received))).Conversation events outcome) :
    ∃ groups : List (List UInt8), groups.map List.length <+: sizes ∧
      Bursts popped List.length groups (accesses events) ∧
      ((outcome = .ok (groups.flatten.take length) ∧ groups.map List.length = sizes) ∨
        ∃ cause, outcome = .error ⟨cause, groups.flatten.take length⟩ ∧
          Expires spins cause (accesses events)) := by
  rcases (Program.conversation_bind _ _ _ _).mp h with ⟨first, rest, _, rfl, hfirst, hrest⟩
  rcases (Program.conversation_mapError _ _ _ _).mp hfirst with ⟨ended, hreceive, hlast⟩
  rcases conversation_receive spins [] sizes first ended hreceive
    with ⟨groups, hsizes, hbursts, hend⟩
  refine ⟨groups, hsizes, ?_⟩
  rw [Bus.accesses_append]
  rcases hend with ⟨rfl, hall⟩ | ⟨cause, rfl, hexpires⟩
  · rcases (Program.conversation_done _ _ _).mp hlast with ⟨-, rfl⟩
    rcases conversation_conclude spins _ _ rest outcome hrest with ⟨hwaits, hend⟩
    rw [kept_flatten] at hend
    refine ⟨hbursts.append _ hwaits, ?_⟩
    rcases hend with hok | ⟨cause, hfail, hexpires⟩
    · exact Or.inl ⟨hok, hall⟩
    · exact Or.inr ⟨cause, hfail, hexpires.prepend _⟩
  · rcases (Program.conversation_done _ _ _).mp hlast with ⟨-, rfl⟩
    rcases (Program.conversation_done _ _ _).mp hrest with ⟨rfl, rfl⟩
    rw [Bus.accesses_nil, List.append_nil]
    refine ⟨hbursts, Or.inr ⟨cause, ?_, hexpires⟩⟩
    exact congrArg (fun bytes => Outcome.error (ReadFailure.mk cause bytes)) (kept_flatten _ groups)

variable (opcode : UInt8) (address : UInt32) (count spins : Nat) (hcount : count ≤ 4)

include hcount

/-- A read is started, and then waits for its first bytes. -/
theorem conversation_startRead (total : Nat) (htotal : total < UInt32.size)
    (events : List (Event Bus.interface)) (outcome : Outcome Error Unit)
    (h : (startRead opcode address count total spins).Conversation events outcome) :
    ∃ template current rest,
      events = launching template current (opcode :: Bytes.bigEndian count address.toNat) total ++
        rest ∧
      (∀ a ∈ accesses rest, Waits a) ∧
      (outcome = .ok () ∨ ∃ cause, outcome = .error cause ∧
        Expires spins cause (accesses rest)) := by
  have hpreset : ∃ template, Transfer.flashRead count = .ok template := exists_flash hcount _
  rcases hpreset with ⟨template, htemplate⟩
  rw [startRead, htemplate] at h
  rcases conversation_launch template opcode address count total htotal _ events outcome h
    with ⟨current, rest, rfl, hnext⟩
  rcases (Program.conversation_bind _ _ _ _).mp hnext with ⟨waited, _, ended, rfl, hwait, hend⟩
  rcases conversation_waitFor _ _ _ _ hwait with ⟨found, hpolls, rfl⟩
  refine ⟨template, current, _, rfl, ?_⟩
  have hwaits := waits_of_offset (Or.inr rfl) hpolls.offset_eq
  cases found with
  | none =>
      rcases (Program.conversation_done _ _ _).mp hend with ⟨rfl, rfl⟩
      rw [List.append_nil]
      exact ⟨hwaits, Or.inr ⟨_, rfl, .status [] _ _ hpolls⟩⟩
  | some status =>
      rcases (Program.conversation_done _ _ _).mp hend with ⟨rfl, rfl⟩
      rw [List.append_nil]
      exact ⟨hwaits, Or.inl rfl⟩

/-- A read is started and receives its bursts. It delivers the beginning of them if
    they are complete, and fails with it otherwise. -/
theorem conversation_readFlash (length : Nat) (hlength : length < UInt32.size)
    (events : List (Event Bus.interface)) (outcome : Outcome ReadFailure (List UInt8))
    (h : (readFlash opcode address count length spins).Conversation events outcome) :
    ∃ template current rest, ∃ groups : List (List UInt8),
      events = launching template current (opcode :: Bytes.bigEndian count address.toNat)
        (max fifoDepth length) ++ rest ∧
      groups.map List.length <+: burstSizes (max fifoDepth length) ∧
      Bursts popped List.length groups (accesses rest) ∧
      ((outcome = .ok (groups.flatten.take length) ∧
          groups.map List.length = burstSizes (max fifoDepth length)) ∨
        ∃ cause, outcome = .error ⟨cause, groups.flatten.take length⟩ ∧
          Expires spins cause (accesses rest)) := by
  have htotal : max fifoDepth length < UInt32.size := Nat.max_lt.mpr ⟨by decide, hlength⟩
  rcases (Program.conversation_bind _ _ _ _).mp h with ⟨first, more, _, rfl, hfirst, hmore⟩
  rcases (Program.conversation_mapError _ _ _ _).mp hfirst with ⟨began, hbegan, hlast⟩
  rcases conversation_startRead opcode address count spins hcount _ htotal first began hbegan
    with ⟨template, current, waited, rfl, hwaits, rfl | ⟨cause, rfl, hexpires⟩⟩
  · rcases (Program.conversation_done _ _ _).mp hlast with ⟨-, rfl⟩
    rcases conversation_drain spins length _ _ more outcome hmore
      with ⟨groups, hsizes, hbursts, hend⟩
    refine ⟨template, current, waited ++ more, groups, List.append_assoc _ _ _, hsizes, ?_⟩
    rw [Bus.accesses_append]
    refine ⟨hbursts.wait _ hwaits, ?_⟩
    rcases hend with hok | ⟨cause, hfail, hexpires⟩
    · exact Or.inl hok
    · exact Or.inr ⟨cause, hfail, hexpires.prepend _⟩
  · rcases (Program.conversation_done _ _ _).mp hlast with ⟨-, rfl⟩
    rcases (Program.conversation_done _ _ _).mp hmore with ⟨rfl, rfl⟩
    rw [List.append_nil]
    exact ⟨template, current, waited, [], rfl, List.nil_prefix, .still _ hwaits,
      Or.inr ⟨cause, by rw [List.flatten_nil, List.take_nil], hexpires⟩⟩

end Read

section Buffer

variable (out : List UInt8) (spins : Nat) (groups : List (List UInt8))

omit spins in
/-- The buffer after some bursts: as much of them as fits, and the rest as it
    was. -/
theorem overlay_flatten (total : Nat) (htotal : out.length ≤ total)
    (h : groups.map List.length <+: burstSizes total) :
    Bytes.overlay (groups.flatten.take out.length) out =
      groups.flatten.take (min (8 * groups.length) out.length) ++
        out.drop (min (8 * groups.length) out.length) := by
  have hlength : groups.flatten.length = min (8 * groups.length) total :=
    length_flatten_of_sizes groups total h
  have htake : groups.flatten.take out.length =
      groups.flatten.take (min (8 * groups.length) out.length) := by
    rw [List.take_eq_take_iff, hlength]
    omega
  have hsize : (groups.flatten.take out.length).length = min (8 * groups.length) out.length := by
    rw [List.length_take, hlength]
    omega
  rw [Bytes.overlay, hsize, List.take_take, Nat.min_self, htake]

/-- A read that was launched, then received its bursts, and ended with the beginning
    of them. -/
theorem received_launched (template current : BitVec 32) (frame : List UInt8)
    (rest : List (Event Bus.interface)) (outcome : Outcome ReadFailure (List UInt8))
    (hout : max fifoDepth out.length < UInt32.size)
    (hsizes : groups.map List.length <+: burstSizes (max fifoDepth out.length))
    (hbursts : Bursts popped List.length groups (accesses rest))
    (hend : (outcome = .ok (groups.flatten.take out.length) ∧
        groups.map List.length = burstSizes (max fifoDepth out.length)) ∨
      ∃ cause, outcome = .error ⟨cause, groups.flatten.take out.length⟩ ∧
        Expires spins cause (accesses rest)) :
    Received out spins groups
      (accesses (launching template current frame (max fifoDepth out.length) ++ rest)) outcome := by
  have hunderway := underway_launching template current frame _ hout _
    (hbursts.offset_eq fun _ => rfl)
  have htaken := hbursts.filter_eq (Access.reads Offset.fifoData) reads_of_waits fun _ => rfl
  refine ⟨⟨_, _, _, accesses_launching template current frame _ rest, hunderway, hbursts⟩,
    ?_, hsizes, length_flatten_of_sizes groups _ hsizes, ?_, ?_, ?_⟩
  · rw [accesses_launching, List.filter_append, Bus.filter_eq_nil hunderway.untaken,
      List.nil_append, List.filter_cons_of_neg (Bool.eq_false_iff.mp rfl), htaken]
  · rintro bytes rfl
    rcases hend with ⟨hok, hall⟩ | ⟨cause, hfail, -⟩
    · cases hok
      have hfull : groups.flatten.length = max 8 out.length :=
        length_flatten_of_all_sizes groups _ hall
      have hlength : (groups.flatten.take out.length).length = out.length :=
        List.length_take_of_le (hfull ▸ Nat.le_max_right 8 out.length)
      exact ⟨hall, hfull, rfl, Bytes.overlay_of_length_eq _ _ hlength⟩
    · cases hfail
  · rintro failure rfl
    rcases hend with ⟨hok, -⟩ | ⟨cause, hfail, hexpires⟩
    · cases hok
    · cases hfail
      rw [Bus.accesses_append]
      exact ⟨overlay_flatten out groups _ (Nat.le_max_right 8 out.length) hsizes,
        hexpires.prepend _⟩
  · rcases hend with ⟨rfl, -⟩ | ⟨cause, rfl, -⟩
    · nofun
    · nofun

end Buffer

/-- What every read comes to, whatever the bus answers. -/
theorem readFlash_received {σ : Type} (machine : Machine Bus.interface σ) (s : σ) (opcode : UInt8)
    (address : UInt32) (count spins : Nat) (out : List UInt8) (hcount : count ≤ 4)
    (hout : out.length ≤ 0xFFFFFFFF) :
    ∃ groups, Received out spins groups
      (accesses ((readFlash opcode address count out.length spins).run machine.recorded
        (.start s)).2.events)
      ((readFlash opcode address count out.length spins).run machine.recorded (.start s)).1 := by
  have hlength : out.length < UInt32.size := Nat.lt_succ_of_le hout
  have hc := (machine.conversation_recorded (readFlash opcode address count out.length spins) s).1
  rcases conversation_readFlash opcode address count spins hcount out.length hlength _ _ hc
    with ⟨template, current, rest, groups, hevents, hsizes, hbursts, hend⟩
  rw [hevents]
  exact ⟨groups, received_launched out spins groups template current _ rest _
    (Nat.max_lt.mpr ⟨by decide, hlength⟩) hsizes hbursts hend⟩

theorem readFlash_received_eleven :
    (∃ groups, Received (List.replicate 11 0xEE) 10 groups
      (accesses ((readFlash 0x03 0x123456 3 11 10).run Device.simulated.machine.recorded
        (.start eleven)).2.events) (.ok [0, 1, 2, 3, 4, 5, 6, 7, 8, 9, 10])) ∧
    ∃ groups, Received (List.replicate 10 0xEE) 10 groups
      (accesses ((readFlash 0x03 0x123456 3 10 10).run Device.simulated.machine.recorded
        (.start eleven)).2.events)
      (.error ⟨.fifoLevel 2 10, [0, 1, 2, 3, 4, 5, 6, 7]⟩) := by
  constructor
  · exact readFlash_received Device.simulated.machine eleven 0x03 0x123456 3 10
      (List.replicate 11 0xEE) (by decide) (by decide)
  · exact readFlash_received Device.simulated.machine eleven 0x03 0x123456 3 10
      (List.replicate 10 0xEE) (by decide) (by decide)

end Flash

end BoardSupport
