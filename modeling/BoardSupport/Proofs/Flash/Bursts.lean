import BoardSupport.Proofs.Flash.Transferring
import BoardSupport.Proofs.Flash.Waits

/-!
# Bursts through the FIFO

How the data of a transfer get through a FIFO that is shorter than they are.

Data move in bursts, each right behind a reading of the fill level that shows the
FIFO to be ready for exactly that burst. Between two bursts the driver waits: it
looks at the fill level and at the interrupt status and leaves the data alone. So
once a transfer is started there is little that its accesses can be, and what
moves through the FIFO are the bursts, one after another and nothing else.

Before that a transfer on memory comes to the same for reads and writes. The
frame is queued, the length is announced, and the one write that starts the
transfer is the last thing to happen.

## Main definitions

* `Flash.pushed`, `Flash.popped`: A byte that enters the FIFO, and one that
  leaves it.
* `Flash.Bursts`: Bytes in bursts, each behind its reading.
* `Flash.Underway`: A transfer that was started once, its length announced.

## Theorems

* `Flash.Bursts.filter_eq`: Nothing moves but the bursts.
* `Flash.burstSizes_of_pos`, `Flash.length_flatten_of_sizes`: Bursts are full while
  there is enough for them.
* `Flash.conversation_launch`: How a transfer on memory is started.
* `Flash.underway_launching`: What that says of the transfer.
-/

namespace BoardSupport

namespace Flash

open Bus (Access accesses writeEvent)

/-- A byte that enters the FIFO. -/
def pushed (b : UInt8) : Access :=
  .ofWrite 8 Offset.fifoData b.toBitVec

/-- A byte that leaves the FIFO. -/
def popped (b : UInt8) : Access :=
  .ofRead 8 Offset.fifoData b.toBitVec

/-- Bytes that move in bursts. Each burst comes right behind a reading of the fill
    level that is the right one for it, and in between no data move. -/
inductive Bursts (moved : UInt8 → Access) (level : List UInt8 → Nat) :
    List (List UInt8) → List Access → Prop where
  | still (waited : List Access) (hwaited : ∀ a ∈ waited, Waits a) : Bursts moved level [] waited
  | burst (waited : List Access) (pointer : BitVec 32) (bytes : List UInt8)
      (groups : List (List UInt8)) (later : List Access) (hwaited : ∀ a ∈ waited, Waits a)
      (hlevel : pointer.toNat % 16 = level bytes) (hlater : Bursts moved level groups later) :
      Bursts moved level (bytes :: groups)
        (waited ++ .ofRead 32 Offset.fifoPointer pointer :: (bytes.map moved ++ later))

/-- A transfer that was started: by one write to its register, after the length
    was announced and before anything was taken from the FIFO. -/
structure Underway (length : Nat) (before : List Access) (start : Access) (later : List Access) :
    Prop where
  /-- The write sets the bit that starts a transfer. -/
  starts : start.writes Offset.transfer = true ∧ start.value.testBit 15 = true
  once : ∀ a ∈ before ++ later, a.writes Offset.transfer = false
  announced : (before ++ start :: later).filter (Access.writes Offset.transferLength) =
    [⟨true, 32, Offset.transferLength, length⟩]
  untaken : ∀ a ∈ before, a.reads Offset.fifoData = false

section Bursts

variable {moved : UInt8 → Access} {level : List UInt8 → Nat} {groups : List (List UInt8)}
  {xs : List Access}

namespace Bursts

theorem nil : Bursts moved level [] [] :=
  .still [] fun _ ha => absurd ha List.not_mem_nil

/-- Waiting may come first. -/
theorem wait (waited : List Access) (hwaited : ∀ a ∈ waited, Waits a)
    (h : Bursts moved level groups xs) : Bursts moved level groups (waited ++ xs) := by
  cases h with
  | still more hmore => exact .still _ (List.forall_mem_append.mpr ⟨hwaited, hmore⟩)
  | burst more pointer bytes groups later hmore hlevel hlater =>
      rw [← List.append_assoc]
      exact .burst _ pointer bytes groups later (List.forall_mem_append.mpr ⟨hwaited, hmore⟩)
        hlevel hlater

/-- Bursts may be followed by waiting. -/
theorem append (h : Bursts moved level groups xs) (waited : List Access)
    (hwaited : ∀ a ∈ waited, Waits a) : Bursts moved level groups (xs ++ waited) := by
  induction h with
  | still more hmore => exact .still _ (List.forall_mem_append.mpr ⟨hmore, hwaited⟩)
  | burst more pointer bytes groups later hmore hlevel _ ih =>
      rw [List.append_assoc, List.cons_append, List.append_assoc]
      exact .burst more pointer bytes groups _ hmore hlevel ih

/-- What is accessed are the registers that are waited on and the FIFO. -/
theorem offset_eq (hmoved : ∀ b, (moved b).offset = Offset.fifoData)
    (h : Bursts moved level groups xs) : ∀ a ∈ xs, Waits a ∨ a.offset = Offset.fifoData := by
  induction h with
  | still waited hwaited => exact fun a ha => Or.inl (hwaited a ha)
  | burst waited pointer bytes groups later hwaited _ _ ih =>
      refine List.forall_mem_append.mpr ⟨fun a ha => Or.inl (hwaited a ha),
        List.forall_mem_cons.mpr ⟨Or.inl (Or.inl rfl), List.forall_mem_append.mpr ⟨?_, ih⟩⟩⟩
      exact List.forall_mem_map.mpr fun b _ => Or.inr (hmoved b)

/-- What moves are the bursts, in order, and nothing else. -/
theorem filter_eq (p : Access → Bool) (hwaits : ∀ a, Waits a → p a = false)
    (hmoved : ∀ b, p (moved b) = true) (h : Bursts moved level groups xs) :
    xs.filter p = groups.flatten.map moved := by
  have hnone : ∀ waited : List Access, (∀ a ∈ waited, Waits a) → waited.filter p = [] :=
    fun waited hwaited => Bus.filter_eq_nil fun a ha => hwaits a (hwaited a ha)
  induction h with
  | still waited hwaited => exact hnone waited hwaited
  | burst waited pointer bytes groups later hwaited _ _ ih =>
      have hpointer : p (.ofRead 32 Offset.fifoPointer pointer) = false := hwaits _ (Or.inl rfl)
      have hbytes : (bytes.map moved).filter p = bytes.map moved :=
        List.filter_eq_self.mpr (List.forall_mem_map.mpr fun b _ => hmoved b)
      rw [List.filter_append, hnone waited hwaited,
        List.filter_cons_of_neg (Bool.eq_false_iff.mp hpointer), List.filter_append, hbytes, ih,
        List.nil_append, List.flatten_cons, List.map_append]

end Bursts

end Bursts

section Sizes

/-- The first burst is a full FIFO or all there is. -/
theorem burstSizes_of_pos (n : Nat) (h : 0 < n) :
    burstSizes n = min fifoDepth n :: burstSizes (n - fifoDepth) := by
  by_cases hlarge : fifoDepth ≤ n
  · rcases Nat.exists_eq_add_of_le' hlarge with ⟨m, rfl⟩
    rw [Nat.min_eq_left hlarge, Nat.add_sub_cancel, burstSizes, burstSizes,
      Nat.add_div_right m (by decide), Nat.add_mod_right, List.replicate_succ, List.cons_append]
  · have hsmall : n < fifoDepth := Nat.lt_of_not_le hlarge
    rw [Nat.min_eq_right (Nat.le_of_lt hsmall), Nat.sub_eq_zero_of_le (Nat.le_of_lt hsmall),
      burstSizes, Nat.div_eq_of_lt hsmall, Nat.mod_eq_of_lt hsmall, if_neg (Nat.ne_of_gt h)]
    rfl

/-- The first bursts move full FIFOs, but no more than there is. -/
theorem length_flatten_of_sizes (groups : List (List UInt8)) (n : Nat)
    (h : groups.map List.length <+: burstSizes n) :
    groups.flatten.length = min (fifoDepth * groups.length) n := by
  induction groups generalizing n with
  | nil => exact (Nat.min_eq_left (Nat.zero_le n)).symm
  | cons bytes groups ih =>
      by_cases hn : 0 < n
      · rw [burstSizes_of_pos n hn, List.map_cons, List.cons_prefix_cons] at h
        rw [List.flatten_cons, List.length_append, h.1, ih _ h.2, List.length_cons, Nat.mul_succ]
        omega
      · cases Nat.eq_zero_of_not_pos hn
        exact absurd (List.prefix_nil.mp h) (List.cons_ne_nil _ _)

/-- All bursts together move everything. -/
theorem length_flatten_of_all_sizes (groups : List (List UInt8)) (n : Nat)
    (h : groups.map List.length = burstSizes n) : groups.flatten.length = n := by
  have hcount : groups.length = (burstSizes n).length := by
    rw [← h, List.length_map]
  have henough : n ≤ fifoDepth * groups.length := by
    rw [hcount, burstSizes, List.length_append, List.length_replicate, fifoDepth]
    split
    · rw [List.length_nil]
      omega
    · rw [List.length_singleton]
      omega
  rw [length_flatten_of_sizes groups n (h ▸ List.prefix_refl _), Nat.min_eq_right henough]

-- The first pieces of some data are their beginning.
theorem flatten_take_chunks (data : List UInt8) (k : Nat) :
    ((Bytes.chunks fifoDepth data).take k).flatten = data.take (fifoDepth * k) := by
  induction k generalizing data with
  | zero => rfl
  | succ k ih =>
      cases data with
      | nil =>
          rw [Bytes.chunks, List.take_nil, List.take_nil]
          rfl
      | cons b rest =>
          have hsize : fifoDepth * (k + 1) = fifoDepth - 1 + fifoDepth * k + 1 := by
            rw [fifoDepth]
            omega
          rw [Bytes.chunks, List.take_succ_cons, List.flatten_cons, ih, hsize,
            List.take_succ_cons, List.take_add, List.cons_append]

-- All pieces are all of it.
theorem flatten_chunks (data : List UInt8) : (Bytes.chunks fifoDepth data).flatten = data := by
  induction data using Bytes.chunks.induct fifoDepth with
  | case1 =>
      rw [Bytes.chunks]
      rfl
  | case2 b rest ih =>
      rw [Bytes.chunks, List.flatten_cons, ih, List.cons_append, List.take_append_drop]

end Sizes

section Launch

/-- The events of a transfer on memory until it is started. -/
def launching (template current : BitVec 32) (frame : List UInt8) (length : Nat) :
    List (Event Bus.interface) :=
  opening current ++ frame.map pushEvent ++
    [writeEvent 32 Offset.transferLength (BitVec.ofNat 32 length)] ++ starting template current

/-- A transfer on memory whose length is announced queues its frame and is
    started. -/
theorem conversation_launch {α : Type} (template : BitVec 32) (opcode : UInt8) (address : UInt32)
    (count length : Nat) (hlength : length < UInt32.size) (next : Driver Error α)
    (events : List (Event Bus.interface)) (outcome : Outcome Error α)
    (h : ((command template opcode address count).bind fun transfer =>
      (setTransferLength length).bind fun _ => (go transfer).bind fun _ => next).Conversation
        events outcome) :
    ∃ current rest,
      events = launching template current (opcode :: Bytes.bigEndian count address.toNat) length ++
        rest ∧ next.Conversation rest outcome := by
  rw [command_bind, setTransferLength, if_neg (Nat.not_le_of_lt hlength)] at h
  rcases (Program.conversation_ask _ _ _ _).mp h with ⟨current, _, rfl, hflush⟩
  rcases (Program.conversation_ask _ _ _ _).mp hflush with ⟨_, _, rfl, hopcode⟩
  rcases (Program.conversation_ask _ _ _ _).mp hopcode with ⟨_, _, rfl, hframe⟩
  rcases (Program.conversation_bind (pushFifo (Bytes.bigEndian count address.toNat)) _ _ _).mp
    hframe with ⟨_, _, ended, rfl, hpush, hrest⟩
  rcases conversation_pushFifo _ _ _ hpush with ⟨rfl, rfl⟩
  rcases (Program.conversation_ask _ _ _ _).mp hrest with ⟨_, _, rfl, hgo⟩
  rcases (Program.conversation_ask _ _ _ _).mp hgo with ⟨_, _, rfl, hstart⟩
  rcases (Program.conversation_ask _ _ _ _).mp hstart with ⟨_, rest, rfl, hnext⟩
  refine ⟨current, rest, ?_, hnext⟩
  rw [launching, List.append_assoc, List.append_assoc, List.append_assoc]
  rfl

-- What a transfer is started with has the bit that starts it.
theorem getLsbD_startWord (template current : BitVec 32) :
    (startWord template current).getLsbD 15 = true := by
  rw [startWord, Register.Field.getLsbD_put]
  rfl

-- Bytes are queued by one write each.
theorem accesses_push (bytes : List UInt8) :
    accesses (bytes.map pushEvent) = bytes.map pushed := by
  induction bytes with
  | nil => rfl
  | cons b rest ih => exact congrArg (List.cons (pushed b)) ih

/-- The accesses of a transfer on memory before the write that starts it. -/
def untilLaunch (current : BitVec 32) (frame : List UInt8) (length : Nat) : List Access :=
  .ofRead 32 Offset.transfer current :: .ofWrite 32 Offset.fifoPointer 0 ::
    (frame.map pushed ++ [.ofWrite 32 Offset.transferLength (BitVec.ofNat 32 length),
      .ofWrite 32 Offset.interruptStatus 0])

-- What is to hold of all of them is to hold of each kind.
theorem forall_untilLaunch {p : Access → Prop} (current : BitVec 32) (frame : List UInt8)
    (length : Nat) (hread : p (.ofRead 32 Offset.transfer current))
    (hflush : p (.ofWrite 32 Offset.fifoPointer 0)) (hframe : ∀ b, p (pushed b))
    (hlength : p (.ofWrite 32 Offset.transferLength (BitVec.ofNat 32 length)))
    (hstatus : p (.ofWrite 32 Offset.interruptStatus 0)) :
    ∀ a ∈ untilLaunch current frame length, p a :=
  List.forall_mem_cons.mpr ⟨hread, List.forall_mem_cons.mpr ⟨hflush,
    List.forall_mem_append.mpr ⟨List.forall_mem_map.mpr fun b _ => hframe b,
      List.forall_mem_cons.mpr ⟨hlength, List.forall_mem_singleton.mpr hstatus⟩⟩⟩⟩

theorem accesses_launching (template current : BitVec 32) (frame : List UInt8) (length : Nat)
    (rest : List (Event Bus.interface)) :
    accesses (launching template current frame length ++ rest) =
      untilLaunch current frame length ++
        .ofWrite 32 Offset.transfer (startWord template current) :: accesses rest := by
  rw [Bus.accesses_append, launching, Bus.accesses_append, Bus.accesses_append,
    Bus.accesses_append, accesses_push, untilLaunch, List.append_assoc, List.append_assoc,
    List.append_assoc, List.cons_append, List.cons_append, List.append_assoc]
  rfl

/-- A transfer that was launched is underway, as long as what follows only waits
    and moves data. -/
theorem underway_launching (template current : BitVec 32) (frame : List UInt8) (length : Nat)
    (hlength : length < UInt32.size) (later : List Access)
    (hlater : ∀ a ∈ later, Waits a ∨ a.offset = Offset.fifoData) :
    Underway length (untilLaunch current frame length)
      (.ofWrite 32 Offset.transfer (startWord template current)) later := by
  -- Neither register is the FIFO or one that is waited on.
  have hother : ∀ offset, offset ≠ Offset.fifoPointer → offset ≠ Offset.interruptStatus →
      offset ≠ Offset.fifoData → ∀ a ∈ later, a.writes offset = false := by
    intro offset hpointer hstatus hdata a ha
    rw [Access.writes, beq_eq_false_iff_ne.mpr, Bool.and_false]
    rintro rfl
    rcases hlater a ha with (h | h) | h
    · exact hpointer h
    · exact hstatus h
    · exact hdata h
  have hvalue : Access.ofWrite 32 Offset.transferLength (BitVec.ofNat 32 length) =
      ⟨true, 32, Offset.transferLength, length⟩ := by
    rw [Access.ofWrite, BitVec.toNat_ofNat, Nat.mod_eq_of_lt hlength]
  refine ⟨⟨rfl, getLsbD_startWord template current⟩, List.forall_mem_append.mpr ⟨?_, ?_⟩, ?_, ?_⟩
  · exact forall_untilLaunch current frame length rfl rfl (fun _ => rfl) rfl rfl
  · exact hother Offset.transfer (by decide) (by decide) (by decide)
  · have hframe : (frame.map pushed).filter (Access.writes Offset.transferLength) = [] :=
      Bus.filter_eq_nil (List.forall_mem_map.mpr fun _ _ => rfl)
    have hrest : (.ofWrite 32 Offset.transfer (startWord template current) :: later).filter
        (Access.writes Offset.transferLength) = [] :=
      Bus.filter_eq_nil (List.forall_mem_cons.mpr
        ⟨rfl, hother Offset.transferLength (by decide) (by decide) (by decide)⟩)
    rw [untilLaunch, hvalue, List.filter_append, hrest,
      List.filter_cons_of_neg (Bool.eq_false_iff.mp rfl),
      List.filter_cons_of_neg (Bool.eq_false_iff.mp rfl), List.filter_append, hframe]
    rfl
  · exact forall_untilLaunch current frame length rfl rfl (fun _ => rfl) rfl rfl

end Launch

end Flash

end BoardSupport
