import BoardSupport.Proofs.Flash.Transferring
import BoardSupport.Proofs.Flash.Waits

/-!
# Transfers Do Not Leak into Each Other

What a transfer is started with, and how it ends.

The transfer register keeps what the last transfer left in it. A transfer
clears every field that a preset can set before it merges its own, so these
bits, and the one that starts the transfer, depend on nothing but the request.
The other bits are not the driver's, and they are written back as they were
read. Two calls that ask for the same transfer can differ only in those.

The write that starts a transfer is the only one to the register and comes
right after the interrupt status was cleared, so the end that is then waited
for is the end of this transfer.

## Main definitions

* `Flash.Decided`: Bits of the transfer register that a transfer decides.
* `Flash.Ended`: The end of a transfer that succeeded.
* `Flash.Isolated`: What a transfer does to the transfer register.
* `Flash.Alike`: Two transfers that are started alike.

## Theorems

* `Flash.startWord_eq`: What a transfer is started with, as one word.
* `Flash.preset_and_kept`: Presets set none of the bits that are kept.
* `Flash.Request.ends`: How a transfer ends that succeeded.
* `Flash.isolated_transferring`: What its shape says about a transfer.
* `Flash.service_isolated`: Every session, and two sessions compared.
-/

namespace BoardSupport

namespace Flash

open Bus (Access accesses readEvent writeEvent)
open Program (keeps_done keeps_bind conversation_bind_ok conversation_mapError_ok)

/-- The bits of the transfer register that a transfer decides: the fields of the
    presets, and the bit that starts it. -/
def Decided (i : Nat) : Prop :=
  i ≤ 6 ∨ (8 ≤ i ∧ i ≤ 13) ∨ i = 15

instance (i : Nat) : Decidable (Decided i) :=
  inferInstanceAs (Decidable (_ ∨ _))

/-- The end of a transfer that succeeded: the status shows that it is done, the
    transfer register is not touched any more, and at last the FIFO is
    emptied. -/
def Ended (xs : List Access) : Prop :=
  ∃ before status between,
    xs = before ++ .ofRead 32 Offset.interruptStatus status ::
      (between ++ [.ofWrite 32 Offset.fifoPointer 0]) ∧
    Interrupts.tranDone.isSet status = true ∧ ∀ a ∈ between, a.offset ≠ Offset.transfer

/-- What a transfer does to the transfer register. It is written at most once,
    right after the interrupt status was cleared, with what was read from it but
    for the decided bits. A transfer that delivers was started and has then been
    seen to be done, and leaves the FIFO empty. -/
structure Isolated (request : Request) (xs : List Access) (delivered : Bool) : Prop where
  once : xs.countP (Access.writes Offset.transfer) ≤ 1
  started : ∀ before w after, xs = before ++ w :: after → w.writes Offset.transfer = true →
    before.getLast? = some (.ofWrite 32 Offset.interruptStatus 0) ∧
      ∃ template current, request.preset = .ok template ∧
        xs.filter (Access.reads Offset.transfer) = [.ofRead 32 Offset.transfer current] ∧
        w = .ofWrite 32 Offset.transfer (current &&& 0xFFFFC080 ||| template ||| 0x8000) ∧
        ∀ i, ¬Decided i → w.value.testBit i = current.getLsbD i
  ended : delivered = true →
    xs.countP (Access.writes Offset.transfer) = 1 ∧
    (∃ before w between status after,
      xs = before ++ w :: (between ++ .ofRead 32 Offset.interruptStatus status :: after) ∧
        w.writes Offset.transfer = true ∧ Interrupts.tranDone.isSet status = true) ∧
    xs.getLast? = some (.ofWrite 32 Offset.fifoPointer 0)

/-- Two transfers are started alike: their decided bits agree. -/
def Alike (xs ys : List Access) : Prop :=
  ∀ v ∈ xs, ∀ w ∈ ys, v.writes Offset.transfer = true → w.writes Offset.transfer = true →
    ∀ i, Decided i → v.value.testBit i = w.value.testBit i

section Words

/-- A transfer is started with what was read, its fields replaced by the
    preset's, and the bit that starts it. -/
theorem startWord_eq (template current : BitVec 32) :
    startWord template current = current &&& 0xFFFFC080 ||| template ||| 0x8000 := by
  have hcleared : Transfer.cleared current = current &&& 0xFFFFC080 := rfl
  rw [startWord, hcleared]
  refine BitVec.eq_of_getLsbD_eq fun i hi => ?_
  have hstart : (0x8000 : BitVec 32).getLsbD i = decide (15 = i) :=
    Nat.testBit_two_pow (n := 15)
  have hor : (current &&& 0xFFFFC080 ||| template ||| 0x8000).getLsbD i =
      ((current &&& 0xFFFFC080 ||| template).getLsbD i || decide (15 = i)) := by
    rw [BitVec.getLsbD_or, hstart]
  rw [Register.Field.getLsbD_put, decide_eq_true hi, Bool.true_and, hor]
  by_cases h15 : 15 = i
  · subst h15
    rw [decide_eq_true rfl, Bool.or_true]
    rfl
  · rw [if_neg fun h => h15 (Nat.le_antisymm h.1 (Nat.le_of_lt_succ h.2)), decide_eq_false h15,
      Bool.or_false]

/-- The presets of transfers set none of the bits that are kept. -/
theorem preset_and_kept (request : Request) (template : BitVec 32)
    (h : request.preset = .ok template) : template &&& 0xFFFFC080 = 0 := by
  -- The other presets are the one for flash, with a field replaced.
  have hflash : ∀ count (f : BitVec 32 → BitVec 32),
      (∀ count < 5, ((Transfer.flash count).map f).toOption.all (· &&& 0xFFFFC080 == 0)) →
      (Transfer.flash count).map f = .ok template → template &&& 0xFFFFC080 = 0 := by
    intro count f hf hok
    have hmask := hf count (Nat.lt_succ_of_le (count_le_of_flash hok))
    rw [hok] at hmask
    exact beq_iff_eq.mp hmask
  cases request with
  | readRegister =>
      cases h
      decide
  | writeRegister _ _ fullDuplex =>
      cases h
      cases fullDuplex <;> decide
  | readFlash _ _ count => exact hflash count _ (by decide) h
  | writeFlash _ _ count => exact hflash count _ (by decide) h
  | erase _ _ count => exact hflash count _ (by decide) h

/-- The decided bits depend on the preset alone. -/
theorem getLsbD_of_decided (template current : BitVec 32) (i : Nat) (h : Decided i) :
    (current &&& 0xFFFFC080 ||| template ||| 0x8000).getLsbD i =
      (template ||| 0x8000).getLsbD i := by
  -- Of what is kept, only the bit that is set in any case is decided.
  have hkept : ∀ j < 16, Decided j → (0xFFFFC080 : BitVec 32).getLsbD j = true →
      (0x8000 : BitVec 32).getLsbD j = true := by decide
  have hi : i < 16 := by
    unfold Decided at h
    omega
  simp only [BitVec.getLsbD_or, BitVec.getLsbD_and]
  cases hmask : (0xFFFFC080 : BitVec 32).getLsbD i with
  | false => rw [Bool.and_false, Bool.false_or]
  | true => rw [hkept i hi h hmask, Bool.or_true, Bool.or_true]

/-- The other bits are those that were read. -/
theorem getLsbD_of_not_decided (template current : BitVec 32) (i : Nat) (h : ¬Decided i)
    (hmask : template &&& 0xFFFFC080 = 0) :
    (current &&& 0xFFFFC080 ||| template ||| 0x8000).getLsbD i = current.getLsbD i := by
  have hkept : ∀ j < 32, ¬Decided j → (0xFFFFC080 : BitVec 32).getLsbD j = true ∧
      (0x8000 : BitVec 32).getLsbD j = false := by decide
  by_cases hi : i < 32
  · have hnone : (template &&& 0xFFFFC080).getLsbD i = false := by
      rw [hmask]
      exact BitVec.getLsbD_zero
    rw [BitVec.getLsbD_and, (hkept i hi h).1, Bool.and_true] at hnone
    rw [BitVec.getLsbD_or, BitVec.getLsbD_or, BitVec.getLsbD_and, hnone, (hkept i hi h).1,
      (hkept i hi h).2, Bool.and_true, Bool.or_false, Bool.or_false]
  · rw [BitVec.getLsbD_of_ge _ _ (Nat.le_of_not_lt hi),
      BitVec.getLsbD_of_ge _ _ (Nat.le_of_not_lt hi)]

end Words

section Ends

variable {ε ε' α β : Type}

theorem tolerates_apart : Tolerates Apart where
  composes := Bus.composes_accesses _
  read bits offset answer hother := Bus.forall_read hother
  flush := Bus.forall_write (Nat.ne_of_beq_eq_false rfl)
  burst pointer bytes _ _ := by
    intro a ha
    rcases List.mem_cons.mp ha with rfl | ha
    · exact Nat.ne_of_beq_eq_false rfl
    · exact (queued_push bytes).apart a ha
  log _ _ _ ha := absurd ha List.not_mem_nil

/-- Nothing but log records. -/
def Silent (events : List (Event Bus.interface)) : Prop :=
  accesses events = []

theorem composes_silent : Composes Silent where
  nil := rfl
  append first rest hf hr := by
    rw [Silent, Bus.accesses_append, hf, hr, List.append_nil]

theorem keeps_say_silent {E : ε → Prop} (level : Log.Level) (message : String) :
    (say level message : Driver ε Unit).Keeps Silent (fun _ => True) E :=
  Bus.keeps_log level _ rfl

/-- A program that ends like a transfer when it delivers. -/
def Ends (p : Driver ε α) : Prop :=
  ∀ events a, p.Conversation events (.ok a) → Ended (accesses events)

/-- What goes before the end does not matter. -/
theorem ends_bind {p : Driver ε α} {f : α → Driver ε β} (h : ∀ a, Ends (f a)) :
    Ends (p.bind f) := by
  intro events b hc
  rcases conversation_bind_ok _ _ _ _ hc with ⟨first, rest, a, rfl, -, hrest⟩
  rcases h a rest b hrest with ⟨before, status, between, hxs, hdone, hbetween⟩
  refine ⟨accesses first ++ before, status, between, ?_, hdone, hbetween⟩
  rw [Bus.accesses_append, hxs, List.append_assoc]

-- Nor does what is said to the log after it.
theorem ends_bind_silent {p : Driver ε α} {f : α → Driver ε β} (hp : Ends p)
    (hf : ∀ a, (f a).Keeps Silent (fun _ => True) (fun _ => True)) : Ends (p.bind f) := by
  intro events b hc
  rcases conversation_bind_ok _ _ _ _ hc with ⟨first, rest, a, rfl, hfirst, hrest⟩
  have hsilent : accesses rest = [] := (hf a rest _ hrest).1
  rw [Bus.accesses_append, hsilent, List.append_nil]
  exact hp first a hfirst

theorem ends_mapError (f : ε → ε') {p : Driver ε α} (h : Ends p) : Ends (p.mapError f) :=
  fun events a hc => h events a (conversation_mapError_ok _ _ _ _ hc)

/-- A wait for an interrupt ends with a status that has one of those waited
    for. -/
theorem waitFor_ok (mask : BitVec 32) (spins : Nat) (events : List (Event Bus.interface))
    (status : BitVec 32) (h : (waitFor mask spins).Conversation events (.ok status)) :
    ∃ before, accesses events = before ++ [.ofRead 32 Offset.interruptStatus status] ∧
      Interrupts.intersects status mask = true := by
  rcases conversation_waitFor _ _ _ _ h with ⟨found, hpolls, houtcome⟩
  cases found with
  | none => cases houtcome
  | some word =>
      cases houtcome
      rcases hpolls.split with ⟨before, hxs, -, haccept⟩
      exact ⟨before, hxs, haccept⟩

-- The status shows the end of a transfer if it has an interrupt in common with
-- the set of that one.
theorem isSet_tranDone (status : BitVec 32)
    (h : Interrupts.intersects status Interrupts.done = true) :
    Interrupts.tranDone.isSet status = true := by
  rw [intersects_done] at h
  rw [Interrupts.tranDone, Register.isSet_flag]
  exact h

/-- A transfer that has been seen to be done, and after which the FIFO was
    emptied. -/
theorem ends_done (spins : Nat) (between : Driver Error α) (tail : α → Driver Error β)
    (hb : between.Keeps Apart (fun _ => True) (fun _ => True))
    (ht : ∀ a, (tail a).Keeps Silent (fun _ => True) (fun _ => True)) :
    Ends ((waitFor Interrupts.done spins).bind fun _ => between.bind fun a =>
      (Bus.write 32 Offset.fifoPointer 0).bind fun _ => tail a) := by
  intro events b hc
  rcases conversation_bind_ok _ _ _ _ hc with ⟨_, _, status, rfl, hwait, hlater⟩
  rcases conversation_bind_ok _ _ _ _ hlater with ⟨middle, _, a, rfl, hmiddle, hflush⟩
  rcases (Program.conversation_ask _ _ _ _).mp hflush with ⟨_, rest, rfl, htail⟩
  rcases waitFor_ok _ _ _ _ hwait with ⟨before, hbefore, hdone⟩
  have hsilent : accesses rest = [] := (ht a rest _ htail).1
  have hlast : accesses (writeEvent 32 Offset.fifoPointer 0 :: rest) =
      [.ofWrite 32 Offset.fifoPointer 0] := by
    rw [Bus.accesses_write, hsilent]
  refine ⟨before, status, accesses middle, ?_, isSet_tranDone status hdone,
    (hb middle _ hmiddle).1⟩
  rw [← hlast, Bus.accesses_append, Bus.accesses_append, hbefore, List.append_assoc]
  rfl

theorem ends_finish (spins : Nat) : Ends (finish spins) :=
  ends_done spins (.done (.ok ())) (fun _ => .done (.ok ()))
    (keeps_done (Bus.composes_accesses _) _ trivial) fun _ => keeps_done composes_silent _ trivial

/-- Every request that delivers ends in this way. -/
theorem Request.ends (request : Request) : Ends request.program := by
  have hsilent : ∀ {p : Driver Error Unit}, Ends p → Ends (Request.silent p) := fun hp =>
    ends_bind_silent (ends_mapError _ hp) fun _ => keeps_done composes_silent _ trivial
  cases request with
  | readRegister opcode length spins =>
      refine ends_mapError _ ?_
      -- The check, the opening, four parts of the frame, and the start.
      refine ends_bind fun _ => ends_bind fun _ => ends_bind fun _ => ends_bind fun _ =>
        ends_bind fun _ => ends_bind fun _ => ends_bind fun _ => ?_
      exact ends_done spins (popFifo length) _ (keeps_popFifo tolerates_apart length) fun _ =>
        keeps_bind composes_silent (keeps_say_silent _ _) fun _ _ =>
          keeps_done composes_silent _ trivial
  | writeRegister opcode data fullDuplex spins =>
      refine hsilent ?_
      refine ends_bind fun _ => ends_bind fun _ => ends_bind fun _ => ends_bind fun _ =>
        ends_bind fun _ => ends_bind fun _ => ?_
      exact ends_bind_silent (ends_finish spins) fun _ => keeps_say_silent _ _
  | readFlash opcode address count length spins =>
      refine ends_bind fun _ => ends_bind fun _ => ?_
      exact ends_bind_silent (ends_mapError _ (ends_finish spins)) fun _ =>
        keeps_bind composes_silent (keeps_say_silent _ _) fun _ _ =>
          keeps_done composes_silent _ trivial
  | writeFlash opcode address count data spins =>
      refine hsilent ?_
      refine ends_bind fun _ => ends_bind fun _ => ends_bind fun _ => ends_bind fun _ =>
        ends_bind fun _ => ends_bind fun _ => ends_bind fun _ => ?_
      exact ends_bind_silent (ends_finish spins) fun _ => keeps_say_silent _ _
  | erase opcode address count spins =>
      refine hsilent ?_
      refine ends_bind fun _ => ends_bind fun _ => ends_bind fun _ => ?_
      exact ends_bind_silent (ends_finish spins) fun _ => keeps_say_silent _ _

end Ends

section Register

-- Where the transfer register is left alone it is neither written nor read.
theorem writes_of_apart {xs : List Access} (h : ∀ a ∈ xs, a.offset ≠ Offset.transfer) :
    ∀ a ∈ xs, a.writes Offset.transfer = false := fun a ha => by
  rw [Access.writes, beq_eq_false_iff_ne.mpr (h a ha), Bool.and_false]

theorem reads_of_apart {xs : List Access} (h : ∀ a ∈ xs, a.offset ≠ Offset.transfer) :
    ∀ a ∈ xs, a.reads Offset.transfer = false := fun a ha => by
  rw [Access.reads, beq_eq_false_iff_ne.mpr (h a ha), Bool.and_false]

-- There is one way to take a list apart at its only element of some kind.
theorem eq_of_unique {p : Access → Bool} {first rest before after : List Access} {a b : Access}
    (hfirst : ∀ x ∈ first, p x = false) (hrest : ∀ x ∈ rest, p x = false) (hb : p b = true)
    (h : first ++ a :: rest = before ++ b :: after) : before = first ∧ b = a := by
  rcases List.append_eq_append_iff.mp h with ⟨more, rfl, hmore⟩ | ⟨more, rfl, hmore⟩
  · cases more with
    | nil =>
        cases hmore
        exact ⟨List.append_nil _, rfl⟩
    | cons x more =>
        cases hmore
        rw [hrest b (by simp)] at hb
        cases hb
  · cases more with
    | nil =>
        cases hmore
        exact ⟨(List.append_nil _).symm, rfl⟩
    | cons x more =>
        cases hmore
        rw [hfirst b (by simp)] at hb
        cases hb

/-- What goes before the write that starts a transfer. -/
def untilStart (current : BitVec 32) (queue : List (Event Bus.interface)) :
    List (Event Bus.interface) :=
  opening current ++ queue ++ [writeEvent 32 Offset.interruptStatus 0]

theorem writes_opening (current : BitVec 32) (queue : List (Event Bus.interface))
    (h : Apart queue) :
    ∀ a ∈ accesses (opening current ++ queue), a.writes Offset.transfer = false := by
  have hP := Bus.composes_accesses fun a => a.writes Offset.transfer = false
  have hopening := hP.append [readEvent 32 Offset.transfer current]
    [writeEvent 32 Offset.fifoPointer 0] (Bus.forall_read rfl) (Bus.forall_write rfl)
  exact hP.append _ _ hopening (writes_of_apart h)

theorem writes_untilStart (current : BitVec 32) (queue : List (Event Bus.interface))
    (h : Apart queue) :
    ∀ a ∈ accesses (untilStart current queue), a.writes Offset.transfer = false :=
  (Bus.composes_accesses _).append _ _ (writes_opening current queue h) (Bus.forall_write rfl)

-- From the status on that shows the end, the register is left alone.
theorem apart_end (status : BitVec 32) {between : List Access}
    (h : ∀ a ∈ between, a.offset ≠ Offset.transfer) :
    ∀ a ∈ Access.ofRead 32 Offset.interruptStatus status ::
      (between ++ [.ofWrite 32 Offset.fifoPointer 0]), a.offset ≠ Offset.transfer := by
  have hlast : ∀ a ∈ [Access.ofWrite 32 Offset.fifoPointer 0], a.offset ≠ Offset.transfer :=
    List.forall_mem_singleton.mpr (Nat.ne_of_beq_eq_false rfl)
  exact List.forall_mem_cons.mpr
    ⟨Nat.ne_of_beq_eq_false rfl, List.forall_mem_append.mpr ⟨h, hlast⟩⟩

/-- The accesses of a transfer that was started. -/
def startedAccesses (template current : BitVec 32) (queue rest : List (Event Bus.interface)) :
    List Access :=
  accesses (untilStart current queue) ++
    .ofWrite 32 Offset.transfer (startWord template current) :: accesses rest

theorem accesses_started (template current : BitVec 32) (queue rest : List (Event Bus.interface)) :
    accesses (opening current ++ queue ++ starting template current ++ rest) =
      startedAccesses template current queue rest := by
  have hstart : starting template current = [writeEvent 32 Offset.interruptStatus 0] ++
      [writeEvent 32 Offset.transfer (startWord template current)] := rfl
  rw [hstart, ← List.append_assoc, List.append_assoc, Bus.accesses_append]
  rfl

section Started

variable (template current : BitVec 32) {queue rest : List (Event Bus.interface)}
  (hqueue : Apart queue) (hrest : Apart rest)

include hqueue hrest

theorem countP_started :
    (startedAccesses template current queue rest).countP (Access.writes Offset.transfer) = 1 := by
  have hfirst := writes_untilStart current queue hqueue
  have hlast := writes_of_apart hrest
  rw [startedAccesses, List.countP_append, List.countP_cons_of_pos rfl,
    List.countP_eq_zero.mpr fun a ha => Bool.eq_false_iff.mp (hfirst a ha),
    List.countP_eq_zero.mpr fun a ha => Bool.eq_false_iff.mp (hlast a ha)]

/-- The one read of the register is that of the opening. -/
theorem filter_reads_started :
    (startedAccesses template current queue rest).filter (Access.reads Offset.transfer) =
      [.ofRead 32 Offset.transfer current] := by
  have hnone : ∀ {events : List (Event Bus.interface)}, Apart events →
      (accesses events).filter (Access.reads Offset.transfer) = [] := fun h =>
    Bus.filter_eq_nil (reads_of_apart h)
  rw [startedAccesses, untilStart, Bus.accesses_append, Bus.accesses_append, List.filter_append,
    List.filter_append, List.filter_append, List.filter_cons_of_neg (Bool.eq_false_iff.mp rfl),
    hnone hqueue, hnone hrest]
  rfl

/-- The one write to it comes right after the interrupt status was cleared. -/
theorem write_started (before after : List Access) (w : Access)
    (hxs : startedAccesses template current queue rest = before ++ w :: after)
    (hw : w.writes Offset.transfer = true) :
    before.getLast? = some (.ofWrite 32 Offset.interruptStatus 0) ∧
      w = .ofWrite 32 Offset.transfer (startWord template current) := by
  rcases eq_of_unique (writes_untilStart current queue hqueue) (writes_of_apart hrest) hw hxs
    with ⟨rfl, rfl⟩
  refine ⟨?_, rfl⟩
  rw [untilStart, Bus.accesses_append]
  exact List.getLast?_concat

omit hqueue hrest in
/-- The end of a transfer does not touch the register, so it comes after the
    write that started it. -/
theorem ended_started (h : Ended (startedAccesses template current queue rest)) :
    (∃ before w between status after,
      startedAccesses template current queue rest =
          before ++ w :: (between ++ .ofRead 32 Offset.interruptStatus status :: after) ∧
        w.writes Offset.transfer = true ∧ Interrupts.tranDone.isSet status = true) ∧
    (startedAccesses template current queue rest).getLast? =
      some (.ofWrite 32 Offset.fifoPointer 0) := by
  rcases h with ⟨before, status, between, hxs, hdone, hbetween⟩
  have hin : .ofWrite 32 Offset.transfer (startWord template current) ∈
      startedAccesses template current queue rest :=
    List.mem_append_right _ List.mem_cons_self
  have hmem : .ofWrite 32 Offset.transfer (startWord template current) ∈ before := by
    rw [hxs] at hin
    refine (List.mem_append.mp hin).resolve_right fun hlate => ?_
    cases writes_of_apart (apart_end status hbetween) _ hlate
  rcases List.mem_iff_append.mp hmem with ⟨early, middle, rfl⟩
  refine ⟨⟨early, .ofWrite 32 Offset.transfer (startWord template current), middle, status,
    between ++ [.ofWrite 32 Offset.fifoPointer 0], ?_, rfl, hdone⟩, ?_⟩
  · rw [hxs, List.append_assoc]
    rfl
  · rw [hxs, ← List.cons_append, ← List.append_assoc, List.getLast?_concat]

end Started

-- A call that does not write the register and does not deliver.
theorem isolated_of_none (request : Request) (xs : List Access)
    (h : ∀ a ∈ xs, a.writes Offset.transfer = false) : Isolated request xs false where
  once := by
    rw [List.countP_eq_zero.mpr fun a ha => Bool.eq_false_iff.mp (h a ha)]
    exact Nat.zero_le 1
  started before w after hxs hw := by
    rw [h w (by rw [hxs]; simp)] at hw
    cases hw
  ended := nofun

/-- What its shape says about what a transfer does to the transfer register. -/
theorem isolated_transferring (request : Request) (events : List (Event Bus.interface))
    (delivered : Bool) (h : Transferring Apart request.preset events delivered)
    (hend : delivered = true → Ended (accesses events)) :
    Isolated request (accesses events) delivered := by
  cases h with
  | refused => exact isolated_of_none request [] fun _ ha => absurd ha List.not_mem_nil
  | abandoned current queue hqueue =>
      exact isolated_of_none request _ (writes_opening current queue hqueue.apart)
  | started template current queue rest _ hpreset hqueue hrest =>
      rw [accesses_started] at hend ⊢
      have hcount := countP_started template current hqueue.apart hrest
      have hreads := filter_reads_started template current hqueue.apart hrest
      have hmask := preset_and_kept request template hpreset
      refine ⟨Nat.le_of_eq hcount, fun before w after hxs hw => ?_, fun hdelivered =>
        ⟨hcount, ended_started template current (hend hdelivered)⟩⟩
      rcases write_started template current hqueue.apart hrest before after w hxs hw
        with ⟨hbefore, rfl⟩
      rw [startWord_eq]
      exact ⟨hbefore, template, current, hpreset, hreads, rfl, fun i hi =>
        getLsbD_of_not_decided template current i hi hmask⟩

/-- The same transfer is started alike, whatever the register held. -/
theorem alike_isolated (request : Request) (xs ys : List Access) (delivered delivered' : Bool)
    (hx : Isolated request xs delivered) (hy : Isolated request ys delivered') : Alike xs ys := by
  intro v hv w hw hvw hww i hi
  rcases List.mem_iff_append.mp hv with ⟨before, after, rfl⟩
  rcases List.mem_iff_append.mp hw with ⟨before', after', rfl⟩
  rcases (hx.started before v after rfl hvw).2 with ⟨template, current, hpreset, -, rfl, -⟩
  rcases (hy.started before' w after' rfl hww).2 with ⟨template', current', hpreset', -, rfl, -⟩
  cases hpreset.symm.trans hpreset'
  exact (getLsbD_of_decided template current i hi).trans
    (getLsbD_of_decided template current' i hi).symm

end Register

/-- In every session every transfer is isolated, and the same transfer is
    started alike in any two sessions. -/
theorem service_isolated {σ σ' : Type} (machine : Machine Bus.interface σ)
    (machine' : Machine Bus.interface σ') (s : σ) (s' : σ') (calls calls' : List Call) :
    (∀ t ∈ service.turns machine () s calls, ∀ request, t.call = .transfer request →
      Isolated request (accesses t.asked) t.outcome.isOk) ∧
    ∀ t ∈ service.turns machine () s calls, ∀ t' ∈ service.turns machine' () s' calls', ∀ request,
      t.call = .transfer request → t'.call = .transfer request →
        Alike (accesses t.asked) (accesses t'.asked) := by
  have hturn : ∀ (kept : Unit) (call : Call) (events : List (Event Bus.interface)) outcome, True →
      (service.program kept call).Conversation events outcome →
        True ∧ ∀ request, call = .transfer request →
          Isolated request (accesses events) outcome.isOk := by
    rintro _ call events outcome - h
    refine ⟨trivial, fun request hcall => ?_⟩
    subst hcall
    refine isolated_transferring request events _
      (request.transfers tolerates_apart events outcome h) fun hok => ?_
    cases outcome with
    | ok reply => exact request.ends events reply h
    | error failure => cases hok
    | fault => cases hok
  have hisolated := service.forall_turns (fun _ => True) (fun t => ∀ request,
    t.call = .transfer request → Isolated request (accesses t.asked) t.outcome.isOk) hturn
    machine () s calls trivial
  have hisolated' := service.forall_turns (fun _ => True) (fun t => ∀ request,
    t.call = .transfer request → Isolated request (accesses t.asked) t.outcome.isOk) hturn
    machine' () s' calls' trivial
  refine ⟨hisolated, fun t ht t' ht' request hcall hcall' => ?_⟩
  exact alike_isolated request _ _ _ _ (hisolated t ht request hcall)
    (hisolated' t' ht' request hcall')

end Flash

end BoardSupport
