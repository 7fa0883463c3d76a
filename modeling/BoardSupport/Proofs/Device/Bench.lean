import BoardSupport.Device.Bench
import BoardSupport.Proofs.Program.Sessions
import Mathlib.Data.List.DropRight

/-!
# What a Register File Remembers

Sessions on a bench, and what the file tells about them afterwards.

A test of a driver is only as good as the file under it. The test looks at the registers and at
the log, and takes both for what has happened. So a session is read as a record of calls and
replies, nothing of the file itself, and the file has to agree with this record: a register holds
the number that was stored there last, by whichever call and in whichever width, and the log lists
what went over the bus since it was last cleared.

What a call stores is in the record because a test knows it. It has given the number itself, or it
was told the number by a call that changes a register. Every call then adds one entry to the
record, and agreement passes from each moment of a session to the next. The numbers are those of
the values that were accessed. That a value is stored as a word of the same number is where the
widths come in: none is wider than a word of the file.

## Main definitions

* `Bench.Turn.stored?`, `Bench.Turn.written?`: What a turn has stored, and what of it went over
  the bus.
* `Bench.held`, `Bench.written`: The registers and the log by the record alone.
* `Bench.Change.apply`: What a change makes of the value it reads.
* `Bench.Shows`: A file that agrees with a record.
* `Bench.Remembers`: A file that goes on as its record says.

## Theorems

* `Bench.run_drive`: A driver on a bench.
* `Bench.Change.run_program`, `Bench.Call.run_program`: What a change and what every call tells
  and leaves.
* `Bench.shows_turn`: One call keeps the agreement.
* `Bench.shows_session`: Every session keeps it.
* `Bench.session_remembered`: What the file tells after any session.
-/

namespace BoardSupport

namespace RegisterFile

/-- A write puts a word into one register. -/
theorem peek_write (f : RegisterFile) (bits offset other : Nat) (value : BitVec bits) :
    (device.write bits offset value f).peek other =
      if other = offset then value.setWidth 64 else f.peek other :=
  RegisterMap.peek_poke f.registers offset other (value.setWidth 64)

theorem peek_preset (f : RegisterFile) (offset other : Nat) (word : BitVec 64) :
    (f.preset offset word).peek other = if other = offset then word else f.peek other :=
  RegisterMap.peek_poke f.registers offset other word

end RegisterFile

namespace Bench

open Bus (Width)

/-- A value is stored as a word of the same number. -/
theorem toNat_word (w : Width) (value : BitVec w.bits) :
    (value.setWidth 64).toNat = value.toNat :=
  BitVec.toNat_setWidth_of_le w.bits_le

/-- What came of one call. -/
abbrev Turn :=
  Service.Turn interface Unit Call Empty Reply

namespace Turn

/-- The register that a turn has stored something in, and the number. What a change has stored is
    what it has told. -/
def stored? (t : Turn) : Option (Nat × Nat) :=
  match t.call, t.outcome with
  | .preset _ offset value, _ => some (offset, value.toNat)
  | .write _ offset value, _ => some (offset, value.toNat)
  | .change _ offset _, .ok (.value _ new) => some (offset, new.toNat)
  | _, _ => none

/-- What a turn has stored by way of the bus. -/
def written? (t : Turn) : Option (Nat × Nat) :=
  match t.call with
  | .preset _ _ _ => none
  | _ => t.stored?

/-- Whether the log starts over with a turn. -/
def clears (t : Turn) : Bool :=
  t.call == .clearLog

end Turn

/-- The number of an entry that is about this register. -/
def numberAt? (offset : Nat) (entry : Nat × Nat) : Option Nat :=
  if entry.1 = offset then some entry.2 else none

/-- The number that was last stored in a register, and zero if none was. -/
def held (past : List Turn) (offset : Nat) : Nat :=
  latest (numberAt? offset) 0 (past.filterMap Turn.stored?)

/-- What has been written since the log was last cleared. -/
def written (past : List Turn) : List (Nat × Nat) :=
  (past.rtakeWhile fun t => !t.clears).filterMap Turn.written?

/-- A turn leaves what it has stored in its register, and the others as they were. -/
theorem held_concat (past : List Turn) (t : Turn) (offset : Nat) :
    held (past ++ [t]) offset = (t.stored?.bind (numberAt? offset)).getD (held past offset) := by
  rw [held, List.filterMap_append]
  cases h : t.stored? with
  | none =>
      rw [List.filterMap_cons_none h, List.filterMap_nil, List.append_nil]
      rfl
  | some entry =>
      rw [List.filterMap_cons_some h, List.filterMap_nil, latest_concat]
      rfl

/-- A turn adds what it has written, unless the log starts over. -/
theorem written_concat (past : List Turn) (t : Turn) :
    written (past ++ [t]) = if t.clears then [] else written past ++ t.written?.toList := by
  rw [written, List.rtakeWhile_concat]
  cases hclears : t.clears with
  | true => rfl
  | false =>
      simp only [Bool.not_false, if_true, Bool.false_eq_true, if_false, List.filterMap_append]
      cases h : t.written? with
      | none =>
          rw [List.filterMap_cons_none h]
          rfl
      | some entry =>
          rw [List.filterMap_cons_some h]
          rfl

/-- A register that a value has been put into, as the number it holds. -/
theorem toNat_put (w : Width) (value : BitVec w.bits) (old : BitVec 64) (offset other : Nat) :
    (if other = offset then value.setWidth 64 else old).toNat =
      (numberAt? other (offset, value.toNat)).getD old.toNat := by
  unfold numberAt?
  by_cases h : other = offset
  · rw [if_pos h, if_pos h.symm, Option.getD_some, toNat_word]
  · rw [if_neg h, if_neg fun he => h he.symm, Option.getD_none]

/-- The log of a file in numbers. -/
def numbers (f : RegisterFile) : List (Nat × Nat) :=
  f.writes.map fun entry => (entry.1, entry.2.toNat)

theorem numbers_write (f : RegisterFile) (w : Width) (offset : Nat) (value : BitVec w.bits) :
    numbers (RegisterFile.device.write w.bits offset value f) =
      numbers f ++ [(offset, value.toNat)] := by
  rw [← toNat_word w value]
  exact List.map_append

/-- What was written to one register is what the log has about it. -/
theorem toNat_writesTo (f : RegisterFile) (offset : Nat) :
    (f.writesTo offset).map BitVec.toNat = (numbers f).filterMap (numberAt? offset) := by
  have hentry : ∀ entry : Nat × BitVec 64,
      (Option.guard (fun w : Nat × BitVec 64 => w.1 == offset) entry).map (fun w => w.2.toNat) =
        numberAt? offset (entry.1, entry.2.toNat) := by
    intro entry
    by_cases h : entry.1 = offset
    · simp only [Option.guard, h, beq_self_eq_true, if_true, Option.map_some, numberAt?]
    · simp only [Option.guard, beq_eq_false_iff_ne.mpr h, Bool.false_eq_true, if_false,
        Option.map_none, numberAt?, h]
  rw [RegisterFile.writesTo, numbers, List.map_map, List.filterMap_map, ← List.filterMap_eq_filter,
    List.map_filterMap]
  exact congrArg (List.filterMap · f.writes) (funext hentry)

/-- What a change makes of the value it reads. -/
def Change.apply {bits : Nat} (old : BitVec bits) : Change bits → BitVec bits
  | .modify keep set => (old &&& keep) ||| set
  | .setBits set => old ||| set
  | .clearBits clear => old &&& ~~~clear

/-- A change tells what it makes of the value it reads, and has written it. -/
theorem Change.run_program {bits : Nat} (how : Change bits) (offset : Nat) (f : RegisterFile) :
    let new := how.apply ((f.peek offset).setWidth bits)
    (how.program offset).run RegisterFile.device.machine f =
      (.ok new, RegisterFile.device.write bits offset new f) := by
  cases how <;> rfl

/-- On a bench a driver runs as it does on the bus of the file. -/
theorem run_drive {α : Type} (p : Driver Empty α) (f : RegisterFile) :
    (drive p).run machine f = p.run RegisterFile.device.machine f := by
  induction p generalizing f with
  | done outcome => rfl
  | ask operation next ih => exact ih _ _

namespace Call

/-- What a test is told. -/
def reply (f : RegisterFile) : Call → Reply
  | .read w offset => .value w ((f.peek offset).setWidth w.bits)
  | .change w offset how => .value w (how.apply ((f.peek offset).setWidth w.bits))
  | _ => .done

/-- The file after a call. -/
def left (f : RegisterFile) : Call → RegisterFile
  | .preset _ offset value => f.preset offset (value.setWidth 64)
  | .write w offset value => RegisterFile.device.write w.bits offset value f
  | .change w offset how =>
    RegisterFile.device.write w.bits offset (how.apply ((f.peek offset).setWidth w.bits)) f
  | .read _ _ => f
  | .clearLog => f.clearLog

/-- Every call is carried out. -/
theorem run_program (call : Call) (f : RegisterFile) :
    call.program.run machine f = (.ok (call.reply f), call.left f) := by
  cases call with
  | preset | write | read | clearLog => rfl
  | change w offset how =>
      have hrun := Program.run_bind machine (drive (how.program offset))
        (fun new => .done (.ok (Reply.value w new))) f
      rw [run_drive, how.run_program] at hrun
      exact hrun

/-- The register that a call stores in. -/
def target? : Call → Option Nat
  | .preset _ offset _ | .write _ offset _ | .change _ offset _ => some offset
  | .read _ _ | .clearLog => none

/-- A call leaves every other register as it was. -/
theorem peek_left (call : Call) (f : RegisterFile) (other : Nat) (h : call.target? ≠ some other) :
    (call.left f).peek other = f.peek other := by
  cases call with
  | preset w offset value =>
      rw [left, RegisterFile.peek_preset, if_neg fun he => h (congrArg some he.symm)]
  | write w offset value | change w offset how =>
      rw [left, RegisterFile.peek_write, if_neg fun he => h (congrArg some he.symm)]
  | read | clearLog => rfl

end Call

/-- A file that agrees with a record: in the registers and in the log. -/
structure Shows (past : List Turn) (f : RegisterFile) : Prop where
  registers : ∀ offset, (f.peek offset).toNat = held past offset
  log : numbers f = written past

theorem shows_empty : Shows [] .empty where
  registers offset := congrArg BitVec.toNat (RegisterMap.peek_empty offset)
  log := rfl

/-- A file that agreed with the record before a call agrees with it afterwards. -/
theorem shows_turn (past : List Turn) (f : RegisterFile) (h : Shows past f) (call : Call)
    (asked : List (Event interface)) :
    Shows (past ++ [⟨call, asked, .ok (call.reply f), ()⟩]) (call.left f) := by
  constructor
  case registers =>
    intro offset
    rw [held_concat, ← h.registers]
    cases call with
    | preset w other value =>
        rw [Call.left, RegisterFile.peek_preset, toNat_put]
        rfl
    | write w other value | change w other how =>
        rw [Call.left, RegisterFile.peek_write, toNat_put]
        rfl
    | read | clearLog => rfl
  case log =>
    rw [written_concat, ← h.log]
    cases call with
    | write w offset value | change w offset how => exact numbers_write f w offset _
    -- A preset goes past the log, like a read.
    | preset | read => exact (List.append_nil (numbers f)).symm
    | clearLog => rfl

theorem leaves_call (f : RegisterFile) (call : Call) :
    service.leaves machine () f [call] = call.left f :=
  congrArg Prod.snd (call.run_program f)

/-- After any session the file agrees with the record of it. -/
theorem shows_session (past : List Call) :
    Shows (service.turns machine () .empty past) (service.leaves machine () .empty past) := by
  -- The last call is made on the file as the session before it has left it.
  induction past using List.reverseRecOn with
  | nil => exact shows_empty
  | append_singleton past call ih =>
      rcases service.turns_call machine (service.leaves machine () .empty past) call with
        ⟨asked, hturn⟩
      have houtcome := congrArg Prod.fst (call.run_program (service.leaves machine () .empty past))
      rw [Service.turns_append, Service.leaves_append, hturn, leaves_call]
      exact houtcome ▸ shows_turn _ _ ih call asked

/-- A call that changes a register: the test is told the new value, and the register holds its
    number. -/
structure Changes (f : RegisterFile) (w : Width) (offset : Nat) (how : Change w.bits)
    (new : BitVec w.bits) : Prop where
  told : service.Tells machine f (.change w offset how) (.value w new)
  stored : ((service.leaves machine () f [.change w offset how]).peek offset).toNat = new.toNat

/-- A file that goes on as its record says. It agrees with the record, and so does what was
    written to one register. Every call is carried out. A value that is read is the number held,
    cut to the width; what is changed is this value; and a call leaves the other registers
    alone. -/
structure Remembers (past : List Turn) (f : RegisterFile) : Prop extends Shows past f where
  writesTo : ∀ offset,
    (f.writesTo offset).map BitVec.toNat = (written past).filterMap (numberAt? offset)
  carried : ∀ call, ∃ reply, service.Tells machine f call reply
  reads : ∀ w offset,
    service.Tells machine f (.read w offset) (.value w (.ofNat w.bits (held past offset)))
  modifies : ∀ w offset keep set, Changes f w offset (.modify keep set)
    ((.ofNat w.bits (held past offset) &&& keep) ||| set)
  sets : ∀ w offset set, Changes f w offset (.setBits set)
    (.ofNat w.bits (held past offset) ||| set)
  clears : ∀ w offset clear, Changes f w offset (.clearBits clear)
    (.ofNat w.bits (held past offset) &&& ~~~clear)
  others : ∀ call offset, call.target? ≠ some offset →
    (service.leaves machine () f [call]).peek offset = f.peek offset

theorem tells_reply (f : RegisterFile) (call : Call) :
    service.Tells machine f call (call.reply f) :=
  congrArg Prod.fst (call.run_program f)

/-- A change does what it is to do, from the number held. -/
theorem changes_held (past : List Turn) (f : RegisterFile) (h : Shows past f) (w : Width)
    (offset : Nat) (how : Change w.bits) :
    Changes f w offset how (how.apply (.ofNat w.bits (held past offset))) := by
  have hold : (f.peek offset).setWidth w.bits = .ofNat w.bits (held past offset) := by
    rw [← h.registers, BitVec.ofNat_toNat]
  rw [← hold]
  constructor
  case told => exact tells_reply f (.change w offset how)
  case stored =>
    rw [leaves_call, Call.left, RegisterFile.peek_write, if_pos rfl, toNat_word]

/-- The file remembers a session as it was. -/
theorem session_remembered (past : List Call) :
    Remembers (service.turns machine () .empty past) (service.leaves machine () .empty past) := by
  have hshows := shows_session past
  constructor
  case toShows => exact hshows
  case writesTo =>
    intro offset
    rw [toNat_writesTo, hshows.log]
  case carried => exact fun call => ⟨_, tells_reply _ call⟩
  case reads =>
    intro w offset
    rw [← hshows.registers, BitVec.ofNat_toNat]
    exact tells_reply _ (.read w offset)
  case modifies =>
    exact fun w offset keep set => changes_held _ _ hshows w offset (.modify keep set)
  case sets => exact fun w offset set => changes_held _ _ hshows w offset (.setBits set)
  case clears => exact fun w offset clear => changes_held _ _ hshows w offset (.clearBits clear)
  case others =>
    intro call offset h
    rw [leaves_call, call.peek_left _ offset h]

-- A byte is the low end of what a wider write has left, and writing it back clears the rest.
example : (service.turns machine () .empty [.write .double 0 0x1122334455667788,
    .change .byte 0 (.setBits 0x77), .read .double 0]).map Service.Turn.outcome =
      [.ok .done, .ok (.value .byte 0xFF), .ok (.value .double 0xFF)] := by
  decide

end Bench

end BoardSupport
