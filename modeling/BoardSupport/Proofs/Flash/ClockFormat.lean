import Mathlib.Algebra.Group.Nat.Defs
import BoardSupport.Proofs.Device.Simulated
import BoardSupport.Proofs.Flash.Writes
import BoardSupport.Proofs.Program.Sessions
import BoardSupport.Proofs.Register.Field

/-!
# Clock and Frame Format

What any calls on a controller leave in its control register.

The register packs the clock divider, the frame format and the soft reset. Two
calls change it, and both read it first and put back all of it but the fields
that they are about. Transfers write registers of their own, and this one is not
among them. So of all that came of a call only this matters here, and `reformat`
says what it does to the word in the register.

A run is a fold of such steps. The frame format goes through it unchanged, soft
reset stays once it is set, and the divider is the one that was put there last.

This is a statement about a machine whose control register stores what is
written to it. `StoresControl` says so and leaves open what else the machine
does.

## Main definitions

* `Flash.StoresControl`: A machine whose control register stores.
* `Flash.reformat`: What a turn does to the control register.
* `Flash.divider?`, `Flash.isSetup`: The turns that count.
* `Flash.Formatted`: What calls leave in the control register.
* `Flash.ShowsControl`: What a simulated device has in its control register.

## Theorems

* `Flash.conversation_setup`, `Flash.conversation_setClockDivider`: The two calls
  are refused without an access, or write the register once.
* `Flash.shows_turn`: One turn leaves the word that `reformat` says.
* `Flash.foldl_format`, `Flash.foldl_reset`, `Flash.foldl_divider`: The fields
  after any turns.
* `Flash.service_formatted`: Clock and frame format survive every session.
* `Flash.storesControl_simulated`: The control register of a simulated device
  stores.
-/

namespace BoardSupport

namespace Flash

open Bus (readEvent writeEvent logEvent)

/-- A set-up is refused without an access, or it puts back the control register
    with the default divider and soft reset. -/
theorem conversation_setup (count : Nat) (events : List (Event Bus.interface))
    (outcome : Outcome ReadFailure (List UInt8))
    (h : (Call.setup count).program.Conversation events outcome) :
    (events = [] ∧ ∃ failure, outcome = .error failure) ∨
      ∃ ctrl template level message, outcome = .ok [] ∧
        events = [writeEvent 32 Offset.memoryMapped 0, readEvent 32 Offset.control ctrl,
          writeEvent 32 Offset.control
            (Control.srst.put 1 (Control.sckDiv.put defaultClockDivider ctrl)),
          writeEvent 32 Offset.chipEnable 0, writeEvent 32 Offset.transfer template,
          logEvent level message] := by
  rw [Call.program, setup] at h
  cases hidle : Transfer.idle count with
  | error cause =>
      rw [hidle] at h
      rcases (Program.conversation_done _ _ _).mp h with ⟨rfl, rfl⟩
      exact Or.inl ⟨rfl, _, rfl⟩
  | ok template =>
      rw [hidle] at h
      rcases (Program.conversation_ask _ _ _ _).mp h with ⟨_, _, rfl, hread⟩
      rcases (Program.conversation_ask _ _ _ _).mp hread with ⟨ctrl, _, rfl, hwrite⟩
      rcases (Program.conversation_ask _ _ _ _).mp hwrite with ⟨_, _, rfl, hchip⟩
      rcases (Program.conversation_ask _ _ _ _).mp hchip with ⟨_, _, rfl, hleave⟩
      rcases (Program.conversation_ask _ _ _ _).mp hleave with ⟨_, _, rfl, hlog⟩
      rcases (Program.conversation_ask _ _ _ _).mp hlog with ⟨_, _, rfl, hdone⟩
      rcases (Program.conversation_done _ _ _).mp hdone with ⟨rfl, rfl⟩
      exact Or.inr ⟨ctrl, template, _, _, rfl, rfl⟩

/-- A clock divider is refused without an access, or it fits and is put into the
    control register. -/
theorem conversation_setClockDivider (divider : Nat) (events : List (Event Bus.interface))
    (outcome : Outcome ReadFailure (List UInt8))
    (h : (Call.setClockDivider divider).program.Conversation events outcome) :
    (events = [] ∧ ∃ failure, outcome = .error failure) ∨
      ∃ ctrl level message, outcome = .ok [] ∧ divider < Control.sckDiv.limit ∧
        events = [readEvent 32 Offset.control ctrl,
          writeEvent 32 Offset.control (Control.sckDiv.put divider ctrl),
          logEvent level message] := by
  rw [Call.program, setClockDivider] at h
  by_cases hlarge : divider > maxClockDivider
  · rw [if_pos hlarge] at h
    rcases (Program.conversation_done _ _ _).mp h with ⟨rfl, rfl⟩
    exact Or.inl ⟨rfl, _, rfl⟩
  · rw [if_neg hlarge] at h
    rcases (Program.conversation_ask _ _ _ _).mp h with ⟨ctrl, _, rfl, hwrite⟩
    rcases (Program.conversation_ask _ _ _ _).mp hwrite with ⟨_, _, rfl, hlog⟩
    rcases (Program.conversation_ask _ _ _ _).mp hlog with ⟨_, _, rfl, hdone⟩
    rcases (Program.conversation_done _ _ _).mp hdone with ⟨rfl, rfl⟩
    exact Or.inr ⟨ctrl, _, _, rfl, Nat.lt_succ_of_le (Nat.le_of_not_lt hlarge), rfl⟩

/-- What came of one call on a controller. -/
abbrev Turn :=
  Service.Turn Bus.interface Unit Call ReadFailure (List UInt8)

/-- A turn in which a set-up has succeeded. -/
def isSetup (t : Turn) : Bool :=
  match t.call, t.outcome with
  | .setup _, .ok _ => true
  | _, _ => false

/-- The clock divider that a turn has programmed. A set-up programs three. -/
def divider? (t : Turn) : Option Nat :=
  match t.call, t.outcome with
  | .setup _, .ok _ => some 3
  | .setClockDivider divider, .ok _ => some divider
  | _, _ => none

/-- The word that a turn leaves in the control register, from the one that it has
    found there. -/
def reformat (cr : BitVec 32) (t : Turn) : BitVec 32 :=
  match t.call, t.outcome with
  | .setup _, .ok _ => Control.srst.put 1 (Control.sckDiv.put defaultClockDivider cr)
  | .setClockDivider divider, .ok _ => Control.sckDiv.put divider cr
  | _, _ => cr

/-- A turn that was refused has asked for nothing, and a divider that was not
    refused fits. -/
structure Regular (t : Turn) : Prop where
  refused : ∀ failure, t.outcome = .error failure → (∀ request, t.call ≠ .transfer request) →
    t.asked = []
  fits : ∀ divider, divider? t = some divider → divider < Control.sckDiv.limit

section Fields

/-- The frame format goes through a turn unchanged. -/
theorem reformat_format (cr : BitVec 32) (t : Turn) (i : Nat) (hlow : 11 ≤ i) (hreset : i ≠ 21) :
    (reformat cr t).getLsbD i = cr.getLsbD i := by
  have hdivider : ∀ divider, (Control.sckDiv.put divider cr).getLsbD i = cr.getLsbD i :=
    fun divider => Control.sckDiv.getLsbD_put_of_outside divider cr i (Or.inr hlow)
  unfold reformat
  split
  · rw [Control.srst.getLsbD_put_of_outside _ _ _ (Nat.lt_or_gt_of_ne hreset), hdivider]
  · exact hdivider _
  · rfl

/-- Soft reset stays once it is set, and a set-up sets it. -/
theorem reformat_reset (cr : BitVec 32) (t : Turn) :
    (reformat cr t).getLsbD 21 = (cr.getLsbD 21 || isSetup t) := by
  have hdivider : ∀ divider, (Control.sckDiv.put divider cr).getLsbD 21 = cr.getLsbD 21 :=
    fun divider => Control.sckDiv.getLsbD_put_of_outside divider cr 21 (Or.inr (by decide))
  have hput : ∀ word : BitVec 32, (Control.srst.put 1 word).getLsbD 21 = true := by
    intro word
    have hflag := Register.isSet_put_flag "srst" 21 1 word (by decide)
    rw [Register.isSet_flag] at hflag
    exact hflag
  rcases t with ⟨call, asked, outcome, kept⟩
  cases call with
  | setup count =>
      cases outcome with
      | ok => exact (hput _).trans (Bool.or_true _).symm
      | error | fault => exact (Bool.or_false _).symm
  | setClockDivider divider =>
      cases outcome with
      | ok => exact (hdivider divider).trans (Bool.or_false _).symm
      | error | fault => exact (Bool.or_false _).symm
  | transfer => exact (Bool.or_false _).symm

/-- The clock divider is the one that the turn has programmed, or what it was. -/
theorem reformat_divider (cr : BitVec 32) (t : Turn) (ht : Regular t) :
    Control.sckDiv.get (reformat cr t) = (divider? t).getD (Control.sckDiv.get cr) := by
  have hput : ∀ divider, divider < Control.sckDiv.limit →
      Control.sckDiv.get (Control.sckDiv.put divider cr) = divider := by
    intro divider hfits
    rw [Control.sckDiv.get_put divider cr (by decide), Nat.mod_eq_of_lt hfits]
  rcases t with ⟨call, asked, outcome, kept⟩
  cases call with
  | setup count =>
      cases outcome with
      | ok =>
          have hapart := Control.sckDiv.get_put_of_apart Control.srst 1
            (Control.sckDiv.put defaultClockDivider cr) (Or.inl (by decide))
          exact hapart.trans (hput _ (by decide))
      | error | fault => rfl
  | setClockDivider divider =>
      cases outcome with
      | ok => exact hput divider (ht.fits divider rfl)
      | error | fault => rfl
  | transfer => rfl

-- From one turn to all of them.
theorem foldl_format (cr : BitVec 32) (turns : List Turn) (i : Nat) (hlow : 11 ≤ i)
    (hreset : i ≠ 21) : (turns.foldl reformat cr).getLsbD i = cr.getLsbD i := by
  induction turns generalizing cr with
  | nil => rfl
  | cons t rest ih => rw [List.foldl_cons, ih, reformat_format cr t i hlow hreset]

theorem foldl_reset (cr : BitVec 32) (turns : List Turn) :
    (turns.foldl reformat cr).getLsbD 21 = (cr.getLsbD 21 || turns.any isSetup) := by
  induction turns generalizing cr with
  | nil => exact (Bool.or_false _).symm
  | cons t rest ih => rw [List.foldl_cons, ih, reformat_reset, Bool.or_assoc, List.any_cons]

theorem foldl_divider (cr : BitVec 32) (turns : List Turn) (h : ∀ t ∈ turns, Regular t) :
    Control.sckDiv.get (turns.foldl reformat cr) =
      latest divider? (Control.sckDiv.get cr) turns := by
  induction turns generalizing cr with
  | nil => rfl
  | cons t rest ih =>
      rw [List.foldl_cons, ih _ fun t' ht => h t' (List.mem_cons_of_mem t ht), latest_cons,
        reformat_divider cr t (h t List.mem_cons_self)]

end Fields

/-- A machine whose control register stores what is written to it, and is changed
    by nothing else. It is also told which states show which word in the
    register. -/
structure StoresControl {σ : Type} (machine : Machine Bus.interface σ)
    (Shows : σ → BitVec 32 → Prop) : Prop where
  control : ∀ s cr, Shows s cr → (machine (.read 32 Offset.control) s).1 = cr
  read : ∀ bits offset s cr, Shows s cr → Shows (machine (.read bits offset) s).2 cr
  write : ∀ value s cr, Shows s cr → Shows (machine (.write 32 Offset.control value) s).2 value
  other : ∀ bits offset value s cr, offset ≠ Offset.control → Shows s cr →
    Shows (machine (.write bits offset value) s).2 cr
  log : ∀ level message s cr, Shows s cr → Shows (machine (.log level message) s).2 cr

section Storing

variable {σ : Type} {machine : Machine Bus.interface σ} {Shows : σ → BitVec 32 → Prop}
  (hm : StoresControl machine Shows)

include hm

/-- What a transfer writes leaves the control register as it is. -/
theorem shows_of_writesTransfer (events : List (Event Bus.interface)) (h : WritesTransfer events)
    (s u : σ) (cr : BitVec 32) (hs : Shows s cr) (hr : machine.Replies s events u) :
    Shows u cr := by
  induction events generalizing s with
  | nil =>
      cases hr
      exact hs
  | cons e rest ih =>
      have hrest : WritesTransfer rest := by
        intro a ha
        exact h a ((Bus.accesses_append [e] rest).symm ▸ List.mem_append_right _ ha)
      refine ih hrest _ ?_ hr.2
      rcases e with ⟨operation, answer⟩
      cases operation with
      | read bits offset => exact hm.read bits offset s cr hs
      | write bits offset value =>
          have hin : offset ∈ transferRegisters := h _ List.mem_cons_self rfl
          have hother : offset ≠ Offset.control := by
            rintro rfl
            exact absurd hin (by decide)
          exact hm.other bits offset value s cr hother hs
      | log level message => exact hm.log level message s cr hs

/-- A turn leaves the word that `reformat` says. -/
theorem shows_turn (call : Call) (events : List (Event Bus.interface))
    (outcome : Outcome ReadFailure (List UInt8)) (h : call.program.Conversation events outcome)
    (s u : σ) (cr : BitVec 32) (hs : Shows s cr) (hr : machine.Replies s events u) :
    Shows u (reformat cr ⟨call, events, outcome, ()⟩) := by
  cases call with
  | setup count =>
      rcases conversation_setup count events outcome h with ⟨rfl, failure, rfl⟩ |
        ⟨ctrl, template, level, message, rfl, rfl⟩
      · cases hr
        exact hs
      · rcases hr with ⟨-, hread, -, -, -, -, hend⟩
        have hmapped := hm.other 32 Offset.memoryMapped 0 s cr (by decide) hs
        have hctrl := (hm.control _ cr hmapped).symm.trans hread
        have hwritten := hm.write (Control.srst.put 1 (Control.sckDiv.put defaultClockDivider ctrl))
          _ cr (hm.read 32 Offset.control _ cr hmapped)
        have hchip := hm.other 32 Offset.chipEnable 0 _ _ (by decide) hwritten
        have hidle := hm.other 32 Offset.transfer template _ _ (by decide) hchip
        cases hend
        rw [hctrl]
        exact hm.log level message _ _ hidle
  | setClockDivider divider =>
      rcases conversation_setClockDivider divider events outcome h with ⟨rfl, failure, rfl⟩ |
        ⟨ctrl, level, message, rfl, -, rfl⟩
      · cases hr
        exact hs
      · rcases hr with ⟨hread, -, -, hend⟩
        have hctrl := (hm.control s cr hs).symm.trans hread
        have hwritten := hm.write (Control.sckDiv.put divider ctrl) _ cr
          (hm.read 32 Offset.control s cr hs)
        cases hend
        rw [hctrl]
        exact hm.log level message _ _ hwritten
  | transfer request =>
      exact shows_of_writesTransfer hm events (request.passes events outcome h).1 s u cr hs hr

/-- Calls in a row leave the word that their turns make of the first. -/
theorem shows_leaves (calls : List Call) (s : σ) (cr : BitVec 32) (hs : Shows s cr) :
    Shows (service.leaves machine () s calls)
      ((service.turns machine () s calls).foldl reformat cr) := by
  induction calls generalizing s cr with
  | nil => exact hs
  | cons call rest ih =>
      have hasked := machine.conversation_recorded (service.program () call) s
      have hrun := machine.run_recorded (service.program () call) (.start s)
      have hturn := shows_turn hm call _ _ hasked.1 s _ cr hs hasked.2
      have hrest := ih _ _ hturn
      rw [hrun.2] at hrest
      rw [Service.turns_cons, List.foldl_cons, Service.leaves]
      rw [hrun.2]
      exact hrest

end Storing

/-- Every turn is regular. -/
theorem regular_turns {σ : Type} (machine : Machine Bus.interface σ) (s : σ) (calls : List Call) :
    ∀ t ∈ service.turns machine () s calls, Regular t := by
  refine service.forall_turns (fun _ => True) Regular (fun _ call events outcome _ h => ?_)
    machine () s calls trivial
  refine ⟨trivial, ?_⟩
  cases call with
  | setup count =>
      rcases conversation_setup count events outcome h with ⟨rfl, failure, rfl⟩ |
        ⟨ctrl, template, level, message, rfl, -⟩
      · exact ⟨fun _ _ _ => rfl, nofun⟩
      · refine ⟨nofun, fun divider hd => ?_⟩
        cases hd
        decide
  | setClockDivider divider =>
      rcases conversation_setClockDivider divider events outcome h with ⟨rfl, failure, rfl⟩ |
        ⟨ctrl, level, message, rfl, hfits, -⟩
      · exact ⟨fun _ _ _ => rfl, nofun⟩
      · refine ⟨nofun, fun divider' hd => ?_⟩
        cases hd
        exact hfits
  | transfer request => exact ⟨fun _ _ hcall => absurd rfl (hcall request), nofun⟩

/-- What some turns have left in a control register that held a word before. -/
structure Formatted {σ : Type} (machine : Machine Bus.interface σ) (Shows : σ → BitVec 32 → Prop)
    (cr : BitVec 32) (turns : List Turn) (now : σ) : Prop where
  /-- The bits above the divider are what they were, but for soft reset, which is
      set if it was or if a set-up has succeeded. -/
  format : ∃ word, Shows now word ∧ (∀ i, 11 ≤ i → i ≠ 21 → word.getLsbD i = cr.getLsbD i) ∧
    word.getLsbD 21 = (cr.getLsbD 21 || turns.any isSetup)
  /-- The divider is the one that was programmed last. -/
  divider : ((clockDivider : Driver ReadFailure Nat).run machine now).1 =
    .ok (latest divider? (cr.toNat % 2 ^ 11) turns)
  /-- A set-up or a divider that is refused changes no register. -/
  refused : ∀ t ∈ turns, ∀ failure, t.outcome = .error failure →
    (∀ request, t.call ≠ .transfer request) → t.asked = []

/-- Clock and frame format survive every session. -/
theorem service_formatted {σ : Type} {machine : Machine Bus.interface σ}
    {Shows : σ → BitVec 32 → Prop} (hm : StoresControl machine Shows) (calls : List Call) (s : σ)
    (cr : BitVec 32) (hs : Shows s cr) :
    Formatted machine Shows cr (service.turns machine () s calls)
      (service.leaves machine () s calls) := by
  have hregular := regular_turns machine s calls
  have hshows := shows_leaves hm calls s cr hs
  constructor
  case format =>
    exact ⟨_, hshows, fun i hlow hreset => foldl_format cr _ i hlow hreset, foldl_reset cr _⟩
  case divider =>
    have hlow : Control.sckDiv.get cr = cr.toNat % 2 ^ 11 := rfl
    have hrun : ((clockDivider : Driver ReadFailure Nat).run machine
          (service.leaves machine () s calls)).1 = .ok (Control.sckDiv.get
        (machine (.read 32 Offset.control) (service.leaves machine () s calls)).1) := rfl
    rw [hrun, hm.control _ _ hshows, foldl_divider cr _ hregular, hlow]
  case refused => exact fun t ht => (hregular t ht).refused

/-- A simulated device that is no I2C controller, and for whose control register
    no answers are laid out, shows the word that is stored there. -/
structure ShowsControl (d : Device.Simulated) (cr : BitVec 32) : Prop where
  reaction : ∀ model, d.reaction ≠ .i2c model
  unscripted : d.scripts.getD Offset.control [] = []
  held : (d.registers.peek Offset.control).setWidth 32 = cr

-- The register is no end of the FIFO, so what is stored there is what is answered.
theorem answer_control (d : Device.Simulated) (cr : BitVec 32) (hs : ShowsControl d cr) :
    d.answer Offset.control = (d.registers.peek Offset.control, d) :=
  d.answer_stored Offset.control hs.unscripted fun _ _ => rfl

-- A read of any register leaves it as it is.
theorem showsControl_answer (d : Device.Simulated) (cr : BitVec 32) (offset : Nat)
    (hs : ShowsControl d cr) : ShowsControl (d.answer offset).2 cr := by
  refine ⟨?_, d.scripts_answer offset _ hs.unscripted, ?_⟩
  · rcases d.reaction_answer offset with hsame | ⟨-, model, -, hflash⟩
    · rw [hsame]
      exact hs.reaction
    · rw [hflash]
      nofun
  · rw [d.registers_answer]
    exact hs.held

-- Of the registers, the reaction to a write changes only the interrupt status.
theorem peek_afterWrite (model : Device.FlashModel) (registers : RegisterMap) (offset : Nat)
    (word : BitVec 64) :
    (model.afterWrite registers offset word).2.peek Offset.control =
      registers.peek Offset.control := by
  have hother : Offset.control ≠ Offset.interruptStatus := by decide
  unfold Device.FlashModel.afterWrite
  by_cases hgo : (offset = Offset.transfer && Transfer.go.isSet word) = true
  · rw [if_pos hgo]
    cases hstuck : model.stuck with
    | true => rfl
    | false => exact (registers.peek_poke _ _ _).trans (if_neg hother)
  · rw [if_neg hgo]

-- What a write stores at one offset leaves the words at the others alone, and the
-- reaction to it does not change the control register.
theorem showsControl_accept (d : Device.Simulated) (cr now : BitVec 32) (offset : Nat)
    (word : BitVec 64) (hs : ShowsControl d cr)
    (hnow : ((d.registers.poke offset word).peek Offset.control).setWidth 32 = now) :
    ShowsControl (d.accept offset word) now := by
  unfold Device.Simulated.accept
  cases hr : d.reaction with
  | none => exact ⟨nofun, hs.unscripted, hnow⟩
  | i2c model => exact absurd hr (hs.reaction model)
  | flash model =>
      refine ⟨nofun, hs.unscripted, ?_⟩
      exact (congrArg (BitVec.setWidth 32) (peek_afterWrite model _ offset word)).trans hnow

/-- The control register of a simulated device stores. -/
theorem storesControl_simulated : StoresControl Device.simulated.machine ShowsControl where
  control d cr hs := by
    change (d.answer Offset.control).1.setWidth 32 = cr
    rw [answer_control d cr hs]
    exact hs.held
  read bits offset d cr hs := showsControl_answer d cr offset hs
  write value d cr hs := by
    refine showsControl_accept d cr value Offset.control (value.setWidth 64) hs ?_
    rw [RegisterMap.peek_poke, if_pos rfl]
    exact BitVec.setWidth_setWidth_of_le value (by decide)
  other bits offset value d cr h hs := by
    refine showsControl_accept d cr cr offset (value.setWidth 64) hs ?_
    rw [RegisterMap.peek_poke, if_neg h.symm]
    exact hs.held
  log _ _ _ _ hs := hs

/-- A controller with a divider and a frame format of its own, which never ends a
    transfer. -/
def framed : Device.Simulated :=
  ⟨RegisterMap.empty.poke Offset.control 0x8015F123, ∅, .flash ⟨[0xC2, 0x20], 0, true, 0⟩⟩

theorem service_formatted_framed :
    ShowsControl framed 0x8015F123 ∧
      Formatted Device.simulated.machine ShowsControl 0x8015F123
        (service.turns Device.simulated.machine () framed
          [.setClockDivider 0x800, .setup 3, .setClockDivider 40, .setup 5,
            .transfer (.readRegister 0x9F 2 4), .transfer (.erase 0xD8 0x1000 3 4)])
        (service.leaves Device.simulated.machine () framed
          [.setClockDivider 0x800, .setup 3, .setClockDivider 40, .setup 5,
            .transfer (.readRegister 0x9F 2 4), .transfer (.erase 0xD8 0x1000 3 4)]) := by
  have hheld : (framed.registers.peek Offset.control).setWidth 32 = (0x8015F123 : BitVec 32) := by
    rw [framed, RegisterMap.peek_poke, if_pos rfl]
    decide
  have hshows : ShowsControl framed 0x8015F123 := ⟨nofun, rfl, hheld⟩
  exact ⟨hshows, service_formatted storesControl_simulated _ framed _ hshows⟩

end Flash

end BoardSupport
