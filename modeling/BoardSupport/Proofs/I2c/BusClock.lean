import BoardSupport.Proofs.Device.Simulated
import BoardSupport.Proofs.I2c.Orderly

/-!
# The Bus Clock

The clock that a controller reports is the clock that it has programmed.

The driver keeps nothing about the bus clock. What a client is told about it
later is read back from the control register, so the register has to store
what is written to it. `StoresControl` says this of a machine, and leaves open
what else the machine does.

Between starting and transferring, a client tunes: it sets the bus clock, asks
for the divisors, and looks at the bus and at the interrupts. Such a call
either leaves the control register alone or puts divisors into it, and
`Tunes` says which word it leaves behind. Calls in a row hand that word on
from one to the next, and all statements about a run are read off the words
between its turns.

Clearing the FIFO is requested by a bit of the control register that does not
stay. The bit lies below the divisors, so a run that starts without it never
writes it.

## Main definitions

* `I2c.StoresControl`: A machine whose control register stores.
* `I2c.Looks`, `I2c.Spares`: Events that write nothing, and events that leave
  the lower byte of the control register as it is.
* `I2c.Call.isTuning`: The calls of a client that tunes.
* `I2c.Tunes`, `I2c.TunesAll`: What a turn, and some turns, leave in the control
  register.
* `I2c.Programs`: A turn that has set the bus clock.
* `I2c.Tuned`: What is true of a run in which a client tunes.
* `I2c.ShowsControl`: What a simulated device has in its control register.

## Theorems

* `I2c.Controller.conversation_setBusFrequency`: A request is refused without
  an access, or one word is written.
* `I2c.Controller.tunes_serve`: A tuning call leaves behind a known word.
* `I2c.tunesAll_turns`: So do calls in a row.
* `I2c.TunesAll.reported`: The divisors asked for give the clock reported last.
* `I2c.service_tuned`: A run in which a client tunes.
* `I2c.storesControl_simulated`: The control register of a simulated device
  stores.
-/

namespace BoardSupport

namespace I2c

open Bus (accesses readEvent writeEvent logEvent)
open Device (I2cModel)

variable {σ : Type}

/-- A machine whose control register stores what is written to it, as long as
    that does not ask for the FIFO to be cleared. It is also told which states
    show which word in the register. -/
structure StoresControl (machine : Machine Bus.interface σ) (Shows : σ → BitVec 16 → Prop) :
    Prop where
  control : ∀ s cr, Shows s cr → (machine (.read 16 Offset.control) s).1 = cr
  read : ∀ offset s cr, Shows s cr → Shows (machine (.read 16 offset) s).2 cr
  write : ∀ value s cr, Shows s cr → Control.clrfifo.isSet value = false →
    Shows (machine (.write 16 Offset.control value) s).2 value
  log : ∀ level message s cr, Shows s cr → Shows (machine (.log level message) s).2 cr

/-- A read of a register, or a log record. -/
def Looks (e : Event Bus.interface) : Prop :=
  (∃ offset answer, e = readEvent 16 offset answer) ∨ ∃ level message, e = logEvent level message

/-- Nothing but the upper byte of the control register is changed. -/
def Spares (low : BitVec 8) (e : Event Bus.interface) : Prop :=
  Looks e ∨ ∃ value, e = writeEvent 16 Offset.control value ∧ value.setWidth 8 = low

theorem observes_looks : Observes fun events => ∀ e ∈ events, Looks e where
  composes := composes_forall Looks
  read offset value _ := List.forall_mem_singleton.mpr (Or.inl ⟨offset, value, rfl⟩)
  log level message := List.forall_mem_singleton.mpr (Or.inr ⟨level, message, rfl⟩)

-- Who looks does not write.
theorem isWrite_of_looks (events : List (Event Bus.interface)) (h : ∀ e ∈ events, Looks e) :
    ∀ a ∈ accesses events, a.isWrite = false := by
  intro a ha
  rcases List.mem_filterMap.mp ha with ⟨e, he, hae⟩
  rcases h e he with ⟨offset, answer, rfl⟩ | ⟨level, message, rfl⟩
  · cases hae
    rfl
  · cases hae

-- The request to clear the FIFO is in the lower byte.
theorem clrfifo_eq_of_low (v w : BitVec 16) (h : v.setWidth 8 = w.setWidth 8) :
    Control.clrfifo.isSet v = Control.clrfifo.isSet w := by
  have hv : (v.setWidth 8).getLsbD 6 = v.getLsbD 6 := by
    rw [BitVec.getLsbD_setWidth, decide_eq_true (by decide), Bool.true_and]
  have hw : (w.setWidth 8).getLsbD 6 = w.getLsbD 6 := by
    rw [BitVec.getLsbD_setWidth, decide_eq_true (by decide), Bool.true_and]
  rw [Control.clrfifo, Register.isSet_flag, Register.isSet_flag, ← hv, ← hw, h]

section Storing

variable {machine : Machine Bus.interface σ} {Shows : σ → BitVec 16 → Prop}
  (hm : StoresControl machine Shows)

include hm

theorem shows_looks (e : Event Bus.interface) (he : Looks e) (s : σ) (cr : BitVec 16)
    (hs : Shows s cr) : Shows (machine e.operation s).2 cr := by
  rcases he with ⟨offset, answer, rfl⟩ | ⟨level, message, rfl⟩
  · exact hm.read offset s cr hs
  · exact hm.log level message s cr hs

/-- Looking leaves the control register as it is. -/
theorem shows_of_looks (events : List (Event Bus.interface)) (he : ∀ e ∈ events, Looks e)
    (s u : σ) (cr : BitVec 16) (hs : Shows s cr) (hr : machine.Replies s events u) :
    Shows u cr := by
  induction events generalizing s with
  | nil =>
      cases hr
      exact hs
  | cons e rest ih =>
      have hnext := shows_looks hm e (he e List.mem_cons_self) s cr hs
      exact ih (fun e' h => he e' (List.mem_cons_of_mem e h)) _ hnext hr.2

/-- What spares the lower byte of the control register leaves it as it is at
    every point. -/
theorem shows_of_spares (events : List (Event Bus.interface)) (low : BitVec 8)
    (he : ∀ e ∈ events, Spares low e) (s u : σ) (cr : BitVec 16) (hs : Shows s cr)
    (hlow : cr.setWidth 8 = low) (hclear : Control.clrfifo.isSet cr = false)
    (hr : machine.Replies s events u) : ∃ now, Shows u now ∧ now.setWidth 8 = low := by
  -- The word changes with each write, but not the byte that says that the FIFO is
  -- not to be cleared.
  induction events generalizing s cr with
  | nil =>
      cases hr
      exact ⟨cr, hs, hlow⟩
  | cons e rest ih =>
      have hrest : ∀ e' ∈ rest, Spares low e' := fun e' h => he e' (List.mem_cons_of_mem e h)
      rcases he e List.mem_cons_self with hlook | ⟨value, rfl, hvalue⟩
      · exact ih hrest _ cr (shows_looks hm e hlook s cr hs) hlow hclear hr.2
      · have hkeep : Control.clrfifo.isSet value = false := by
          rw [clrfifo_eq_of_low value cr (hvalue.trans hlow.symm), hclear]
        exact ih hrest _ value (hm.write value s cr hs hkeep) hvalue hkeep hr.2

end Storing

/-- A call of a client that tunes: neither a reset nor a start. -/
def Call.isTuning : Call → Bool
  | .reset => false
  | .start => false
  | _ => true

/-- What came of one call on a controller. -/
abbrev Turn :=
  Service.Turn Bus.interface Controller Call Controller.Failure (Reply × Controller)

/-- A turn that has set the bus clock and reported it. -/
def Programs (turn : Turn) (hertz : Nat) : Prop :=
  ∃ requested kept, turn.call = .setBusFrequency requested ∧
    turn.outcome = .ok (.clock hertz, kept)

/-- What a turn on a controller leaves in a control register that holds a
    word. -/
inductive Tunes (c : Controller) (cr : BitVec 16) : Turn → BitVec 16 → Prop
  /-- A clock is set, and the word with its divisors is all that is written. -/
  | programmed (requested : UInt32) (d : Divisors) (level : Log.Level) (message : String)
      (fits : d.Fits) :
      Tunes c cr ⟨.setBusFrequency requested,
        [readEvent 16 Offset.control cr, writeEvent 16 Offset.control (d.into cr),
          logEvent level message],
        .ok (.clock (d.clock c.install.inputClock), c), c⟩ (d.into cr)
  /-- A clock is refused. -/
  | refused (requested : UInt32) (cause : Error) (level : Log.Level) (message : String) :
      Tunes c cr ⟨.setBusFrequency requested, [logEvent level message], .error ⟨cause, c⟩, c⟩ cr
  /-- The divisors in the register are delivered. -/
  | divisors :
      Tunes c cr ⟨.busDivisors, [readEvent 16 Offset.control cr],
        .ok (.divisors (.ofControl cr), c), c⟩ cr
  /-- Something else is looked at. -/
  | looked (call : Call) (events : List (Event Bus.interface))
      (outcome : Outcome Controller.Failure (Reply × Controller))
      (other : ∀ requested, call ≠ .setBusFrequency requested) (notDivisors : call ≠ .busDivisors)
      (looks : ∀ e ∈ events, Looks e) (ends : outcome ≠ .fault) :
      Tunes c cr ⟨call, events, outcome, c⟩ cr

/-- What some turns leave in a control register. -/
inductive TunesAll (c : Controller) : BitVec 16 → List Turn → BitVec 16 → Prop
  | nil (cr : BitVec 16) : TunesAll c cr [] cr
  | cons {cr now last : BitVec 16} {turn : Turn} {rest : List Turn} (first : Tunes c cr turn now)
      (later : TunesAll c now rest last) : TunesAll c cr (turn :: rest) last

namespace Controller

variable (c : Controller)

/-- A request is refused without an access, or divisors that fit are found and
    one word is written, the one that was read with the divisors put into it. -/
theorem conversation_setBusFrequency (requested : UInt32) (events : List (Event Bus.interface))
    (outcome : Outcome Error Nat)
    (h : (c.setBusFrequency requested).Conversation events outcome) :
    (∃ cause level message, events = [logEvent level message] ∧ outcome = .error cause) ∨
    ∃ d cr level message, Divisors.Fits d ∧
      events = [readEvent 16 Offset.control cr, writeEvent 16 Offset.control (d.into cr),
        logEvent level message] ∧
      outcome = .ok (d.clock c.install.inputClock) := by
  cases hfound : Divisors.forFrequency c.install.inputClock requested with
  | error cause =>
      rw [setBusFrequency, hfound] at h
      rcases (Program.conversation_ask _ _ _ _).mp h with ⟨_, rest, rfl, hdone⟩
      rcases (Program.conversation_done _ _ _).mp hdone with ⟨rfl, rfl⟩
      exact Or.inl ⟨cause, _, _, rfl, rfl⟩
  | ok found =>
      rcases found with ⟨d, actual⟩
      have hfits := Divisors.forFrequency_fits _ _ d actual hfound
      have hclock := Divisors.forFrequency_clock _ _ d actual hfound
      rw [setBusFrequency, hfound] at h
      rcases (Program.conversation_ask _ _ _ _).mp h with ⟨cr, rest, rfl, hput⟩
      -- Neither divisor is refused, so no assertion fails.
      change ((Program.expect (Control.divA.put? d.a cr)).bind _).Conversation _ _ at hput
      rw [d.put?_divA cr hfits] at hput
      change ((Program.expect (Control.divB.put? d.b (Control.divA.put d.a cr))).bind
        _).Conversation _ _ at hput
      rw [d.put?_divB _ hfits] at hput
      rcases (Program.conversation_ask _ _ _ _).mp hput with ⟨_, rest, rfl, hsay⟩
      rcases (Program.conversation_ask _ _ _ _).mp hsay with ⟨_, rest, rfl, hdone⟩
      rcases (Program.conversation_done _ _ _).mp hdone with ⟨rfl, rfl⟩
      exact Or.inr ⟨d, cr, _, _, hfits, rfl, congrArg Outcome.ok hclock⟩

/-- How a call ends that tells the controller nothing about itself. -/
def told {α : Type} (tell : α → Reply) : Outcome Error α → Outcome Failure (Reply × Controller)
  | .ok a => .ok (tell a, c)
  | .error cause => .error ⟨cause, c⟩
  | .fault => .fault

theorem keeping_eq {α : Type} (tell : α → Reply) (p : Driver Error α) :
    c.keeping tell p = p.andThen fun ended => .done (c.told tell ended) := by
  induction p with
  | done ended => cases ended <;> rfl
  | ask operation next ih => exact congrArg (Program.ask operation) (funext ih)

theorem conversation_keeping {α : Type} (tell : α → Reply) (p : Driver Error α)
    (events : List (Event Bus.interface)) (outcome : Outcome Failure (Reply × Controller))
    (h : (c.keeping tell p).Conversation events outcome) :
    ∃ ended, p.Conversation events ended ∧ outcome = c.told tell ended := by
  rw [keeping_eq] at h
  rcases (Program.conversation_andThen_silent _ _ (fun ended => ⟨_, rfl⟩) _ _).mp h
    with ⟨ended, hp, hlast⟩
  exact ⟨ended, hp, ((Program.conversation_done _ _ _).mp hlast).2⟩

-- A call that looks at something other than the divisors.
theorem tunes_looked {machine : Machine Bus.interface σ} {Shows : σ → BitVec 16 → Prop}
    (hm : StoresControl machine Shows) {α : Type} (tell : α → Reply) (p : Driver Error α)
    (call : Call) (other : ∀ requested, call ≠ .setBusFrequency requested)
    (notDivisors : call ≠ .busDivisors)
    (hp : p.Keeps (fun events => ∀ e ∈ events, Looks e) (fun _ => True) (fun _ => True))
    (s u : σ) (cr : BitVec 16) (hs : Shows s cr) (events : List (Event Bus.interface))
    (outcome : Outcome Failure (Reply × Controller))
    (h : (c.keeping tell p).Conversation events outcome) (hr : machine.Replies s events u) :
    c.after outcome = c ∧ ∃ now, Tunes c cr ⟨call, events, outcome, c⟩ now ∧ Shows u now := by
  rcases conversation_keeping c tell p events outcome h with ⟨ended, hc, rfl⟩
  rcases hp events ended hc with ⟨hlooks, hends⟩
  have hu := shows_of_looks hm events hlooks s u cr hs hr
  cases ended with
  | ok a =>
      exact ⟨rfl, cr, .looked call events _ other notDivisors hlooks nofun, hu⟩
  | error cause =>
      exact ⟨rfl, cr, .looked call events _ other notDivisors hlooks nofun, hu⟩
  | fault => exact hends.elim

/-- On a machine whose control register stores, a tuning call leaves behind a
    known word and tells the controller nothing about itself. -/
theorem tunes_serve {machine : Machine Bus.interface σ} {Shows : σ → BitVec 16 → Prop}
    (hm : StoresControl machine Shows) (call : Call) (hcall : call.isTuning = true)
    (s u : σ) (cr : BitVec 16) (hs : Shows s cr) (hclear : Control.clrfifo.isSet cr = false)
    (events : List (Event Bus.interface)) (outcome : Outcome Failure (Reply × Controller))
    (h : (c.serve call).Conversation events outcome) (hr : machine.Replies s events u) :
    c.after outcome = c ∧ ∃ now, Tunes c cr ⟨call, events, outcome, c⟩ now ∧ Shows u now := by
  cases call with
  | reset => cases hcall
  | start => cases hcall
  | setBusFrequency requested =>
      rcases conversation_keeping c _ _ _ _ h with ⟨ended, hc, rfl⟩
      rcases conversation_setBusFrequency c requested events ended hc with
        ⟨cause, level, message, rfl, rfl⟩ | ⟨d, read, level, message, hfits, rfl, rfl⟩
      · rcases hr with ⟨_, rfl⟩
        exact ⟨rfl, cr, .refused requested cause level message, hm.log level message s cr hs⟩
      · -- The register answers with what it holds, takes the word, and is logged past.
        rcases hr with ⟨hread, -, -, rfl⟩
        obtain rfl : cr = read := (hm.control s cr hs).symm.trans hread
        have hkeep : Control.clrfifo.isSet (d.into cr) = false := by
          rw [clrfifo_eq_of_low _ cr (d.setWidth_into cr), hclear]
        have hwritten := hm.write _ _ cr (hm.read Offset.control s cr hs) hkeep
        exact ⟨rfl, d.into cr, .programmed requested d level message hfits,
          hm.log level message _ _ hwritten⟩
  | busDivisors =>
      rcases conversation_keeping c _ _ _ _ h with ⟨ended, hc, rfl⟩
      rcases (Program.conversation_ask _ _ _ _).mp hc with ⟨read, rest, rfl, hdone⟩
      rcases (Program.conversation_done _ _ _).mp hdone with ⟨rfl, rfl⟩
      rcases hr with ⟨hread, rfl⟩
      obtain rfl : cr = read := (hm.control s cr hs).symm.trans hread
      exact ⟨rfl, cr, .divisors, hm.read Offset.control s cr hs⟩
  | busActive =>
      exact tunes_looked c hm _ _ _ (fun _ => Call.noConfusion) Call.noConfusion
        (keeps_busActive observes_looks) s u cr hs events outcome h hr
  | waitBusInactive =>
      exact tunes_looked c hm _ _ _ (fun _ => Call.noConfusion) Call.noConfusion
        (keeps_waitBusInactive observes_looks c) s u cr hs events outcome h hr
  | pendingInterrupts =>
      exact tunes_looked c hm _ _ _ (fun _ => Call.noConfusion) Call.noConfusion
        (keeps_pendingInterrupts observes_looks c) s u cr hs events outcome h hr

end Controller

section Runs

variable {c : Controller} {cr now last : BitVec 16} {turn : Turn}

/-- A turn leaves the lower byte of the control register as it is. -/
theorem Tunes.low (h : Tunes c cr turn now) : now.setWidth 8 = cr.setWidth 8 := by
  cases h with
  | programmed requested d level message fits => exact d.setWidth_into cr
  | refused requested cause level message => rfl
  | divisors => rfl
  | looked call events outcome other notDivisors looks ends => rfl

theorem Tunes.spares (h : Tunes c cr turn now) :
    ∀ e ∈ turn.asked, Spares (cr.setWidth 8) e := by
  cases h with
  | programmed requested d level message fits =>
      intro e he
      rcases List.mem_cons.mp he with rfl | he
      · exact Or.inl (Or.inl ⟨_, _, rfl⟩)
      rcases List.mem_cons.mp he with rfl | he
      · exact Or.inr ⟨_, rfl, d.setWidth_into cr⟩
      · cases List.mem_singleton.mp he
        exact Or.inl (Or.inr ⟨_, _, rfl⟩)
  | refused requested cause level message =>
      intro e he
      cases List.mem_singleton.mp he
      exact Or.inl (Or.inr ⟨_, _, rfl⟩)
  | divisors =>
      intro e he
      cases List.mem_singleton.mp he
      exact Or.inl (Or.inl ⟨_, _, rfl⟩)
  | looked call events outcome other notDivisors looks ends =>
      exact fun e he => Or.inl (looks e he)

theorem Tunes.ends (h : Tunes c cr turn now) : turn.outcome ≠ .fault := by
  cases h with
  | programmed requested d level message fits => nofun
  | refused requested cause level message => nofun
  | divisors => nofun
  | looked call events outcome other notDivisors looks ends => exact ends

/-- A turn that reports a clock has put divisors into the register that give
    it. -/
theorem Tunes.programs (h : Tunes c cr turn now) (hertz : Nat) (hp : Programs turn hertz) :
    ∃ d : Divisors, d.Fits ∧ d.clock c.install.inputClock = hertz ∧ now = d.into cr := by
  rcases hp with ⟨requested, kept, hcall, houtcome⟩
  cases h with
  | programmed requested d level message fits =>
      cases houtcome
      exact ⟨d, fits, rfl, rfl⟩
  | refused requested cause level message => cases houtcome
  | divisors => cases houtcome
  | looked call events outcome other notDivisors looks ends => exact absurd hcall (other requested)

/-- A turn that sets no clock writes nothing. -/
theorem Tunes.quiet (h : Tunes c cr turn now) (hp : ∀ hertz, ¬ Programs turn hertz) :
    now = cr ∧ ∀ a ∈ accesses turn.asked, a.isWrite = false := by
  cases h with
  | programmed requested d level message fits => exact absurd ⟨requested, c, rfl, rfl⟩ (hp _)
  | refused requested cause level message =>
      exact ⟨rfl, fun a ha => absurd ha List.not_mem_nil⟩
  | divisors => exact ⟨rfl, Bus.forall_read rfl⟩
  | looked call events outcome other notDivisors looks ends =>
      exact ⟨rfl, isWrite_of_looks events looks⟩

/-- Some turns in a row hand on the word in between. -/
theorem tunesAll_append (xs ys : List Turn) (h : TunesAll c cr (xs ++ ys) last) :
    ∃ now, TunesAll c cr xs now ∧ TunesAll c now ys last := by
  induction xs generalizing cr with
  | nil => exact ⟨cr, .nil cr, h⟩
  | cons turn rest ih =>
      cases h with
      | cons first later =>
          rcases ih later with ⟨now, hrest, hys⟩
          exact ⟨now, .cons first hrest, hys⟩

theorem TunesAll.low {turns : List Turn} (h : TunesAll c cr turns last) :
    last.setWidth 8 = cr.setWidth 8 := by
  induction h with
  | nil cr => rfl
  | cons first later ih => exact ih.trans first.low

-- Each turn of a run starts from some word with the lower byte of the first.
theorem TunesAll.mem {turns : List Turn} (h : TunesAll c cr turns last) (t : Turn)
    (ht : t ∈ turns) :
    ∃ before after, Tunes c before t after ∧ before.setWidth 8 = cr.setWidth 8 := by
  rcases List.append_of_mem ht with ⟨xs, ys, rfl⟩
  rcases tunesAll_append xs _ h with ⟨before, hxs, hys⟩
  cases hys with
  | cons first later => exact ⟨before, _, first, hxs.low⟩

theorem TunesAll.quiet {turns : List Turn} (h : TunesAll c cr turns last)
    (hp : ∀ t ∈ turns, ∀ hertz, ¬ Programs t hertz) : last = cr := by
  induction h with
  | nil cr => rfl
  | cons first later ih =>
      rw [ih fun t ht => hp t (List.mem_cons_of_mem _ ht)]
      exact (first.quiet (hp _ List.mem_cons_self)).1

/-- The divisors asked for after a clock was set, and before another is, give
    the clock that was reported. -/
theorem TunesAll.reported (before between after : List Turn) (set look : Turn) (hertz : Nat)
    (h : TunesAll c cr (before ++ set :: (between ++ look :: after)) last)
    (hset : Programs set hertz) (hbetween : ∀ t ∈ between, ∀ other, ¬ Programs t other)
    (hlook : look.call = .busDivisors) :
    ∃ d, look.outcome = .ok (.divisors d, c) ∧ d.clock c.install.inputClock = hertz := by
  rcases tunesAll_append before _ h with ⟨_, -, h⟩
  cases h with
  | cons hturn h =>
      -- The word left by the turn that set the clock is the one that is looked at.
      rcases hturn.programs hertz hset with ⟨d, hfits, hclock, rfl⟩
      rcases tunesAll_append between _ h with ⟨now, hkeep, h⟩
      obtain rfl := hkeep.quiet hbetween
      cases h with
      | cons hturn h =>
          refine ⟨d, ?_, hclock⟩
          cases hturn with
          | programmed requested d level message fits => cases hlook
          | refused requested cause level message => cases hlook
          | divisors => rw [Divisors.ofControl_into d _ hfits]
          | looked call events outcome other notDivisors looks ends =>
              exact absurd hlook notDivisors

end Runs

/-- Calls in a row leave a known word behind after each of them. -/
theorem tunesAll_turns {machine : Machine Bus.interface σ} {Shows : σ → BitVec 16 → Prop}
    (hm : StoresControl machine Shows) (c : Controller) (calls : List Call)
    (hcalls : ∀ call ∈ calls, call.isTuning = true) (s : σ) (cr : BitVec 16) (hs : Shows s cr)
    (hclear : Control.clrfifo.isSet cr = false) :
    ∃ last, TunesAll c cr (service.turns machine c s calls) last := by
  induction calls generalizing s cr with
  | nil => exact ⟨cr, .nil cr⟩
  | cons call rest ih =>
      have hrun := machine.conversation_recorded (service.program c call) s
      rcases c.tunes_serve hm call (hcalls call List.mem_cons_self) s _ cr hs hclear _ _ hrun.1
        hrun.2 with ⟨hafter, now, hturn, hnow⟩
      have hkeep : Control.clrfifo.isSet now = false := by
        rw [clrfifo_eq_of_low now cr hturn.low, hclear]
      rcases ih (fun call' h => hcalls call' (List.mem_cons_of_mem call h)) _ now hnow hkeep
        with ⟨last, hrest⟩
      refine ⟨last, ?_⟩
      rw [Service.turns_cons, show service.after c _ = c from hafter]
      exact .cons hturn hrest

/-- A run in which a client tunes a controller with this input clock, from a
    state in which the control register holds a word. -/
structure Tuned (machine : Machine Bus.interface σ) (Shows : σ → BitVec 16 → Prop)
    (input : UInt32) (s : σ) (cr : BitVec 16) (turns : List Turn) : Prop where
  /-- No assertion fails. -/
  ends : ∀ t ∈ turns, t.outcome ≠ .fault
  /-- Who is granted a clock is told which. A single word is written, to the
      control register, and the lower byte of it is the one from the start. -/
  granted : ∀ t ∈ turns, ∀ requested reply, t.call = .setBusFrequency requested →
    t.outcome = .ok reply →
      (∃ hertz, Programs t hertz) ∧
        ∃ value, value.setWidth 8 = cr.setWidth 8 ∧
          (accesses t.asked).filter Bus.Access.isWrite = [.ofWrite 16 Offset.control value]
  /-- Nothing is written in any other turn. -/
  otherwise : ∀ t ∈ turns, (∀ hertz, ¬ Programs t hertz) →
    ∀ a ∈ accesses t.asked, a.isWrite = false
  /-- Until the next clock is set, the divisors asked for give the clock that
      was reported. -/
  reported : ∀ before set between look after hertz,
    turns = before ++ set :: (between ++ look :: after) → Programs set hertz →
      (∀ t ∈ between, ∀ other, ¬ Programs t other) → look.call = .busDivisors →
        ∃ d kept, look.outcome = .ok (.divisors d, kept) ∧ d.clock input = hertz
  /-- At every point of the run the control register holds the lower byte from
      the start. -/
  low : ∀ past future, Service.events turns = past ++ future →
    ∃ u now, machine.Replies s past u ∧ Shows u now ∧ now.setWidth 8 = cr.setWidth 8

/-- Whatever a client asks for while it tunes, the bus clock that is reported is
    the one that is programmed, and nothing but the divisors is changed. -/
theorem service_tuned {machine : Machine Bus.interface σ} {Shows : σ → BitVec 16 → Prop}
    (hm : StoresControl machine Shows) (c : Controller) (calls : List Call)
    (hcalls : ∀ call ∈ calls, call.isTuning = true) (s : σ) (cr : BitVec 16) (hs : Shows s cr)
    (hclear : Control.clrfifo.isSet cr = false) :
    Tuned machine Shows c.install.inputClock s cr (service.turns machine c s calls) := by
  rcases tunesAll_turns hm c calls hcalls s cr hs hclear with ⟨last, h⟩
  refine ⟨?_, ?_, ?_, ?_, ?_⟩
  · intro t ht
    rcases h.mem t ht with ⟨_, _, hturn, -⟩
    exact hturn.ends
  · intro t ht requested reply hcall houtcome
    rcases h.mem t ht with ⟨before, _, hturn, hlow⟩
    cases hturn with
    | programmed requested d level message fits =>
        exact ⟨⟨_, requested, c, rfl, rfl⟩, d.into before, (d.setWidth_into before).trans hlow,
          rfl⟩
    | refused requested cause level message => cases houtcome
    | divisors => cases hcall
    | looked call events outcome other notDivisors looks ends =>
        exact absurd hcall (other requested)
  · intro t ht hp
    rcases h.mem t ht with ⟨_, _, hturn, -⟩
    exact (hturn.quiet hp).2
  · intro before set between look after hertz heq hset hbetween hlook
    rw [heq] at h
    rcases h.reported before between after set look hertz hset hbetween hlook with ⟨d, hd, hclock⟩
    exact ⟨d, c, hd, hclock⟩
  · -- Every event spares the lower byte, in particular those up to this point.
    intro past future heq
    rcases service.replies_turns machine c s calls with ⟨v, hr⟩
    rw [heq] at hr
    rcases (machine.replies_append past future s v).mp hr with ⟨u, hpast, -⟩
    have hspares : ∀ e ∈ past, Spares (cr.setWidth 8) e := by
      intro e he
      have hin : e ∈ Service.events (service.turns machine c s calls) := by
        rw [heq]
        exact List.mem_append_left future he
      rcases List.mem_flatMap.mp hin with ⟨t, ht, het⟩
      rcases h.mem t ht with ⟨before, _, hturn, hlow⟩
      rw [← hlow]
      exact hturn.spares e het
    rcases shows_of_spares hm past _ hspares s u cr hs rfl hclear hpast with ⟨now, hnow, hlow⟩
    exact ⟨u, now, hpast, hnow, hlow⟩

/-- A simulated device that is no flash controller, and for whose control
    register no answers are laid out, shows the word that is stored there. -/
structure ShowsControl (d : Device.Simulated) (cr : BitVec 16) : Prop where
  reaction : ∀ model, d.reaction ≠ .flash model
  unscripted : d.scripts.getD Offset.control [] = []
  held : I2cModel.held d.registers Offset.control = cr

-- Such a device answers what is stored in the register.
theorem answer_control (d : Device.Simulated) (cr : BitVec 16) (hs : ShowsControl d cr) :
    d.answer Offset.control = (d.registers.peek Offset.control, d) :=
  d.answer_stored Offset.control hs.unscripted fun model hr => absurd hr (hs.reaction model)

-- A read of any register leaves it as it is.
theorem showsControl_answer (d : Device.Simulated) (cr : BitVec 16) (offset : Nat)
    (hs : ShowsControl d cr) : ShowsControl (d.answer offset).2 cr := by
  refine ⟨?_, d.scripts_answer offset _ hs.unscripted, ?_⟩
  · rcases d.reaction_answer offset with hsame | ⟨model, -, hflash, -⟩
    · rw [hsame]
      exact hs.reaction
    · exact absurd hflash (hs.reaction model)
  · rw [d.registers_answer]
    exact hs.held

-- A word that does not ask for the FIFO to be cleared is stored without a
-- reaction.
theorem showsControl_accept (d : Device.Simulated) (cr value : BitVec 16)
    (hs : ShowsControl d cr) (hclear : Control.clrfifo.isSet value = false) :
    ShowsControl (d.accept Offset.control (value.setWidth 64)) value := by
  have hword : (value.setWidth 64).setWidth 16 = value :=
    BitVec.setWidth_setWidth_of_le value (by decide)
  have hheld : I2cModel.held (d.registers.poke Offset.control (value.setWidth 64))
      Offset.control = value := by
    have hchange := I2cModel.held_change d.registers Offset.control Offset.control value
    rw [if_pos rfl] at hchange
    exact hchange
  cases hr : d.reaction with
  | none =>
      unfold Device.Simulated.accept
      rw [hr]
      exact ⟨nofun, hs.unscripted, hheld⟩
  | i2c model =>
      have hafter : model.afterWrite (d.registers.poke Offset.control (value.setWidth 64))
          Offset.control value = (model, d.registers.poke Offset.control (value.setWidth 64)) := by
        rw [I2cModel.afterWrite, if_pos rfl, hclear, Bool.false_and,
          if_neg Bool.false_ne_true]
      unfold Device.Simulated.accept
      rw [hr]
      simp only [hword, hafter]
      exact ⟨nofun, hs.unscripted, hheld⟩
  | flash model => exact absurd hr (hs.reaction model)

/-- The control register of a simulated device stores. -/
theorem storesControl_simulated : StoresControl Device.simulated.machine ShowsControl where
  control d cr hs := by
    change (d.answer Offset.control).1.setWidth 16 = cr
    rw [answer_control d cr hs]
    exact hs.held
  read offset d cr hs := showsControl_answer d cr offset hs
  write value d cr hs hclear := showsControl_accept d cr value hs hclear
  log _ _ _ _ hs := hs

/-- A controller with a byte in its FIFO and the slowest clock programmed. -/
def slowed : Device.Simulated :=
  ⟨I2cModel.change .empty Offset.control 0xFF3A, ∅, .i2c ⟨16, 255, false, false, 0, 1⟩⟩

theorem service_tuned_slowed :
    ShowsControl slowed 0xFF3A ∧ Control.clrfifo.isSet (0xFF3A : BitVec 16) = false ∧
      Tuned Device.simulated.machine ShowsControl 100000000 slowed 0xFF3A
        (service.turns Device.simulated.machine (.new ⟨⟨0x1C0F0000⟩, 100000000⟩ 2) slowed
          [.busDivisors, .setBusFrequency 400000, .waitBusInactive, .busDivisors,
            .setBusFrequency 0, .setBusFrequency 1, .busDivisors, .pendingInterrupts,
            .setBusFrequency 100000, .busActive, .busDivisors]) := by
  have hshows : ShowsControl slowed 0xFF3A :=
    ⟨nofun, rfl, by rw [slowed, I2cModel.held_change, if_pos rfl]⟩
  have hclear : Control.clrfifo.isSet (0xFF3A : BitVec 16) = false := by decide
  exact ⟨hshows, hclear, service_tuned storesControl_simulated
    (.new ⟨⟨0x1C0F0000⟩, 100000000⟩ 2) _ (by decide) slowed 0xFF3A hshows hclear⟩

end I2c

end BoardSupport
