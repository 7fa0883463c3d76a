import BoardSupport.Boot.Application
import BoardSupport.Proofs.Config.Provided
import BoardSupport.Proofs.Serial.Sending

/-!
# Starting the Application

The status of the configuration application can be trusted.

The application asks the firmware for the variable, and it talks: to the
console, and to the serial line if it is built with one. Talking has no part in
what comes of a run, except that a serial line that never has room keeps the
application from returning. So a run is looked at from two sides.
`serviceEvents` are the calls made on the firmware, and they are those of
loading the configuration; `lineEvents` are what the serial line was asked, and
they decide whether the application returns.

A run that does not return has made the calls of the beginning of a run that
does.

## Main definitions

* `Boot.serviceEvents`, `Boot.lineEvents`: The two sides of a run.
* `Boot.Returns`: Nothing keeps the application from returning.
* `Boot.Speaks`: A run of something that only talks.
* `Boot.Ensures`: What a run of the application promises.

## Theorems

* `Boot.conversation_serial`: A driver of the serial line, on this board.
* `Boot.conversation_log`: Logging only talks.
* `Boot.conversation_loadConfig`: Loading makes the calls it should.
* `Boot.conversation_ensureConfig`: So does the application, and its status is
  theirs.
* `Boot.application_ensures`: What it promises, however it is built and on every
  board.
-/

namespace BoardSupport

namespace Boot

open Bus (accesses)
open Config (Ensuring EndsWith getEvent setEvent verdict)
open Serial (WaitsEnd waitsEnd_left waitsEnd_right)
open Services (Honest isCall isSet)

/-- What an event asks of the firmware, if anything. -/
def serviceEvent? : Event interface → Option (Event Services.interface)
  | ⟨.firmware operation, answer⟩ => some ⟨operation, answer⟩
  | _ => none

/-- What an event asks of the serial line, if anything. -/
def lineEvent? : Event interface → Option (Event Bus.interface)
  | ⟨.serial operation, answer⟩ => some ⟨operation, answer⟩
  | _ => none

/-- What is asked of the firmware among some events, in order. -/
def serviceEvents (events : List (Event interface)) : List (Event Services.interface) :=
  events.filterMap serviceEvent?

/-- What is asked of the serial line among some events, in order. -/
def lineEvents (events : List (Event interface)) : List (Event Bus.interface) :=
  events.filterMap lineEvent?

@[simp] theorem serviceEvents_append (first rest : List (Event interface)) :
    serviceEvents (first ++ rest) = serviceEvents first ++ serviceEvents rest :=
  List.filterMap_append

@[simp] theorem lineEvents_append (first rest : List (Event interface)) :
    lineEvents (first ++ rest) = lineEvents first ++ lineEvents rest :=
  List.filterMap_append

section Build

variable {L : Type} [Sinks L] (l : L)

/-- All waits for the serial line end, if there is one. -/
def Returns (events : List (Event interface)) : Prop :=
  ∀ line ∈ Sinks.line l, WaitsEnd line.patience (accesses (lineEvents events))

instance (events : List (Event interface)) : Decidable (Returns l events) :=
  inferInstanceAs (Decidable (∀ line ∈ Sinks.line l, WaitsEnd line.patience _))

theorem returns_left (first rest : List (Event interface)) (h : Returns l (first ++ rest)) :
    Returns l first := by
  intro line hline
  have hwaits := h line hline
  rw [lineEvents_append, Bus.accesses_append] at hwaits
  exact waitsEnd_left line.patience _ _ hwaits

theorem returns_right (first rest : List (Event interface)) (h : Returns l (first ++ rest)) :
    Returns l rest := by
  intro line hline
  have hwaits := h line hline
  rw [lineEvents_append, Bus.accesses_append] at hwaits
  exact waitsEnd_right line.patience _ _ hwaits

/-- Nothing is asked of the firmware, and if all waits end this is carried
    out. -/
structure Speaks (events : List (Event interface))
    (outcome : Outcome Serial.Stalled Unit) : Prop where
  silent : serviceEvents events = []
  ends : outcome ≠ .fault
  returns : Returns l events → outcome = .ok ()

/-- A driver of the serial line goes through its own conversation. -/
theorem conversation_serial {α : Type} (p : Driver Serial.Stalled α)
    (events : List (Event interface)) (outcome : Outcome Serial.Stalled α)
    (h : (serial p).Conversation events outcome) :
    serviceEvents events = [] ∧ p.Conversation (lineEvents events) outcome := by
  induction p generalizing events with
  | done ended =>
      rcases (Program.conversation_done _ _ _).mp h with ⟨rfl, rfl⟩
      exact ⟨rfl, .done outcome⟩
  | ask operation next ih =>
      rcases (Program.conversation_ask _ _ _ _).mp h with ⟨answer, rest, rfl, hrest⟩
      rcases ih answer rest hrest with ⟨hsilent, hp⟩
      exact ⟨hsilent, .ask _ _ _ _ _ hp⟩

/-- Without a serial line its drivers do nothing, and with one they go through
    their own conversations. -/
theorem conversation_onLine (p : Serial.Logger → Driver Serial.Stalled Unit)
    (events : List (Event interface)) (outcome : Outcome Serial.Stalled Unit)
    (h : (onLine l p).Conversation events outcome) :
    serviceEvents events = [] ∧ (outcome = .ok () ∨
      ∃ line ∈ Sinks.line l, (p line).Conversation (lineEvents events) outcome) := by
  unfold onLine at h
  cases hline : Sinks.line l with
  | none =>
      rw [hline] at h
      rcases (Program.conversation_done _ _ _).mp h with ⟨rfl, rfl⟩
      exact ⟨rfl, Or.inl rfl⟩
  | some line =>
      rw [hline] at h
      rcases conversation_serial (p line) events outcome h with ⟨hsilent, hp⟩
      exact ⟨hsilent, Or.inr ⟨line, rfl, hp⟩⟩

-- A record sent over the serial line may have to wait for room.
theorem conversation_emit (r : Log.Record) (events : List (Event interface))
    (outcome : Outcome Serial.Stalled Unit)
    (h : (onLine l fun line => line.emit r).Conversation events outcome) :
    Speaks l events outcome := by
  rcases conversation_onLine l _ events outcome h with ⟨hsilent, rfl | ⟨line, hline, hemit⟩⟩
  · exact ⟨hsilent, nofun, fun _ => rfl⟩
  · refine ⟨hsilent, ?_, fun hreturns => ?_⟩
    · rintro rfl
      exact Serial.writeBytes_ne_fault line.patience _ _ _ hemit rfl
    · exact (Serial.conversation_writeBytes line.patience _ _ _ hemit (hreturns line hline)).1

/-- Logging only talks. -/
theorem conversation_log (r : Log.Record) (events : List (Event interface))
    (outcome : Outcome Serial.Stalled Unit) (h : (log l r).Conversation events outcome) :
    Speaks l events outcome := by
  unfold log at h
  by_cases hlevel : (Sinks.filter l).admits r.level = true
  · rw [if_pos hlevel] at h
    rcases (Program.conversation_bind _ _ _ _).mp h with ⟨line, rest, ended, rfl, hline, hrest⟩
    have hspeaks := conversation_emit l r line ended hline
    cases ended with
    | ok _ =>
        rcases (Program.conversation_ask _ _ _ _).mp hrest with ⟨_, rest, rfl, hdone⟩
        rcases (Program.conversation_done _ _ _).mp hdone with ⟨rfl, rfl⟩
        refine ⟨?_, nofun, fun _ => rfl⟩
        rw [serviceEvents_append, hspeaks.silent]
        rfl
    | error cause =>
        rcases (Program.conversation_done _ _ _).mp hrest with ⟨rfl, rfl⟩
        rw [List.append_nil]
        exact hspeaks
    | fault => exact absurd rfl hspeaks.ends
  · rw [if_neg hlevel] at h
    rcases (Program.conversation_done _ _ _).mp h with ⟨rfl, rfl⟩
    exact ⟨rfl, nofun, fun _ => rfl⟩

-- Carrying out an operation asks the firmware for it if it is a call, and only
-- a wait that does not end keeps it from being carried out.
theorem conversation_carryOut (operation : Services.Operation) (part : List (Event interface))
    (outcome : Outcome Serial.Stalled operation.Answer)
    (h : (carryOut l operation).Conversation part outcome) :
    (∃ answer, outcome = .ok answer ∧
      serviceEvents part = [(⟨operation, answer⟩ : Event Services.interface)].filter isCall) ∨
    (∃ cause, outcome = .error cause) ∧ serviceEvents part = [] ∧ ¬ Returns l part := by
  cases operation with
  | getVariable id capacity =>
      rcases (Program.conversation_ask _ _ _ _).mp h with ⟨answer, _, rfl, hdone⟩
      rcases (Program.conversation_done _ _ _).mp hdone with ⟨rfl, rfl⟩
      exact Or.inl ⟨answer, rfl, rfl⟩
  | setVariable id attributes data =>
      rcases (Program.conversation_ask _ _ _ _).mp h with ⟨answer, _, rfl, hdone⟩
      rcases (Program.conversation_done _ _ _).mp hdone with ⟨rfl, rfl⟩
      exact Or.inl ⟨answer, rfl, rfl⟩
  | log level message =>
      have hspeaks := conversation_log l _ part outcome h
      cases outcome with
      | ok answer => exact Or.inl ⟨answer, rfl, hspeaks.silent⟩
      | error cause =>
          refine Or.inr ⟨⟨cause, rfl⟩, hspeaks.silent, fun hreturns => ?_⟩
          cases hspeaks.returns hreturns
      | fault => exact absurd rfl hspeaks.ends

/-- Some answers to what is asked of the firmware, none of which breaks its
    contract. -/
def unanswered : (operation : Services.Operation) → operation.Answer
  | .getVariable _ capacity => ⟨Status.notFound, 0, Vector.replicate capacity 0⟩
  | .setVariable _ _ _ => Status.success
  | .log _ _ => ()

theorem honest_unanswered (e : Event Services.interface) (h : e.answer = unanswered e.operation) :
    Honest e := by
  rcases e with ⟨operation, answer⟩
  cases operation with
  | getVariable id capacity =>
      intro hsuccess
      rw [show answer = _ from h] at hsuccess
      cases hsuccess
  | setVariable id attributes data => trivial
  | log level message => trivial

-- What the firmware is asked for operations carried out one after another.
theorem serviceEvents_carriesOut (asked : List (Event Services.interface))
    (events : List (Event interface))
    (h : Program.CarriesOut (I := Services.interface) (carryOut l) asked events) :
    serviceEvents events = asked.filter isCall := by
  have hview := Program.view_carriesOut (carryOut l) serviceEvents rfl serviceEvents_append
    (fun e => [e].filter isCall) (fun e part he => ?_) asked events h
  · rw [hview, ← List.filter_flatMap, List.flatMap_singleton']
  · rcases conversation_carryOut l e.operation part _ he with
      ⟨answer, hanswer, hpart⟩ | ⟨⟨cause, hcause⟩, -, -⟩
    · cases hanswer
      exact hpart
    · cases hcause

-- What is no call breaks no contract.
theorem honest_of_calls (asked : List (Event Services.interface))
    (h : ∀ e ∈ asked.filter isCall, Honest e) : ∀ e ∈ asked, Honest e := by
  intro e he
  cases hcall : isCall e with
  | true => exact h e (List.mem_filter.mpr ⟨he, hcall⟩)
  | false =>
      rcases e with ⟨operation, answer⟩
      cases operation with
      | getVariable id capacity => cases hcall
      | setVariable id attributes data => cases hcall
      | log level message => trivial

/-- Loading makes the calls it should and delivers a result with their status,
    or it waits for the serial line amid them. -/
theorem conversation_loadConfig (events : List (Event interface))
    (outcome : Outcome Serial.Stalled (Except Config.Error Config.CpuSet))
    (hhonest : ∀ e ∈ serviceEvents events, Honest e)
    (h : (loadConfig l).Conversation events outcome) :
    ∃ calls status, Ensuring calls status ∧
      ((serviceEvents events = calls ∧
          ∃ result, outcome = .ok result ∧ EndsWith status (.ofExcept result)) ∨
        (serviceEvents events <+: calls ∧ (∃ cause, outcome = .error cause) ∧
          ¬ Returns l events)) := by
  cases Program.conversation_interpret _ unanswered _ events outcome h with
  | ended asked _ _ own carried =>
      have hcalls := serviceEvents_carriesOut l asked events carried
      rcases (Program.conversation_attempt _ _ _).mp own with ⟨ended, hload, hlast⟩
      rw [hcalls] at hhonest
      rcases Config.conversation_load_provided asked ended (honest_of_calls asked hhonest) hload
        with ⟨status, hensuring, hends⟩
      refine ⟨_, status, hensuring, Or.inl ⟨hcalls, ?_⟩⟩
      cases ended with
      | ok config =>
          exact ⟨.ok config, ((Program.conversation_done _ _ _).mp hlast).2, hends⟩
      | error cause =>
          exact ⟨.error cause, ((Program.conversation_done _ _ _).mp hlast).2, hends⟩
      | fault => exact hends.elim
  | stopped asked remaining ended _ done part operation failed own answered carried failing stops =>
      have hcalls := serviceEvents_carriesOut l asked done carried
      rcases conversation_carryOut l operation part failed failing with
        ⟨answer, rfl, -⟩ | ⟨⟨cause, rfl⟩, hsilent, hwaits⟩
      · cases stops
      cases stops
      rw [serviceEvents_append, hsilent, List.append_nil, hcalls] at hhonest ⊢
      -- Had the line had room, the rest would have been carried out as well.
      rcases (Program.conversation_attempt _ _ _).mp own with ⟨ended, hload, -⟩
      have hall : ∀ e ∈ asked ++ remaining, Honest e := by
        intro e he
        rcases List.mem_append.mp he with he | he
        · exact honest_of_calls asked hhonest e he
        · exact honest_unanswered e (answered e he)
      rcases Config.conversation_load_provided _ ended hall hload with ⟨status, hensuring, -⟩
      refine ⟨_, status, hensuring, Or.inr ⟨?_, ⟨cause, rfl⟩, ?_⟩⟩
      · rw [List.filter_append]
        exact List.prefix_append _ _
      · exact fun hreturns => hwaits (returns_right l done part hreturns)

-- The last thing the application does: it logs what came of it.
theorem conversation_report (r : Log.Record) (status : Status) (system : Log.System L)
    (events : List (Event interface)) (outcome : Outcome Serial.Stalled (Status × Log.System L))
    (h : ((log l r).bind fun _ =>
      (.done (.ok (status, system)) : Task (Status × Log.System L))).Conversation events outcome) :
    serviceEvents events = [] ∧
      (outcome = .ok (status, system) ∨
        (∃ cause, outcome = .error cause) ∧ ¬ Returns l events) := by
  rcases (Program.conversation_bind _ _ _ _).mp h with ⟨said, rest, ended, rfl, hsaid, hrest⟩
  have hspeaks := conversation_log l r said ended hsaid
  cases ended with
  | ok _ =>
      rcases (Program.conversation_done _ _ _).mp hrest with ⟨rfl, rfl⟩
      rw [List.append_nil]
      exact ⟨hspeaks.silent, Or.inl rfl⟩
  | error cause =>
      rcases (Program.conversation_done _ _ _).mp hrest with ⟨rfl, rfl⟩
      rw [List.append_nil]
      refine ⟨hspeaks.silent, Or.inr ⟨⟨cause, rfl⟩, fun hreturns => ?_⟩⟩
      cases hspeaks.returns hreturns
  | fault => exact absurd rfl hspeaks.ends

-- Where no logger is installed, one can be.
theorem conversation_installLogger (events : List (Event interface))
    (outcome : Outcome Serial.Stalled (Except Log.InstallError (Log.System L)))
    (h : (installLogger l .empty).Conversation events outcome) :
    serviceEvents events = [] ∧ outcome = .ok (.ok ⟨some l, Sinks.filter l⟩) := by
  rcases (Program.conversation_bind _ _ _ _).mp h with ⟨first, rest, ended, rfl, hinit, hrest⟩
  rcases conversation_onLine l _ first ended hinit with ⟨hsilent, hset⟩
  -- The divisor is left alone, and the other three registers take what is written.
  have hended : ended = .ok () := by
    rcases hset with hnone | ⟨_, -, hline⟩
    · exact hnone
    · rcases (Program.conversation_ask _ _ _ _).mp hline with ⟨_, _, -, hline⟩
      rcases (Program.conversation_ask _ _ _ _).mp hline with ⟨_, _, -, hline⟩
      rcases (Program.conversation_ask _ _ _ _).mp hline with ⟨_, _, -, hdone⟩
      exact ((Program.conversation_done _ _ _).mp hdone).2
  subst hended
  rcases (Program.conversation_done _ _ _).mp hrest with ⟨rfl, rfl⟩
  rw [List.append_nil]
  exact ⟨hsilent, rfl⟩

/-- The application makes the calls it should, and if it returns then with their
    status. -/
theorem conversation_ensureConfig (events : List (Event interface))
    (outcome : Outcome Serial.Stalled (Status × Log.System L))
    (hhonest : ∀ e ∈ serviceEvents events, Honest e)
    (h : (ensureConfig l .empty).Conversation events outcome) :
    ∃ calls status, Ensuring calls status ∧
      ((serviceEvents events = calls ∧ ∃ system, outcome = .ok (status, system)) ∨
        (serviceEvents events <+: calls ∧ (∃ cause, outcome = .error cause) ∧
          ¬ Returns l events)) := by
  rcases (Program.conversation_bind _ _ _ _).mp h with ⟨first, rest, installed, rfl, hfirst, hrest⟩
  rcases conversation_installLogger l first installed hfirst with ⟨hsilent, rfl⟩
  change ((loadConfig l).bind _).Conversation rest outcome at hrest
  rcases (Program.conversation_bind _ _ _ _).mp hrest with ⟨loaded, said, ended, rfl, hload, hsaid⟩
  rw [serviceEvents_append, serviceEvents_append, hsilent, List.nil_append] at hhonest ⊢
  rcases conversation_loadConfig l loaded ended
    (fun e he => hhonest e (List.mem_append_left _ he)) hload with
    ⟨calls, status, hensuring, ⟨hcalls, result, rfl, hends⟩ | ⟨hbegun, ⟨cause, rfl⟩, hwaits⟩⟩
  · -- The status is the one that loading ended with. What is left is to report it.
    have hreport : serviceEvents said = [] ∧
        (outcome = .ok (status, ⟨some l, Sinks.filter l⟩) ∨
          (∃ cause, outcome = .error cause) ∧ ¬ Returns l said) := by
      cases result with
      | ok config =>
          obtain rfl : status = Status.success := hends
          exact conversation_report l _ _ _ said outcome hsaid
      | error cause =>
          obtain rfl : status = cause.status := hends
          exact conversation_report l _ _ _ said outcome hsaid
    rcases hreport with ⟨hsaid, hend⟩
    rw [hsaid, List.append_nil]
    rcases hend with hok | ⟨herror, hwaits⟩
    · exact ⟨calls, status, hensuring, Or.inl ⟨hcalls, _, hok⟩⟩
    · refine ⟨calls, status, hensuring, Or.inr ⟨hcalls ▸ List.prefix_rfl, herror, ?_⟩⟩
      exact fun hreturns => hwaits
        (returns_right l loaded said (returns_right l first _ hreturns))
  · rcases (Program.conversation_done _ _ _).mp hsaid with ⟨rfl, rfl⟩
    refine ⟨calls, status, hensuring, Or.inr ⟨?_, ⟨cause, rfl⟩, fun hreturns => hwaits ?_⟩⟩
    · exact (List.append_nil _).symm ▸ hbegun
    · exact returns_left l loaded [] (returns_right l first _ hreturns)

/-- What a run of the application promises. -/
structure Ensures (events : List (Event interface))
    (outcome : Outcome Serial.Stalled (Status × Log.System L)) : Prop where
  /-- The variable is written at most once. -/
  once : (serviceEvents events).countP isSet ≤ 1
  /-- It is written only after a first read that did not succeed, and only with
      every CPU enabled. -/
  reluctant : ∀ before e after, serviceEvents events = before ++ e :: after → isSet e = true →
    (∃ status, e = setEvent status) ∧
      ∃ reply, before = [getEvent reply] ∧ reply.status ≠ Status.success
  /-- No assertion fails. -/
  ends : outcome ≠ .fault
  /-- Unless it waits for a serial line forever, it returns a status. -/
  returns : Returns l events → ∃ status system, outcome = .ok (status, system)
  /-- Success is returned exactly if the last call was a read that delivered an
      image. -/
  verified : ∀ status system, outcome = .ok (status, system) →
    (status = Status.success ↔ ∃ reply, (serviceEvents events).getLast? = some (getEvent reply) ∧
      reply.status = Status.success ∧ Config.IsImage ⟨reply.size, reply.buffer⟩)
  /-- Otherwise what is returned is the status of the write or of the read after
      it, whichever failed, or contents that are no image are reported. -/
  reported : ∀ status system, outcome = .ok (status, system) → status ≠ Status.success →
    (serviceEvents events).getLast? = some (setEvent status) ∨
      (∃ first again,
        serviceEvents events = [getEvent first, setEvent Status.success, getEvent again] ∧
          again.status ≠ Status.success ∧ status = again.status) ∨
      status = Status.invalidParameter ∧
        ∃ reply, (serviceEvents events).getLast? = some (getEvent reply) ∧
          reply.status = Status.success ∧ ¬ Config.IsImage ⟨reply.size, reply.buffer⟩

/-- Whatever the firmware answers without breaking its contract, the variable
    is written only to create it, and success is returned only for a variable
    that was read and holds an image. -/
theorem application_ensures {σ : Type} (machine : Machine interface σ) (s : σ)
    (hhonest : ∀ e ∈ serviceEvents
      ((ensureConfig l .empty).run machine.recorded (.start s)).2.events, Honest e) :
    Ensures l ((ensureConfig l .empty).run machine.recorded (.start s)).2.events
      ((ensureConfig l .empty).run machine.recorded (.start s)).1 := by
  have hrun := (machine.conversation_recorded (ensureConfig l .empty) s).1
  rcases conversation_ensureConfig l _ _ hhonest hrun with ⟨calls, status, h, hend⟩
  have hbegun : serviceEvents
      ((ensureConfig l .empty).run machine.recorded (.start s)).2.events <+: calls := by
    rcases hend with ⟨hcalls, -⟩ | ⟨hbegun, -⟩
    · exact hcalls ▸ List.prefix_rfl
    · exact hbegun
  refine ⟨hbegun.sublist.countP_le.trans h.once, ?_, ?_, ?_, ?_, ?_⟩
  · intro before e after heq he
    rcases hbegun with ⟨more, hmore⟩
    rw [heq, List.append_assoc] at hmore
    exact h.reluctant before (after ++ more) e hmore.symm he
  · rcases hend with ⟨-, system, hok⟩ | ⟨-, ⟨cause, herror⟩, -⟩
    · rw [hok]
      nofun
    · rw [herror]
      nofun
  · intro hreturns
    rcases hend with ⟨-, system, hok⟩ | ⟨-, -, hwaits⟩
    · exact ⟨status, system, hok⟩
    · exact absurd hreturns hwaits
  · intro status' system' hok'
    rcases hend with ⟨hcalls, system, hok⟩ | ⟨-, ⟨cause, herror⟩, -⟩
    · cases hok.symm.trans hok'
      rw [hcalls]
      exact h.success_iff
    · cases herror.symm.trans hok'
  · intro status' system' hok'
    rcases hend with ⟨hcalls, system, hok⟩ | ⟨-, ⟨cause, herror⟩, -⟩
    · cases hok.symm.trans hok'
      rw [hcalls]
      exact h.failure
    · cases herror.symm.trans hok'

end Build

/-- A board whose variable cannot be read at first, and whose firmware stores
    something else than it is given. -/
def untrustworthy : Board :=
  ⟨⟨[], [.fail (Status.ofError 7) none], [.replace [1, 1, 0, 2, 1, 1, 1, 1]]⟩, Memory.zeroed, ""⟩

theorem application_ensures_untrustworthy :
    let run := (application 1 .empty).run board.recorded (.start untrustworthy)
    let quietRun := (quietApplication .empty).run board.recorded (.start untrustworthy)
    ((∀ e ∈ serviceEvents run.2.events, Honest e) ∧ Returns (logger 1) run.2.events ∧
      Ensures (logger 1) run.2.events run.1) ∧
    (∀ e ∈ serviceEvents quietRun.2.events, Honest e) ∧ Returns verbosity quietRun.2.events ∧
      Ensures verbosity quietRun.2.events quietRun.1 := by
  have hhonest : ∀ e ∈ serviceEvents
      ((application 1 .empty).run board.recorded (.start untrustworthy)).2.events, Honest e := by
    decide +kernel
  have hreturns : Returns (logger 1)
      ((application 1 .empty).run board.recorded (.start untrustworthy)).2.events := by
    decide +kernel
  have hquiet : ∀ e ∈ serviceEvents
      ((quietApplication .empty).run board.recorded (.start untrustworthy)).2.events,
      Honest e := by
    decide +kernel
  exact ⟨⟨hhonest, hreturns, application_ensures (logger 1) board untrustworthy hhonest⟩, hquiet,
    nofun, application_ensures verbosity board untrustworthy hquiet⟩

end Boot

end BoardSupport
