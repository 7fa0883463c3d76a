import BoardSupport.Firmware.Trace
import BoardSupport.Proofs.Config.Atomicity
import BoardSupport.Proofs.Program.Interpret

/-!
# Loading by the Firmware's Services

What loading the configuration asks of the firmware, and what comes of it.

The firmware answers with a status. It is turned into an answer about a
variable, the answer into a configuration or a failure, and the failure into a
status again. `verdict` says what a reply amounts to in the end without any of
that, and `Ensuring` which calls are made: the variable is read, and if that
did not succeed it is written with every CPU enabled and read back. The status
is that of the last call, save that contents which are no image are an invalid
parameter.

Firmware that claims more bytes than there was room for has broken its
contract. All else it may answer as it likes.

## Main definitions

* `Services.Honest`: A reply that keeps the contract.
* `Services.Reply.answer`: What a reply says about a variable.
* `Config.verdict`: The status a reply amounts to.
* `Config.Ensuring`: The calls made to load the configuration.

## Theorems

* `Services.provide_stops`: Only a broken contract stops an operation.
* `Config.readingBack_reply`: A reply is turned into its verdict.
* `Config.Ensuring.once`, `Config.Ensuring.reluctant`: The variable is written
  once at most, and only if it cannot be read.
* `Config.Ensuring.success_iff`, `Config.Ensuring.failure`: What a status
  says about the last call.
* `Config.conversation_load_provided`: Loading makes these calls and ends with
  their status.
-/

namespace BoardSupport

/-- The end that a result is delivered with. -/
def Outcome.ofExcept {ε α : Type} : Except ε α → Outcome ε α
  | .ok value => .ok value
  | .error cause => .error cause

namespace Services

/-- No more bytes are claimed than there was room for. -/
def Honest : Event interface → Prop
  | ⟨.getVariable _ capacity, reply⟩ => reply.status = Status.success → reply.size ≤ capacity
  | _ => True

instance : (e : Event interface) → Decidable (Honest e)
  | ⟨.getVariable _ _, _⟩ => inferInstanceAs (Decidable (_ → _))
  | ⟨.setVariable _ _ _, _⟩ => inferInstanceAs (Decidable True)
  | ⟨.log _ _, _⟩ => inferInstanceAs (Decidable True)

/-- The event is a call and no log record. -/
def isCall (e : Event interface) : Bool :=
  e.operation.call?.isSome

/-- The event is a variable written. -/
def isSet (e : Event interface) : Bool :=
  match e.operation with
  | .setVariable _ _ _ => true
  | _ => false

/-- What a reply that keeps the contract says about the variable. -/
def Reply.answer {capacity : Nat} (r : Reply capacity) :
    Except Variables.Error (Option (Variables.Content capacity)) :=
  if r.status = Status.success then
    .ok (some ⟨r.size, r.buffer⟩)
  else if r.status = Status.notFound then
    .ok none
  else if r.status = Status.bufferTooSmall then
    .error (.bufferTooSmall r.size)
  else
    .error (.firmware r.status)

section Provide

variable {ε : Type}

theorem content_eq {capacity : Nat} (r : Reply capacity)
    (h : r.status = Status.success → r.size ≤ capacity) :
    (r.content : Program interface ε _) = .done (.ok r.answer) := by
  unfold Reply.content Reply.answer
  by_cases hsuccess : r.status = Status.success
  · rw [if_pos hsuccess, if_pos hsuccess, if_pos (h hsuccess)]
    rfl
  rw [if_neg hsuccess, if_neg hsuccess]
  by_cases hmissing : r.status = Status.notFound
  · rw [if_pos hmissing, if_pos hmissing]
    rfl
  rw [if_neg hmissing, if_neg hmissing]
  by_cases hsmall : r.status = Status.bufferTooSmall
  · rw [if_pos hsmall, if_pos hsmall]
    rfl
  · rw [if_neg hsmall, if_neg hsmall]
    rfl

/-- A read of a variable is one call, and the reply decides about the answer. -/
theorem provide_read (id : VariableId) (capacity : Nat) (part : List (Event interface))
    (outcome : Outcome ε (Except Variables.Error (Option (Variables.Content capacity))))
    (hhonest : ∀ e ∈ part, Honest e)
    (h : (provide (.read id capacity) : Program interface ε _).Conversation part outcome) :
    ∃ reply : Reply capacity, part = [⟨.getVariable id capacity, reply⟩] ∧
      outcome = .ok reply.answer := by
  rcases (Program.conversation_ask _ _ _ _).mp h with ⟨reply, rest, rfl, hrest⟩
  rw [content_eq reply (hhonest _ List.mem_cons_self)] at hrest
  rcases (Program.conversation_done _ _ _).mp hrest with ⟨rfl, rfl⟩
  exact ⟨reply, rfl, rfl⟩

/-- Only a broken contract stops an operation. -/
theorem provide_stops (operation : Variables.Operation) (part : List (Event interface))
    (outcome : Outcome ε operation.Answer) (hhonest : ∀ e ∈ part, Honest e)
    (h : (provide operation).Conversation part outcome) : ∃ answer, outcome = .ok answer := by
  cases operation with
  | read id capacity =>
      rcases provide_read id capacity part outcome hhonest h with ⟨reply, -, rfl⟩
      exact ⟨reply.answer, rfl⟩
  | write id attributes data =>
      rcases (Program.conversation_ask _ _ _ _).mp h with ⟨status, rest, -, hdone⟩
      exact ⟨written status, ((Program.conversation_done _ _ _).mp hdone).2⟩
  | log level message =>
      rcases (Program.conversation_ask _ _ _ _).mp h with ⟨_, rest, -, hdone⟩
      exact ⟨(), ((Program.conversation_done _ _ _).mp hdone).2⟩

end Provide

end Services

namespace Config

open Services (Honest isCall)

/-- The configuration variable was asked for, and this is the reply. -/
def getEvent (reply : Services.Reply maxCpus) : Event Services.interface :=
  ⟨.getVariable variableId maxCpus, reply⟩

/-- The variable was written with every CPU enabled, and this is the status. -/
def setEvent (status : Status) : Event Services.interface :=
  ⟨.setVariable variableId attributes (List.replicate 8 1), status⟩

instance (content : Variables.Content maxCpus) : Decidable (IsImage content) :=
  inferInstanceAs (Decidable (_ ∧ ∀ b ∈ content.buffer.toList, _))

/-- The status that a reply amounts to: the one it has, unless it delivers
    contents that are no image. -/
def verdict (reply : Services.Reply maxCpus) : Status :=
  if reply.status = Status.success ∧ ¬ IsImage ⟨reply.size, reply.buffer⟩ then
    Status.invalidParameter
  else
    reply.status

theorem verdict_eq_success_iff (reply : Services.Reply maxCpus) :
    verdict reply = Status.success ↔
      reply.status = Status.success ∧ IsImage ⟨reply.size, reply.buffer⟩ := by
  have hne : Status.invalidParameter ≠ Status.success := by decide
  unfold verdict
  by_cases hbad : reply.status = Status.success ∧ ¬ IsImage ⟨reply.size, reply.buffer⟩
  · rw [if_pos hbad]
    exact ⟨fun h => absurd h hne, fun h => absurd h.2 hbad.2⟩
  · rw [if_neg hbad]
    constructor
    · intro hs
      exact ⟨hs, Decidable.not_not.mp fun himage => hbad ⟨hs, himage⟩⟩
    · exact fun h => h.1

theorem verdict_of_failed (reply : Services.Reply maxCpus) (h : reply.status ≠ Status.success) :
    verdict reply = reply.status :=
  if_neg fun hbad => h hbad.1

/-- A program that loads a configuration ends with this status. -/
def EndsWith (status : Status) : Outcome Error CpuSet → Prop
  | .ok _ => status = Status.success
  | .error cause => status = cause.status
  | .fault => False

/-- A reply is turned into its verdict. -/
theorem readingBack_reply (reply : Services.Reply maxCpus) :
    EndsWith (verdict reply) (.ofExcept (readingBack reply.answer)) := by
  by_cases hsuccess : reply.status = Status.success
  · have hanswer : reply.answer = .ok (some ⟨reply.size, reply.buffer⟩) := if_pos hsuccess
    rw [hanswer, readingBack, reading]
    cases hd : decode ⟨reply.size, reply.buffer⟩ with
    | ok config =>
        have himage := isImage_of_decode _ config hd
        exact (verdict_eq_success_iff reply).mpr ⟨hsuccess, himage⟩
    | error cause =>
        have hbad : ¬ IsImage ⟨reply.size, reply.buffer⟩ := by
          intro himage
          rcases decode_of_isImage _ himage with ⟨config, hok⟩
          rw [hd] at hok
          cases hok
        change verdict reply = cause.status
        rw [verdict, if_pos ⟨hsuccess, hbad⟩]
        rcases decode_eq_error _ cause hd with ⟨_, _, rfl⟩ | ⟨_, _, rfl⟩
        · rfl
        · rfl
  · -- Whatever the failure is called on the way, its status is passed on.
    rw [verdict_of_failed reply hsuccess, Services.Reply.answer, if_neg hsuccess]
    by_cases hmissing : reply.status = Status.notFound
    · rw [if_pos hmissing]
      exact hmissing
    rw [if_neg hmissing]
    by_cases hsmall : reply.status = Status.bufferTooSmall
    · rw [if_pos hsmall]
      exact hsmall
    · rw [if_neg hsmall]
      rfl

-- A reply that delivers contents had success, and no other.
theorem answer_eq_some_iff (reply : Services.Reply maxCpus) :
    (∃ content, reply.answer = .ok (some content)) ↔ reply.status = Status.success := by
  unfold Services.Reply.answer
  constructor
  · rintro ⟨content, h⟩
    by_cases hsuccess : reply.status = Status.success
    · exact hsuccess
    · rw [if_neg hsuccess] at h
      split at h
      · cases h
      split at h
      · cases h
      · cases h
  · intro h
    rw [if_pos h]
    exact ⟨_, rfl⟩

/-- The calls made to load the configuration, and the status this ends with: the
    variable is read, or it is created if that does not succeed. -/
inductive Ensuring : List (Event Services.interface) → Status → Prop where
  | found (reply : Services.Reply maxCpus) (h : reply.status = Status.success) :
      Ensuring [getEvent reply] (verdict reply)
  | refused (reply : Services.Reply maxCpus) (status : Status) (h : reply.status ≠ Status.success)
      (hstatus : status ≠ Status.success) :
      Ensuring [getEvent reply, setEvent status] status
  | created (reply again : Services.Reply maxCpus) (h : reply.status ≠ Status.success) :
      Ensuring [getEvent reply, setEvent Status.success, getEvent again] (verdict again)

namespace Ensuring

variable {calls : List (Event Services.interface)} {status : Status}

/-- The variable is written at most once. -/
theorem once (h : Ensuring calls status) : calls.countP Services.isSet ≤ 1 := by
  cases h with
  | found reply h => exact Nat.zero_le 1
  | refused reply status h hstatus => exact Nat.le_refl 1
  | created reply again h => exact Nat.le_refl 1

/-- It is written with every CPU enabled, and right after a first read that did
    not succeed. -/
theorem reluctant (h : Ensuring calls status) (before after : List (Event Services.interface))
    (e : Event Services.interface) (heq : calls = before ++ e :: after)
    (he : Services.isSet e = true) :
    (∃ written, e = setEvent written) ∧
      ∃ reply, before = [getEvent reply] ∧ reply.status ≠ Status.success := by
  -- One case for each number of calls before this one. Only one of them is a write.
  cases h with
  | found reply h =>
      match before, heq with
      | [], heq =>
          cases heq
          cases he
      | _ :: _, heq => simp at heq
  | refused reply status h hstatus =>
      match before, heq with
      | [], heq =>
          cases heq
          cases he
      | [_], heq =>
          cases heq
          exact ⟨⟨status, rfl⟩, reply, rfl, h⟩
      | _ :: _ :: _, heq => simp at heq
  | created reply again h =>
      match before, heq with
      | [], heq =>
          cases heq
          cases he
      | [_], heq =>
          cases heq
          exact ⟨⟨Status.success, rfl⟩, reply, rfl, h⟩
      | [_, _], heq =>
          cases heq
          cases he
      | _ :: _ :: _ :: _, heq => simp at heq

-- The last call is either a write that was refused or a read, and a read decides
-- by its verdict.
theorem last (h : Ensuring calls status) :
    (calls.getLast? = some (setEvent status) ∧ status ≠ Status.success) ∨
      ∃ reply, calls.getLast? = some (getEvent reply) ∧ status = verdict reply := by
  cases h with
  | found reply h => exact Or.inr ⟨reply, rfl, rfl⟩
  | refused reply status h hstatus => exact Or.inl ⟨rfl, hstatus⟩
  | created reply again h => exact Or.inr ⟨again, rfl, rfl⟩

/-- The status is that of success exactly if the last call was a read that
    delivered an image. -/
theorem success_iff (h : Ensuring calls status) :
    status = Status.success ↔ ∃ reply, calls.getLast? = some (getEvent reply) ∧
      reply.status = Status.success ∧ IsImage ⟨reply.size, reply.buffer⟩ := by
  rcases h.last with ⟨hlast, hstatus⟩ | ⟨reply, hlast, rfl⟩
  · constructor
    · exact fun hsuccess => absurd hsuccess hstatus
    · rintro ⟨reply, hread, -⟩
      rw [hlast] at hread
      cases hread
  · rw [verdict_eq_success_iff]
    constructor
    · exact fun himage => ⟨reply, hlast, himage⟩
    · rintro ⟨reply', hread, himage⟩
      rw [hlast] at hread
      cases hread
      exact himage

/-- Any other status is that of the write, or of the read after it, or it
    reports contents that are no image. -/
theorem failure (h : Ensuring calls status) (hstatus : status ≠ Status.success) :
    calls.getLast? = some (setEvent status) ∨
      (∃ first again, calls = [getEvent first, setEvent Status.success, getEvent again] ∧
        again.status ≠ Status.success ∧ status = again.status) ∨
      status = Status.invalidParameter ∧ ∃ reply, calls.getLast? = some (getEvent reply) ∧
        reply.status = Status.success ∧ ¬ IsImage ⟨reply.size, reply.buffer⟩ := by
  -- A read that succeeded and yet has another verdict delivered something else.
  have hmalformed : ∀ reply, reply.status = Status.success → status = verdict reply →
      calls.getLast? = some (getEvent reply) →
      status = Status.invalidParameter ∧ ∃ reply, calls.getLast? = some (getEvent reply) ∧
        reply.status = Status.success ∧ ¬ IsImage ⟨reply.size, reply.buffer⟩ := by
    intro reply hsuccess hverdict hlast
    have hbad : ¬ IsImage ⟨reply.size, reply.buffer⟩ := fun himage =>
      hstatus (hverdict.trans ((verdict_eq_success_iff reply).mpr ⟨hsuccess, himage⟩))
    exact ⟨hverdict.trans (if_pos ⟨hsuccess, hbad⟩), reply, hlast, hsuccess, hbad⟩
  cases h with
  | found reply h => exact Or.inr (Or.inr (hmalformed reply h rfl rfl))
  | refused reply status h hrefused => exact Or.inl rfl
  | created reply again h =>
      by_cases hagain : again.status = Status.success
      · exact Or.inr (Or.inr (hmalformed again hagain rfl rfl))
      · exact Or.inr (Or.inl ⟨reply, again, rfl, hagain, verdict_of_failed again hagain⟩)

end Ensuring

/-- Carrying out the operations of a task by the firmware's services. -/
abbrev Provided (asked : List (Event Variables.interface))
    (events : List (Event Services.interface)) : Prop :=
  Program.CarriesOut (Services.provide (ε := Error)) asked events

section Provided

variable {asked : List (Event Variables.interface)} {events : List (Event Services.interface)}
  (hhonest : ∀ e ∈ events, Honest e)

include hhonest

theorem provided_read (answer : Except Variables.Error (Option (Variables.Content maxCpus)))
    (h : Provided (readEvent answer :: asked) events) :
    ∃ reply rest, events = getEvent reply :: rest ∧ answer = reply.answer ∧
      (∀ e ∈ rest, Honest e) ∧ Provided asked rest := by
  cases h with
  | cons _ part rest _ first later =>
      rcases Services.provide_read _ _ part _ (fun e he => hhonest e (List.mem_append_left rest he))
        first with ⟨reply, rfl, hanswer⟩
      exact ⟨reply, rest, rfl, Outcome.ok.inj hanswer,
        fun e he => hhonest e (List.mem_cons_of_mem _ he), later⟩

theorem provided_write (answer : Except Variables.Error Unit)
    (h : Provided (writeEvent CpuSet.allEnabled answer :: asked) events) :
    ∃ status rest, events = setEvent status :: rest ∧ answer = Services.written status ∧
      (∀ e ∈ rest, Honest e) ∧ Provided asked rest := by
  cases h with
  | cons _ part rest _ first later =>
      rcases (Program.conversation_ask _ _ _ _).mp first with ⟨status, _, rfl, hdone⟩
      rcases (Program.conversation_done _ _ _).mp hdone with ⟨rfl, hanswer⟩
      exact ⟨status, rest, rfl, Outcome.ok.inj hanswer,
        fun e he => hhonest e (List.mem_cons_of_mem _ he), later⟩

theorem provided_say (level : Log.Level) (message : String)
    (h : Provided (sayEvent level message :: asked) events) :
    ∃ said rest, events = said :: rest ∧ isCall said = false ∧
      (∀ e ∈ rest, Honest e) ∧ Provided asked rest := by
  cases h with
  | cons _ part rest _ first later =>
      rcases (Program.conversation_ask _ _ _ _).mp first with ⟨_, _, rfl, hdone⟩
      rcases (Program.conversation_done _ _ _).mp hdone with ⟨rfl, -⟩
      exact ⟨_, rest, rfl, rfl, fun e he => hhonest e (List.mem_cons_of_mem _ he), later⟩

end Provided

theorem provided_nil (events : List (Event Services.interface)) (h : Provided [] events) :
    events = [] := by
  cases h
  rfl

theorem success_of_written (status : Status) (h : .ok () = Services.written status) :
    status = Status.success := by
  unfold Services.written at h
  by_cases hstatus : status = Status.success
  · exact hstatus
  · rw [if_neg hstatus] at h
    cases h

/-- The variable was written and then read again. -/
theorem provided_readBack (events : List (Event Services.interface))
    (answer : Except Variables.Error (Option (Variables.Content maxCpus)))
    (hhonest : ∀ e ∈ events, Honest e)
    (h : Provided [writeEvent CpuSet.allEnabled (.ok ()), readEvent answer] events) :
    ∃ again, events = [setEvent Status.success, getEvent again] ∧ answer = again.answer := by
  rcases provided_write hhonest _ h with ⟨status, rest, rfl, hwritten, hrest, hread⟩
  rcases provided_read hrest _ hread with ⟨again, rest, rfl, hanswer, -, hnil⟩
  obtain rfl := provided_nil rest hnil
  obtain rfl := success_of_written status hwritten
  exact ⟨again, rfl, hanswer⟩

/-- Any answers to what a task asks for. -/
def unanswered : (operation : Variables.Operation) → operation.Answer
  | .read _ _ => .ok none
  | .write _ _ _ => .ok ()
  | .log _ _ => ()

/-- Reading the variable back after it was created, or not getting so far. -/
theorem ensuring_creating (reply : Services.Reply maxCpus)
    (hreply : reply.status ≠ Status.success) (asked : List (Event Variables.interface))
    (outcome : Outcome Error CpuSet) (h : Creating asked outcome)
    (events : List (Event Services.interface)) (hhonest : ∀ e ∈ events, Honest e)
    (hprovided : Provided asked events) :
    ∃ status, Ensuring (getEvent reply :: events.filter isCall) status ∧
      EndsWith status outcome := by
  cases h with
  | refused cause =>
      rcases provided_write hhonest _ hprovided with ⟨status, rest, rfl, hwritten, -, hnil⟩
      obtain rfl := provided_nil rest hnil
      unfold Services.written at hwritten
      by_cases hstatus : status = Status.success
      · rw [if_pos hstatus] at hwritten
        cases hwritten
      · rw [if_neg hstatus] at hwritten
        cases hwritten
        exact ⟨status, .refused reply status hreply hstatus, rfl⟩
  | unread answer cause _ hcause =>
      rcases provided_readBack events answer hhonest hprovided with ⟨again, rfl, rfl⟩
      have hends := readingBack_reply again
      rw [hcause] at hends
      exact ⟨verdict again, .created reply again hreply, hends⟩
  | readBack answer config hconfig =>
      rcases provided_readBack events answer hhonest hprovided with ⟨again, rfl, rfl⟩
      have hends := readingBack_reply again
      rw [readingBack, hconfig] at hends
      exact ⟨verdict again, .created reply again hreply, hends⟩

-- A call, something said to the log, and more.
theorem filter_call_say (call said : Event Services.interface)
    (rest : List (Event Services.interface)) (hcall : isCall call = true)
    (hsaid : isCall said = false) :
    (call :: said :: rest).filter isCall = call :: rest.filter isCall := by
  rw [List.filter_cons_of_pos hcall,
    List.filter_cons_of_neg (by rw [hsaid]; exact Bool.false_ne_true)]

/-- Loading the configuration makes these calls and ends with their status. -/
theorem conversation_load_provided (events : List (Event Services.interface))
    (outcome : Outcome Error CpuSet) (hhonest : ∀ e ∈ events, Honest e)
    (h : (load.interpret Services.provide).Conversation events outcome) :
    ∃ status, Ensuring (events.filter isCall) status ∧ EndsWith status outcome := by
  cases Program.conversation_interpret _ unanswered load events outcome h with
  | stopped asked remaining ended _ done part operation failed own answered carried failing stops =>
      -- No operation fails to be carried out, since no contract is broken.
      rcases Services.provide_stops operation part failed
        (fun e he => hhonest e (List.mem_append_right done he)) failing with ⟨answer, rfl⟩
      cases stops
  | ended asked _ _ own carried =>
      cases conversation_load asked outcome own with
      | found answer config hconfig level message =>
          rcases provided_read hhonest _ carried with ⟨reply, rest, rfl, rfl, hrest, hsay⟩
          rcases provided_say hrest _ _ hsay with ⟨said, rest, rfl, hsaid, -, hnil⟩
          obtain rfl := provided_nil rest hnil
          rcases (reading_eq_some_iff _ _).mp hconfig with ⟨content, hcontent, -⟩
          have hsuccess := (answer_eq_some_iff reply).mp ⟨content, hcontent⟩
          have hends := readingBack_reply reply
          rw [readingBack, hconfig] at hends
          rw [filter_call_say (getEvent reply) said [] rfl hsaid]
          exact ⟨verdict reply, .found reply hsuccess, hends⟩
      | malformed content cause hd level message =>
          rcases provided_read hhonest _ carried with ⟨reply, rest, rfl, hanswer, hrest, hsay⟩
          rcases provided_say hrest _ _ hsay with ⟨said, rest, rfl, hsaid, -, hnil⟩
          obtain rfl := provided_nil rest hnil
          have hsuccess := (answer_eq_some_iff reply).mp ⟨content, hanswer.symm⟩
          have hends := readingBack_reply reply
          rw [readingBack, ← hanswer, reading, hd] at hends
          rw [filter_call_say (getEvent reply) said [] rfl hsaid]
          exact ⟨verdict reply, .found reply hsuccess, hends⟩
      | created answer hanswer level message rest _ creating =>
          rcases provided_read hhonest _ carried with ⟨reply, later, rfl, rfl, hlater, hsay⟩
          rcases provided_say hlater _ _ hsay with ⟨said, later, rfl, hsaid, hlater, hcreating⟩
          have hfailed : reply.status ≠ Status.success := by
            intro hsuccess
            rcases (answer_eq_some_iff reply).mpr hsuccess with ⟨content, hcontent⟩
            exact hanswer content hcontent
          rw [filter_call_say (getEvent reply) said later rfl hsaid]
          exact ensuring_creating reply hfailed rest outcome creating later hlater hcreating

end Config

end BoardSupport
