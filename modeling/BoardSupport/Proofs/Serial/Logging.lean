import BoardSupport.Proofs.Serial.Sending
import BoardSupport.Serial.Logger

/-!
# Records on a Serial Line

What a logger sends.

A record is written as one line of text. A client either logs a record, and then
the filter decides whether it is written, or has it written whatever the filter
says. What goes out for some calls is the text of the records written, one after
another and nothing else, in the order of the calls.

A line that is never full makes no driver wait, however little patience it has.

## Main definitions

* `Log.Record.text`: The characters that a record is written as.
* `Log.Filter.rank`: A filter on the scale of the levels.
* `Serial.Logger.Call.written`: The record that is written for a call, if any.
* `Serial.textBytes`: The text of some records in UTF-8.
* `Serial.NeverFull`: A line that always has room.

## Theorems

* `Log.Filter.admits_eq`: A filter compares levels.
* `Log.Record.toList_line`: A line is the text of its record.
* `Serial.waitsEnd_of_neverFull`: Where there is room no wait lasts.
* `Serial.Logger.sends_logged`: What some calls on a logger send.
-/

namespace BoardSupport

namespace Log

/-- A filter on the scale of the levels: the closed one is below all of them. -/
def Filter.rank : Filter → Nat
  | off => 0
  | upTo most => most.rank

/-- A level is let through if it is no higher than the filter. -/
theorem Filter.admits_eq (f : Filter) (level : Level) :
    f.admits level = decide (level.rank ≤ f.rank) := by
  cases f with
  | off => cases level <;> rfl
  | upTo most => rfl

/-- The characters that a record is written as: its level in brackets, its target,
    its message, and the end of the line. -/
def Record.text (r : Record) : List Char :=
  '[' :: r.level.name.toList ++ ']' :: ' ' :: r.target.toList ++ ':' :: ' ' :: r.message.toList ++
    ['\n']

/-- A line is the text of its record. -/
theorem Record.toList_line (r : Record) : (r.line ++ "\n").toList = r.text := by
  have hline : r.line = "[" ++ r.level.name ++ "] " ++ r.target ++ ": " ++ r.message := rfl
  simp [hline, text]

end Log

namespace Serial

open Bus (Access accesses)

variable {σ : Type}

/-- The records that a logger writes for a call. -/
def Logger.Call.written (l : Logger) : Call → List Log.Record
  | .log r => if r.level.rank ≤ l.filter.rank then [r] else []
  | .emit r => [r]

/-- The text of some records, one after another, in UTF-8. -/
def textBytes (records : List Log.Record) : List UInt8 :=
  (records.flatMap Log.Record.text).flatMap String.utf8EncodeChar

theorem textBytes_append (first rest : List Log.Record) :
    textBytes (first ++ rest) = textBytes first ++ textBytes rest := by
  rw [textBytes, List.flatMap_append, List.flatMap_append, textBytes, textBytes]

/-- Every read of the register for transmitting is told that there is room. -/
def NeverFull (xs : List Access) : Prop :=
  ∀ a ∈ xs, refuses a = false

instance (xs : List Access) : Decidable (NeverFull xs) :=
  inferInstanceAs (Decidable (∀ a ∈ xs, _))

/-- Where there always is room no wait lasts. -/
theorem waitsEnd_of_neverFull (patience : Nat) (hpatience : 0 < patience) (xs : List Access)
    (h : NeverFull xs) : WaitsEnd patience xs := by
  intro rest hrest
  have hnone : rest.takeWhile refuses = [] := by
    cases rest with
    | nil => rfl
    | cons a rest =>
        have ha : a ∈ xs := ((List.mem_tails _ _).mp hrest).subset List.mem_cons_self
        rw [List.takeWhile_cons_of_neg (by rw [h a ha]; exact Bool.false_ne_true)]
  rw [hnone]
  exact hpatience

namespace Logger

/-- If all waits end, a record that is written is sent as its text. -/
theorem conversation_emit (l : Logger) (r : Log.Record) (events : List (Event Bus.interface))
    (outcome : Outcome Stalled Unit) (h : (l.emit r).Conversation events outcome)
    (hends : WaitsEnd l.patience (accesses events)) :
    outcome = .ok () ∧ Sends (textBytes [r]) (accesses events) := by
  have hbytes : textBytes [r] = (r.line ++ "\n").toUTF8.data.toList := by
    rw [toUTF8_eq, r.toList_line, textBytes, List.flatMap_singleton]
  rw [hbytes]
  exact conversation_writeBytes l.patience _ events outcome h hends

/-- If all waits end, a call sends the text of the record that is written for it,
    if any. -/
theorem conversation_call (l : Logger) (call : Call) (events : List (Event Bus.interface))
    (outcome : Outcome Stalled Unit) (h : (call.program l).Conversation events outcome)
    (hends : WaitsEnd l.patience (accesses events)) :
    outcome = .ok () ∧ Sends (textBytes (call.written l)) (accesses events) := by
  cases call with
  | emit r => exact conversation_emit l r events outcome h hends
  | log r =>
      rw [Call.program, log, enabled, Log.Filter.admits_eq] at h
      rw [Call.written]
      by_cases hlevel : r.level.rank ≤ l.filter.rank
      · rw [if_pos (decide_eq_true hlevel)] at h
        rw [if_pos hlevel]
        exact conversation_emit l r events outcome h hends
      · rw [if_neg (by rw [decide_eq_true_iff]; exact hlevel)] at h
        rw [if_neg hlevel]
        rcases (Program.conversation_done _ _ _).mp h with ⟨rfl, rfl⟩
        exact ⟨rfl, sends_reads []⟩

/-- If all waits end, some calls send the text of the records that are written for
    them, in order. -/
theorem sends_logged (l : Logger) (machine : Machine Bus.interface σ) (s : σ) (calls : List Call)
    (hends : WaitsEnd l.patience
      (accesses (Service.events (l.service.turns machine () s calls)))) :
    (∀ t ∈ l.service.turns machine () s calls, t.outcome = .ok ()) ∧
      Sends (textBytes (calls.flatMap (Call.written l)))
        (accesses (Service.events (l.service.turns machine () s calls))) := by
  refine l.service.carried_turns (fun events => WaitsEnd l.patience (accesses events))
    (fun calls events => Sends (textBytes (calls.flatMap (Call.written l))) (accesses events))
    (divides_waitsEnd l.patience) (sends_reads []) (fun call asked outcome hasked hwaits => ?_)
    machine s calls hends
  rcases conversation_call l call asked outcome hasked hwaits with ⟨houtcome, hsent⟩
  refine ⟨houtcome, fun calls rest hrest => ?_⟩
  rw [List.flatMap_cons, textBytes_append, Bus.accesses_append]
  exact sends_append _ _ _ _ hsent hrest

end Logger

end Serial

end BoardSupport
