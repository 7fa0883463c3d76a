import BoardSupport.Proofs.Boot.Startup
import BoardSupport.Proofs.Program.Sessions
import BoardSupport.Proofs.Serial.Logging

/-!
# Two Sinks

The serial line and the console are told the same.

Built with the serial line, the application logs to both: a record is sent over
the line, and then printed. The line has a filter of its own, which the
application does not ask; it asks one for both and has the record written. So
the two loggers, the one with the line alone and the one with both, agree on
what they let through and on every character of it.

A console shows what is printed with the ends of lines in its own way.

## Main definitions

* `Boot.printed`: What was printed among some events.
* `Boot.Prints`: Surroundings whose console shows what is printed.
* `Boot.admitted`, `Boot.lines`: The records that are let through, and the lines
  that they are written as.
* `Boot.Mirrors`: What comes of logging some records to both sinks.
* `Boot.Agree`: What a logger makes of calls and records.

## Theorems

* `Boot.mirrors_log`: One record goes to both or to none.
* `Boot.mirrors_logged`: So do records in a row.
* `Boot.console_replies`: What a console shows after some events.
* `Boot.loggers_agree`: What either logger makes of any records.
-/

namespace BoardSupport

namespace Boot

open Bus (accesses)
open Serial (NeverFull Sends WaitsEnd textBytes)

/-- The text that an event prints, if any. -/
def print? : Event interface → Option String
  | ⟨.print text, _⟩ => some text
  | _ => none

/-- What was printed among some events, in order. -/
def printed (events : List (Event interface)) : List String :=
  events.filterMap print?

theorem printed_append (first rest : List (Event interface)) :
    printed (first ++ rest) = printed first ++ printed rest :=
  List.filterMap_append

-- The waits for the line are those of the parts of a run.
theorem divides_returns (l : Serial.Logger) : Divides (Returns l) :=
  ⟨returns_left l, returns_right l⟩

-- A driver of the serial line prints nothing.
theorem printed_serial {α : Type} (p : Driver Serial.Stalled α) (events : List (Event interface))
    (outcome : Outcome Serial.Stalled α) (h : (serial p).Conversation events outcome) :
    printed events = [] := by
  induction p generalizing events with
  | done ended =>
      rcases (Program.conversation_done _ _ _).mp h with ⟨rfl, -⟩
      rfl
  | ask operation next ih =>
      rcases (Program.conversation_ask _ _ _ _).mp h with ⟨answer, rest, rfl, hrest⟩
      exact ih answer rest hrest

/-- The records that a logger lets through. -/
def admitted (l : Serial.Logger) (records : List Log.Record) : List Log.Record :=
  records.filter fun r => r.level.rank ≤ l.filter.rank

/-- The lines that these records are written as. -/
def lines (l : Serial.Logger) (records : List Log.Record) : List String :=
  (admitted l records).map fun r => String.ofList r.text

/-- What came of logging some records to both sinks: the serial line was sent the
    text of those let through, and the same lines were printed. -/
structure Mirrors (l : Serial.Logger) (records : List Log.Record)
    (events : List (Event interface)) : Prop where
  sent : Sends (textBytes (admitted l records)) (accesses (lineEvents events))
  printed : printed events = lines l records

/-- If all waits end, a record goes to both sinks or to none. -/
theorem mirrors_log (l : Serial.Logger) (r : Log.Record) (events : List (Event interface))
    (outcome : Outcome Serial.Stalled Unit) (h : (log l r).Conversation events outcome)
    (hends : Returns l events) : outcome = .ok () ∧ Mirrors l [r] events := by
  have hfilter : Sinks.filter l = l.filter := rfl
  rw [log, hfilter, Log.Filter.admits_eq] at h
  by_cases hlevel : r.level.rank ≤ l.filter.rank
  · have hadmitted : admitted l [r] = [r] := List.filter_cons_of_pos (decide_eq_true hlevel)
    rw [if_pos (decide_eq_true hlevel)] at h
    rcases (Program.conversation_bind _ _ _ _).mp h with ⟨line, rest, ended, rfl, hline, hrest⟩
    rcases conversation_serial _ line ended hline with ⟨-, hemit⟩
    rcases l.conversation_emit r _ ended hemit (returns_left l line rest hends l rfl)
      with ⟨rfl, hsent⟩
    rcases (Program.conversation_ask _ _ _ _).mp hrest with ⟨_, rest, rfl, hdone⟩
    rcases (Program.conversation_done _ _ _).mp hdone with ⟨rfl, rfl⟩
    refine ⟨rfl, ?_, ?_⟩
    · have hlast : lineEvents (line ++ [⟨.print (r.line ++ "\n"), ()⟩]) = lineEvents line := by
        rw [lineEvents_append]
        exact List.append_nil _
      rw [hadmitted, hlast]
      exact hsent
    · rw [printed_append, printed_serial _ line _ hline, lines, hadmitted, List.map_singleton,
        ← r.toList_line, String.ofList_toList]
      rfl
  · have hadmitted : admitted l [r] = [] := List.filter_cons_of_neg (by simpa using hlevel)
    rw [if_neg (by simpa using hlevel)] at h
    rcases (Program.conversation_done _ _ _).mp h with ⟨rfl, rfl⟩
    refine ⟨rfl, ?_, ?_⟩
    · rw [hadmitted]
      exact Serial.sends_reads []
    · rw [lines, hadmitted]
      rfl

/-- If all waits end, records in a row go to both sinks in their order. -/
theorem mirrors_logged {τ : Type} (l : Serial.Logger) (machine : Machine interface τ) (t : τ)
    (records : List Log.Record)
    (hends : Returns l (Service.events ((logging l).turns machine () t records))) :
    (∀ turn ∈ (logging l).turns machine () t records, turn.outcome = .ok ()) ∧
      Mirrors l records (Service.events ((logging l).turns machine () t records)) := by
  refine (logging l).carried_turns (Returns l) (Mirrors l) (divides_returns l)
    ⟨Serial.sends_reads [], rfl⟩ (fun r asked outcome hasked hwaits => ?_) machine t records hends
  rcases mirrors_log l r asked outcome hasked hwaits with ⟨houtcome, hone⟩
  refine ⟨houtcome, fun records rest hrest => ?_⟩
  have hadmitted : admitted l (r :: records) = admitted l [r] ++ admitted l records :=
    List.filter_append [r] records
  refine ⟨?_, ?_⟩
  · rw [hadmitted, Serial.textBytes_append, lineEvents_append, Bus.accesses_append]
    exact Serial.sends_append _ _ _ _ hone.sent hrest.sent
  · rw [printed_append, hone.printed, hrest.printed, lines, lines, lines, hadmitted,
      List.map_append]

/-- Surroundings whose console shows what is printed, and nothing else. -/
structure Prints {τ : Type} (machine : Machine interface τ) (console : τ → String) : Prop where
  print : ∀ text t, console (machine (.print text) t).2 = console t ++ consoleText text
  firmware : ∀ operation t, console (machine (.firmware operation) t).2 = console t
  serial : ∀ operation t, console (machine (.serial operation) t).2 = console t

/-- A console shows what was printed, behind what it showed before. -/
theorem console_replies {τ : Type} {machine : Machine interface τ} {console : τ → String}
    (hm : Prints machine console) (events : List (Event interface)) (t u : τ)
    (hr : machine.Replies t events u) :
    console u = console t ++ String.join ((printed events).map consoleText) := by
  induction events generalizing t with
  | nil =>
      cases hr
      exact String.append_empty.symm
  | cons e rest ih =>
      have hrest := ih _ hr.2
      rcases e with ⟨operation, answer⟩
      cases operation with
      | firmware operation =>
          rw [hm.firmware] at hrest
          exact hrest
      | serial operation =>
          rw [hm.serial] at hrest
          exact hrest
      | print text =>
          rw [hm.print] at hrest
          have hprinted : printed (⟨.print text, answer⟩ :: rest) = text :: printed rest := rfl
          rw [hrest, hprinted, List.map_cons, String.join_cons, String.append_assoc]

theorem prints_board : Prints board Board.console where
  print _ _ := rfl
  firmware _ _ := rfl
  serial _ _ := rfl

/-- What a logger makes of some calls on a serial line, and of some records with
    both sinks. -/
structure Agree {σ τ : Type} (l : Serial.Logger) (line : Machine Bus.interface σ) (s : σ)
    (calls : List Serial.Logger.Call) (machine : Machine interface τ) (console : τ → String)
    (t : τ) (records : List Log.Record) : Prop where
  /-- The line is sent the records that are to be written or are let through, each
      as its text, and nothing else. -/
  sent : (∀ turn ∈ l.service.turns line () s calls, turn.outcome = .ok ()) ∧
    Sends (textBytes (calls.flatMap (Serial.Logger.Call.written l)))
      (accesses (Service.events (l.service.turns line () s calls)))
  /-- With both sinks it is sent the records that are let through, and the same
      lines are printed. -/
  mirrored : (∀ turn ∈ (logging l).turns machine () t records, turn.outcome = .ok ()) ∧
    Mirrors l records (Service.events ((logging l).turns machine () t records))
  /-- These are what the console goes on to show. -/
  shown : console ((logging l).leaves machine () t records) = console t ++
    String.join ((lines l records).map consoleText)

/-- Where the serial line is never full, a logger sends exactly the records that it
    should, and its two sinks are told the same. -/
theorem loggers_agree {σ τ : Type} (l : Serial.Logger) (hpatience : 0 < l.patience)
    (line : Machine Bus.interface σ) (s : σ) (calls : List Serial.Logger.Call)
    (hline : NeverFull (accesses (Service.events (l.service.turns line () s calls))))
    {machine : Machine interface τ} {console : τ → String} (hm : Prints machine console) (t : τ)
    (records : List Log.Record)
    (hboard : NeverFull
      (accesses (lineEvents (Service.events ((logging l).turns machine () t records))))) :
    Agree l line s calls machine console t records := by
  have hreturns : Returns l (Service.events ((logging l).turns machine () t records)) := by
    rintro line ⟨⟩
    exact Serial.waitsEnd_of_neverFull _ hpatience _ hboard
  have hmirrored := mirrors_logged l machine t records hreturns
  have hshown := console_replies hm _ _ _ ((logging l).replies_leaves machine () t records)
  rw [hmirrored.2.printed] at hshown
  exact ⟨l.sends_logged line s calls (Serial.waitsEnd_of_neverFull _ hpatience _ hline), hmirrored,
    hshown⟩

/-- A logger that lets warnings through. -/
def cautious : Serial.Logger :=
  ⟨.upTo .warn, 1⟩

/-- A board on which a prompt is shown. -/
def prompting : Board :=
  ⟨⟨[], [], []⟩, Memory.zeroed, "> "⟩

/-- Calls of which one is kept back, and one is not although it could be. -/
def spoken : List Serial.Logger.Call :=
  [.log ⟨.info, "clint", "armed"⟩, .emit ⟨.trace, "uart", "1 µs"⟩,
    .log ⟨.warn, "spifmc", "no interrupt"⟩]

/-- Records of which one is kept back, and one ends a line before its end. -/
def noted : List Log.Record :=
  [⟨.debug, "store", "read"⟩, ⟨.error, "store", "lost\nagain"⟩, ⟨.warn, "", ""⟩]

theorem loggers_agree_cautious :
    0 < cautious.patience ∧
      NeverFull (accesses
        (Service.events (cautious.service.turns Memory.device.machine () .zeroed spoken))) ∧
      Prints board Board.console ∧
      NeverFull (accesses
        (lineEvents (Service.events ((logging cautious).turns board () prompting noted)))) ∧
      Agree cautious Memory.device.machine .zeroed spoken board Board.console prompting noted := by
  have hpatience : 0 < cautious.patience := Nat.one_pos
  have hline : NeverFull (accesses
      (Service.events (cautious.service.turns Memory.device.machine () .zeroed spoken))) := by
    decide +kernel
  have hboard : NeverFull (accesses
      (lineEvents (Service.events ((logging cautious).turns board () prompting noted)))) := by
    decide +kernel
  exact ⟨hpatience, hline, prints_board, hboard, loggers_agree cautious hpatience
    Memory.device.machine .zeroed spoken hline prints_board prompting noted hboard⟩

end Boot

end BoardSupport
