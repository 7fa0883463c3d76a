import BoardSupport.Device.Memory
import BoardSupport.Proofs.Serial.Logging

/-!
# The First Logger Stays

What comes of installing loggers and logging records, in any order.

The state of the whole system is a logger and a filter, and each is there to keep
the other in check: a record passes the filter of the system and then that of the
logger. Only installing changes them, and only the first installation is let
through. So a session has two parts. Until a logger is installed nothing is let
through, and nobody is there to write it. From then on the logger and the filter
of the system are those of the first installation, later ones are refused, and
the records that its filter lets through are written.

The loggers of a session share one line. Which of them writes is seen from which
records are written.

## Main definitions

* `Serial.LogSystem.logged`: The records that some calls log.
* `Serial.LogSystem.holding`: The system with a logger installed.
* `Serial.LogSystem.Stays`: What comes of calls around a first installation.
* `Serial.LogSystem.Settles`: What comes of any calls.

## Theorems

* `Serial.LogSystem.turns_unheard`: Until a logger is installed, nothing happens.
* `Serial.LogSystem.conversation_serve`: A call once a logger is installed.
* `Serial.LogSystem.turns_holding`: Calls in a row once a logger is installed.
* `Serial.LogSystem.first_logger_stays`: Any calls in a row.
-/

namespace BoardSupport

namespace Serial

namespace LogSystem

open Bus (Access accesses)
open Log (InstallError)

variable {σ : Type}

/-- What comes of one call on the system. -/
abbrev Turn :=
  Service.Turn Bus.interface LogSystem Call Stalled (Except InstallError LogSystem)

/-- The record that a call logs, if any. -/
def Call.record? : Call → Option Log.Record
  | .install _ => none
  | .log r => some r

/-- The records that some calls log, in order. -/
def logged (calls : List Call) : List Log.Record :=
  calls.filterMap Call.record?

/-- The records among these that a logger lets through. -/
def heard (l : Logger) (records : List Log.Record) : List Log.Record :=
  records.filter fun r => r.level.rank ≤ l.filter.rank

/-- What is heard of one record is what the logger writes for it. -/
theorem heard_singleton (l : Logger) (r : Log.Record) :
    heard l [r] = Logger.Call.written l (.log r) := by
  rw [heard, Logger.Call.written]
  -- The logger decides by cases, the filter of a list by a truth value.
  by_cases hlevel : r.level.rank ≤ l.filter.rank
  · rw [if_pos hlevel, List.filter_cons_of_pos (by simpa using hlevel), List.filter_nil]
  · rw [if_neg hlevel, List.filter_cons_of_neg (by simpa using hlevel), List.filter_nil]

/-- The system with a logger installed: it lets through what the logger does. -/
def holding (l : Logger) : LogSystem :=
  ⟨some l, l.filter⟩

/-- What a client is told once a logger is installed: another is refused, and
    records change nothing. -/
def Call.reply (l : Logger) : Call → Except InstallError LogSystem
  | .install _ => .error .alreadyInstalled
  | .log _ => .ok (holding l)

section Unheard

/-- A call that logs a record before any logger is installed asks nothing of the
    bus and changes nothing. -/
def unheard (call : Call) : Turn :=
  ⟨call, [], .ok (.ok .empty), .empty⟩

/-- Until a logger is installed, nothing happens. -/
theorem turns_unheard (machine : Machine Bus.interface σ) (s : σ) (before rest : List Call)
    (h : ∀ l, .install l ∉ before) :
    service.turns machine .empty s (before ++ rest) =
      before.map unheard ++ service.turns machine .empty s rest := by
  induction before with
  | nil => rfl
  | cons call before ih =>
      cases call with
      | install l => exact absurd List.mem_cons_self (h l)
      | log r =>
          have hrest := ih fun l hl => h l (List.mem_cons_of_mem _ hl)
          rw [List.cons_append, Service.turns_cons, List.map_cons, List.cons_append, ← hrest]
          rfl

theorem events_unheard (calls : List Call) : Service.events (calls.map unheard) = [] := by
  rw [Service.events, List.flatMap_map]
  exact List.flatMap_eq_nil_iff.mpr fun _ _ => rfl

end Unheard

section Holding

variable (l : Logger)

-- A record passes both filters or none, since they are the same.
theorem log_holding (r : Log.Record) : (holding l).log r = l.log r := by
  change (if l.filter.admits r.level then l.log r else pure ()) = l.log r
  rw [Logger.log, Logger.enabled]
  split
  · rfl
  · rfl

/-- Once a logger is installed it stays, and if all waits end a record that it lets
    through is sent. -/
theorem conversation_serve (call : Call) (events : List (Event Bus.interface))
    (outcome : Outcome Stalled (Except InstallError LogSystem))
    (h : ((holding l).serve call).Conversation events outcome)
    (hends : WaitsEnd l.patience (accesses events)) :
    outcome = .ok (call.reply l) ∧
      Sends (textBytes (heard l (logged [call]))) (accesses events) := by
  cases call with
  | install other =>
      rcases (Program.conversation_done _ _ _).mp h with ⟨rfl, rfl⟩
      exact ⟨rfl, sends_reads []⟩
  | log r =>
      change (((holding l).log r).bind _).Conversation events outcome at h
      rw [log_holding] at h
      rcases (Program.conversation_bind _ _ _ _).mp h with ⟨line, rest, ended, rfl, hline, hrest⟩
      rw [Bus.accesses_append] at hends
      rcases l.conversation_call (.log r) line ended hline (waitsEnd_left _ _ _ hends)
        with ⟨rfl, hsent⟩
      rcases (Program.conversation_done _ _ _).mp hrest with ⟨rfl, rfl⟩
      rw [List.append_nil]
      rw [← heard_singleton] at hsent
      exact ⟨rfl, hsent⟩

/-- Once a logger is installed, calls in a row change nothing, and what is sent are
    the records that it lets through. -/
theorem turns_holding (hpatience : 0 < l.patience) (machine : Machine Bus.interface σ) (s : σ)
    (calls : List Call)
    (hroom : NeverFull (accesses (Service.events (service.turns machine (holding l) s calls)))) :
    (∀ t ∈ service.turns machine (holding l) s calls,
      t.outcome = .ok (t.call.reply l) ∧ t.kept = holding l) ∧
    Sends (textBytes (heard l (logged calls)))
      (accesses (Service.events (service.turns machine (holding l) s calls))) := by
  refine service.carried_keeping (· = holding l)
    (fun events => WaitsEnd l.patience (accesses events)) _
    (fun calls events => Sends (textBytes (heard l (logged calls))) (accesses events))
    (divides_waitsEnd l.patience) (sends_reads []) ?_ machine (holding l) s calls rfl
    (waitsEnd_of_neverFull l.patience hpatience _ hroom)
  rintro _ call asked outcome rfl hasked hwaits
  rcases conversation_serve l call asked outcome hasked hwaits with ⟨rfl, hsent⟩
  have hkept : after (holding l) (.ok (call.reply l)) = holding l := by
    cases call with
    | install other => rfl
    | log r => rfl
  refine ⟨hkept, ⟨rfl, hkept⟩, fun calls rest hrest => ?_⟩
  have hsplit : heard l (logged (call :: calls)) =
      heard l (logged [call]) ++ heard l (logged calls) := by
    rw [← List.singleton_append, logged, List.filterMap_append, heard, List.filter_append]
    rfl
  rw [hsplit, textBytes_append, Bus.accesses_append]
  exact sends_append _ _ _ _ hsent hrest

end Holding

/-- What comes of calls around a first installation. -/
structure Stays (l : Logger) (before after : List Call) (early : List Turn) (turn : Turn)
    (late : List Turn) : Prop where
  /-- Before it, calls ask nothing of the bus, and there is neither a logger nor
      anything let through. -/
  silent : early = before.map fun call => ⟨call, [], .ok (.ok .empty), .empty⟩
  /-- The installation succeeds: the system has the logger and its filter. -/
  installed : turn = ⟨.install l, [], .ok (.ok ⟨some l, l.filter⟩), ⟨some l, l.filter⟩⟩
  /-- After it, come what may, the system has the same logger and filter. -/
  kept : late.map Service.Turn.call = after ∧ ∀ t ∈ late, t.kept = ⟨some l, l.filter⟩
  /-- Every later installation is refused. -/
  refused : ∀ t ∈ late, ∀ other, t.call = .install other →
    t.outcome = .ok (.error .alreadyInstalled)
  /-- Logging always comes to its end. -/
  ends : ∀ t ∈ late, ∀ r, t.call = .log r → t.outcome = .ok (.ok ⟨some l, l.filter⟩)
  /-- What goes over the bus are the lines of the records logged after it that the
      logger lets through, and nothing else. -/
  sent : Sends (textBytes ((logged after).filter fun r => r.level.rank ≤ l.filter.rank))
    (accesses (Service.events (early ++ turn :: late)))

/-- What comes of any calls. -/
structure Settles (calls : List Call) (turns : List Turn) : Prop where
  /-- The first logger to be installed stays. -/
  first : ∀ before l after, calls = before ++ .install l :: after →
    (∀ other, .install other ∉ before) →
      ∃ early turn late, turns = early ++ turn :: late ∧ Stays l before after early turn late
  /-- Without one, nothing is let through and nothing goes over the bus. -/
  none : (∀ l, .install l ∉ calls) →
    turns = calls.map fun call => ⟨call, [], .ok (.ok .empty), .empty⟩

-- Turns are about the calls that were made.
theorem calls_turns (machine : Machine Bus.interface σ) (kept : LogSystem) (s : σ)
    (calls : List Call) : (service.turns machine kept s calls).map Service.Turn.call = calls := by
  induction calls generalizing kept s with
  | nil => rfl
  | cons call rest ih =>
      rw [Service.turns_cons, List.map_cons, ih]

/-- On a line that is never full, the first logger to be installed stays installed
    with its filter, and what it lets through is sent. -/
theorem first_logger_stays (machine : Machine Bus.interface σ) (s : σ) (calls : List Call)
    (hpatience : ∀ l, .install l ∈ calls → 0 < l.patience)
    (hroom : NeverFull (accesses (Service.events (service.turns machine .empty s calls)))) :
    Settles calls (service.turns machine .empty s calls) := by
  refine ⟨fun before l after hcalls hbefore => ?_, fun hnone => ?_⟩
  · subst hcalls
    have hl : 0 < l.patience := hpatience l (List.mem_append_right _ List.mem_cons_self)
    have hinstall : service.turns machine .empty s (.install l :: after) =
        ⟨.install l, [], .ok (.ok (holding l)), holding l⟩ ::
          service.turns machine (holding l) s after := rfl
    rw [turns_unheard machine s before _ hbefore, hinstall] at hroom ⊢
    have hevents : Service.events (before.map unheard ++
        ⟨.install l, [], .ok (.ok (holding l)), holding l⟩ ::
          service.turns machine (holding l) s after) =
        Service.events (service.turns machine (holding l) s after) := by
      rw [Service.events, List.flatMap_append]
      exact congrArg (· ++ _) (events_unheard before)
    rw [hevents] at hroom
    rcases turns_holding l hl machine s after hroom with ⟨hlate, hsent⟩
    refine ⟨_, _, _, rfl, rfl, rfl, ⟨calls_turns machine _ s after, fun t ht => (hlate t ht).2⟩,
      fun t ht other hcall => ?_, fun t ht r hcall => ?_, ?_⟩
    · rw [(hlate t ht).1, hcall]
      rfl
    · rw [(hlate t ht).1, hcall]
      rfl
    · rw [hevents]
      exact hsent
  · have hall := turns_unheard machine s calls [] hnone
    rw [List.append_nil] at hall
    exact hall.trans (List.append_nil _)

/-- Calls with records too early, too unimportant and just important enough, and
    with a second logger that would let all of them through. -/
def contested : List Call :=
  [.log ⟨.error, "boot", "lost"⟩, .install ⟨.upTo .info, 1⟩, .log ⟨.debug, "clint", "armed"⟩,
    .install ⟨.upTo .trace, 2⟩, .log ⟨.trace, "uart", "idle"⟩, .log ⟨.info, "uart", "3 µs"⟩]

theorem first_logger_stays_contested :
    (∀ l, .install l ∈ contested → 0 < l.patience) ∧
      NeverFull (accesses (Service.events
        (service.turns Memory.device.machine .empty .zeroed contested))) ∧
      ∃ early turn late,
        service.turns Memory.device.machine .empty .zeroed contested = early ++ turn :: late ∧
          Stays ⟨.upTo .info, 1⟩ [.log ⟨.error, "boot", "lost"⟩]
            [.log ⟨.debug, "clint", "armed"⟩, .install ⟨.upTo .trace, 2⟩,
              .log ⟨.trace, "uart", "idle"⟩, .log ⟨.info, "uart", "3 µs"⟩] early turn late := by
  have hpatience : ∀ l, .install l ∈ contested → 0 < l.patience := by
    intro l hl
    simp only [contested, List.mem_cons, reduceCtorEq, Call.install.injEq, List.not_mem_nil,
      or_false, false_or] at hl
    rcases hl with rfl | rfl
    · exact Nat.one_pos
    · exact Nat.two_pos
  have hroom : NeverFull (accesses (Service.events
      (service.turns Memory.device.machine .empty .zeroed contested))) := by
    decide +kernel
  refine ⟨hpatience, hroom, ?_⟩
  exact (first_logger_stays Memory.device.machine .zeroed contested hpatience hroom).first
    [.log ⟨.error, "boot", "lost"⟩] _ _ rfl fun other hother => by
      simp only [List.mem_cons, reduceCtorEq, List.not_mem_nil, or_false] at hother

end LogSystem

end Serial

end BoardSupport
