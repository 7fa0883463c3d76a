import BoardSupport.Config.Session
import BoardSupport.Proofs.Config.Image
import BoardSupport.Proofs.Program.Conversation

/-!
# What the Operations Ask

Every conversation that loading, saving and routing can have with the
variables, written down once.

Each operation has a handful of ways to go, and every one of them is a fixed
list of events followed by a fixed end. They are the constructors of `Saving`,
`Creating`, `Loading` and `Routing`; the theorems say that there are no others.
What the variables answer is left open in all of them. A later fact about an
operation is a case analysis over these lists and never opens the operation.

A read is decoded at once, so a constructor for a read that led somewhere
carries what decoding its answer gave.

## Main definitions

* `Config.reading`, `Config.readingBack`: What the answer to a read amounts to,
  at any time and after a write.
* `Config.Saving`, `Config.Creating`, `Config.Loading`, `Config.Routing`: The
  ways an operation can go.

## Theorems

* `Config.decode_eq_ok_iff`: The contents that are a configuration.
* `Config.decode_eq_error`: What is reported about all others.
* `Config.conversation_save`, `Config.conversation_load`,
  `Config.conversation_route`: An operation goes one of its ways.
* `Config.Session.call_load`, `Config.Session.call_save`,
  `Config.Session.call_route`: A call on a session goes one of its ways, with
  the answers its variables give.
-/

namespace BoardSupport

namespace Config

/-- A read of the configuration variable. -/
def readEvent (answer : Except Variables.Error (Option (Variables.Content maxCpus))) :
    Event Variables.interface :=
  ⟨.read variableId maxCpus, answer⟩

/-- A write of a configuration to its variable. -/
def writeEvent (config : CpuSet) (answer : Except Variables.Error Unit) :
    Event Variables.interface :=
  ⟨.write variableId attributes config.toBytes, answer⟩

/-- Something said to the log. -/
def sayEvent (level : Log.Level) (message : String) : Event Variables.interface :=
  ⟨.log level message, ()⟩

/-- Content is a configuration if it is the whole buffer and the buffer holds an
    image. -/
theorem decode_eq_ok_iff (content : Variables.Content maxCpus) (config : CpuSet) :
    decode content = .ok config ↔
      content.length = maxCpus ∧ content.buffer.toList = config.toBytes := by
  have hbuffer : content.buffer.toList.length = maxCpus := Vector.length_toList
  unfold decode
  by_cases hle : content.length ≤ maxCpus
  · rw [if_pos hle, CpuSet.ofBytes_eq_ok_iff]
    constructor
    · intro h
      -- An image has a byte for every CPU, so nothing of the buffer was cut off.
      have hlen := congrArg List.length h
      rw [List.length_take, hbuffer, CpuSet.length_toBytes, Nat.min_eq_left hle] at hlen
      rw [List.take_of_length_le (by omega)] at h
      exact ⟨hlen, h⟩
    · rintro ⟨hlen, h⟩
      rw [List.take_of_length_le (by omega)]
      exact h
  · rw [if_neg hle]
    constructor
    · intro h
      cases h
    · rintro ⟨hlen, _⟩
      omega

/-- What is reported about content is its length or a byte of it, never a
    failure of the variables. -/
theorem decode_eq_error (content : Variables.Content maxCpus) (cause : Error)
    (h : decode content = .error cause) :
    (∃ expected actual, cause = .invalidLength expected actual) ∨
      ∃ index value, cause = .invalidBoolean index value := by
  unfold decode at h
  by_cases hle : content.length ≤ maxCpus
  · rw [if_pos hle] at h
    rcases CpuSet.ofBytes_eq_error _ _ h with ⟨_, rfl⟩ | ⟨before, b, _, _, _, _, rfl⟩
    · exact Or.inl ⟨_, _, rfl⟩
    · exact Or.inr ⟨before.length, b, rfl⟩
  · rw [if_neg hle] at h
    cases h
    exact Or.inl ⟨_, _, rfl⟩

/-- What the answer to a read amounts to. -/
def reading : Except Variables.Error (Option (Variables.Content maxCpus)) →
    Except Error (Option CpuSet)
  | .error cause => .error (.store cause)
  | .ok none => .ok none
  | .ok (some content) => (decode content).map some

theorem reading_eq_some_iff (answer : Except Variables.Error (Option (Variables.Content maxCpus)))
    (config : CpuSet) :
    reading answer = .ok (some config) ↔
      ∃ content, answer = .ok (some content) ∧ decode content = .ok config := by
  cases answer with
  | error cause => simp [reading]
  | ok content? =>
      cases content? with
      | none => simp [reading]
      | some content => cases hd : decode content <;> simp [reading, hd, Except.map]

/-- What the answer amounts to when a variable just written is read back: that
    it is missing is then a failure of the variables. -/
def readingBack (answer : Except Variables.Error (Option (Variables.Content maxCpus))) :
    Except Error CpuSet :=
  match reading answer with
  | .error cause => .error cause
  | .ok none => .error (.store (.firmware Status.notFound))
  | .ok (some config) => .ok config

theorem read_eq :
    read = .ask (.read variableId maxCpus) fun answer => Program.ofExcept (reading answer) := by
  unfold read
  congr 1
  funext answer
  cases answer with
  | error cause => rfl
  | ok content? => cases content? <;> rfl

-- A program that starts with a read goes on with what the answer amounts to.
theorem conversation_read_bind {β : Type} (f : Option CpuSet → Task β)
    (events : List (Event Variables.interface)) (outcome : Outcome Error β)
    (h : (read.bind f).Conversation events outcome) :
    ∃ answer rest, events = readEvent answer :: rest ∧
      ((Program.ofExcept (reading answer)).bind f).Conversation rest outcome := by
  rw [read_eq] at h
  exact (Program.conversation_ask _ _ _ _).mp h

/-- A configuration is written: the write is refused, or it gets through and
    the log is told. -/
inductive Saving (config : CpuSet) :
    List (Event Variables.interface) → Outcome Error CpuSet → Prop where
  | refused (cause : Variables.Error) :
      Saving config [writeEvent config (.error cause)] (.error (.store cause))
  | stored (level : Log.Level) (message : String) :
      Saving config [writeEvent config (.ok ()), sayEvent level message] (.ok config)

/-- The variable is created: the write is refused, or it gets through and
    reading back gives no configuration, or gives one. -/
inductive Creating : List (Event Variables.interface) → Outcome Error CpuSet → Prop where
  | refused (cause : Variables.Error) :
      Creating [writeEvent CpuSet.allEnabled (.error cause)] (.error (.store cause))
  | unread (answer : Except Variables.Error (Option (Variables.Content maxCpus))) (cause : Error)
      (h : ∀ config, reading answer ≠ .ok (some config))
      (hcause : readingBack answer = .error cause) :
      Creating [writeEvent CpuSet.allEnabled (.ok ()), readEvent answer] (.error cause)
  | readBack (answer : Except Variables.Error (Option (Variables.Content maxCpus)))
      (config : CpuSet) (h : reading answer = .ok (some config)) :
      Creating [writeEvent CpuSet.allEnabled (.ok ()), readEvent answer] (.ok config)

/-- The variable is loaded: it holds a configuration, or something else that is
    reported, or nothing can be read and it is created. -/
inductive Loading : List (Event Variables.interface) → Outcome Error CpuSet → Prop where
  | found (answer : Except Variables.Error (Option (Variables.Content maxCpus)))
      (config : CpuSet) (h : reading answer = .ok (some config))
      (level : Log.Level) (message : String) :
      Loading [readEvent answer, sayEvent level message] (.ok config)
  | malformed (content : Variables.Content maxCpus) (cause : Error)
      (h : decode content = .error cause) (level : Log.Level) (message : String) :
      Loading [readEvent (.ok (some content)), sayEvent level message] (.error cause)
  | created (answer : Except Variables.Error (Option (Variables.Content maxCpus)))
      (h : ∀ content, answer ≠ .ok (some content)) (level : Log.Level) (message : String)
      (rest : List (Event Variables.interface)) (outcome : Outcome Error CpuSet)
      (creating : Creating rest outcome) :
      Loading (readEvent answer :: sayEvent level message :: rest) outcome

/-- A change is routed: the request is refused before anything is asked, or the
    variable holds nothing that can be changed, or the change does not fit, or
    the changed configuration is written. -/
inductive Routing (request : String) (data : List UInt8) :
    List (Event Variables.interface) → Outcome Error CpuSet → Prop where
  | refused (cause : Error)
      (h : ∀ block, Header.check request = .ok () → Block.parse request ≠ .ok block) :
      Routing request data [] (.error cause)
  | unread (answer : Except Variables.Error (Option (Variables.Content maxCpus))) (cause : Error)
      (h : reading answer = .error cause) :
      Routing request data [readEvent answer] (.error cause)
  | rejected (answer : Except Variables.Error (Option (Variables.Content maxCpus)))
      (block : Block) (stored : Option CpuSet) (cause : Error)
      (hread : reading answer = .ok stored) (hblock : Block.parse request = .ok block)
      (h : (stored.getD CpuSet.allEnabled).apply block data = .error cause) :
      Routing request data [readEvent answer] (.error cause)
  | changed (answer : Except Variables.Error (Option (Variables.Content maxCpus)))
      (block : Block) (stored : Option CpuSet) (config : CpuSet)
      (hread : reading answer = .ok stored) (hcheck : Header.check request = .ok ())
      (hblock : Block.parse request = .ok block)
      (h : (stored.getD CpuSet.allEnabled).apply block data = .ok config)
      (rest : List (Event Variables.interface)) (outcome : Outcome Error CpuSet)
      (saving : Saving config rest outcome) :
      Routing request data (readEvent answer :: rest) outcome

-- Saving and the last part of routing, which tell the log different things.
theorem conversation_write_say (config : CpuSet) (level : Log.Level) (message : String)
    (events : List (Event Variables.interface)) (outcome : Outcome Error CpuSet)
    (h : ((write config).bind fun _ => (say level message).bind fun _ =>
      Program.done (.ok config)).Conversation events outcome) :
    Saving config events outcome := by
  rcases (Program.conversation_ask _ _ _ _).mp h with ⟨answer, rest, rfl, hrest⟩
  cases answer with
  | error cause =>
      rcases (Program.conversation_done _ _ _).mp hrest with ⟨rfl, rfl⟩
      exact .refused cause
  | ok _ =>
      rcases (Program.conversation_ask _ _ _ _).mp hrest with ⟨_, rest, rfl, hdone⟩
      rcases (Program.conversation_done _ _ _).mp hdone with ⟨rfl, rfl⟩
      exact .stored level _

theorem conversation_save (config : CpuSet) (events : List (Event Variables.interface))
    (outcome : Outcome Error CpuSet) (h : (save config).Conversation events outcome) :
    Saving config events outcome :=
  conversation_write_say config _ _ events outcome h

theorem conversation_create (events : List (Event Variables.interface))
    (outcome : Outcome Error CpuSet) (h : create.Conversation events outcome) :
    Creating events outcome := by
  rcases (Program.conversation_ask _ _ _ _).mp h with ⟨written, rest, rfl, hrest⟩
  cases written with
  | error cause =>
      rcases (Program.conversation_done _ _ _).mp hrest with ⟨rfl, rfl⟩
      exact .refused cause
  | ok _ =>
      -- The write got through, and what is left is to read it back.
      rcases conversation_read_bind _ _ _ hrest with ⟨answer, rest, rfl, hread⟩
      cases hr : reading answer with
      | error cause =>
          rw [hr] at hread
          rcases (Program.conversation_done _ _ _).mp hread with ⟨rfl, rfl⟩
          exact .unread answer cause (by simp [hr]) (by rw [readingBack, hr])
      | ok stored =>
          rw [hr] at hread
          cases stored with
          | none =>
              rcases (Program.conversation_done _ _ _).mp hread with ⟨rfl, rfl⟩
              exact .unread answer _ (by simp [hr]) (by rw [readingBack, hr])
          | some config =>
              rcases (Program.conversation_done _ _ _).mp hread with ⟨rfl, rfl⟩
              exact .readBack answer config hr

-- A variable that cannot be read and one that is missing are both created; only
-- what the log is told differs.
theorem conversation_say_create
    (answer : Except Variables.Error (Option (Variables.Content maxCpus)))
    (hanswer : ∀ content, answer ≠ .ok (some content)) (level : Log.Level) (message : String)
    (events : List (Event Variables.interface)) (outcome : Outcome Error CpuSet)
    (h : ((say level message).bind fun _ => create).Conversation events outcome) :
    Loading (readEvent answer :: events) outcome := by
  rcases (Program.conversation_ask _ _ _ _).mp h with ⟨_, rest, rfl, hcreate⟩
  exact .created answer hanswer level _ rest outcome (conversation_create _ _ hcreate)

theorem conversation_load (events : List (Event Variables.interface))
    (outcome : Outcome Error CpuSet) (h : load.Conversation events outcome) :
    Loading events outcome := by
  unfold load at h
  rw [read_eq] at h
  rcases (Program.conversation_ask _ _ _ _).mp h with ⟨answer, rest, rfl, hrest⟩
  cases answer with
  | error cause => exact conversation_say_create _ (by simp) _ _ _ _ hrest
  | ok content? =>
      cases content? with
      | none => exact conversation_say_create _ (by simp) _ _ _ _ hrest
      | some content =>
          simp only [reading] at hrest
          cases hd : decode content with
          | ok config =>
              rw [hd] at hrest
              rcases (Program.conversation_ask _ _ _ _).mp hrest with ⟨_, rest, rfl, hdone⟩
              rcases (Program.conversation_done _ _ _).mp hdone with ⟨rfl, rfl⟩
              exact .found _ config ((reading_eq_some_iff _ _).mpr ⟨content, rfl, hd⟩) _ _
          | error cause =>
              rw [hd] at hrest
              -- A failure to decode is no failure to read, so nothing is created.
              rcases decode_eq_error content cause hd with ⟨_, _, rfl⟩ | ⟨_, _, rfl⟩
              all_goals
                rcases (Program.conversation_ask _ _ _ _).mp hrest with ⟨_, rest, rfl, hdone⟩
                rcases (Program.conversation_done _ _ _).mp hdone with ⟨rfl, rfl⟩
                exact .malformed content _ hd _ _

theorem conversation_route (request : String) (data : List UInt8)
    (events : List (Event Variables.interface)) (outcome : Outcome Error CpuSet)
    (h : (route request data).Conversation events outcome) :
    Routing request data events outcome := by
  unfold route at h
  -- One case for each thing that can stop the change, in the order they are
  -- looked at.
  cases hc : Header.check request with
  | error cause =>
      rw [hc] at h
      rcases (Program.conversation_done _ _ _).mp h with ⟨rfl, rfl⟩
      exact .refused cause (by simp [hc])
  | ok _ =>
      rw [hc] at h
      cases hb : Block.parse request with
      | error cause =>
          rw [hb] at h
          rcases (Program.conversation_done _ _ _).mp h with ⟨rfl, rfl⟩
          exact .refused cause (by simp [hb])
      | ok block =>
          rw [hb] at h
          rcases conversation_read_bind _ _ _ h with ⟨answer, rest, rfl, hread⟩
          cases hr : reading answer with
          | error cause =>
              rw [hr] at hread
              rcases (Program.conversation_done _ _ _).mp hread with ⟨rfl, rfl⟩
              exact .unread answer cause hr
          | ok stored =>
              rw [hr] at hread
              cases ha : (stored.getD CpuSet.allEnabled).apply block data with
              | error cause =>
                  rw [Program.ofExcept, Program.done_ok_bind, ha] at hread
                  rcases (Program.conversation_done _ _ _).mp hread with ⟨rfl, rfl⟩
                  exact .rejected answer block stored cause hr hb ha
              | ok config =>
                  rw [Program.ofExcept, Program.done_ok_bind, ha] at hread
                  exact .changed answer block stored config hr hc hb ha _ _
                    (conversation_write_say config _ _ _ _ hread)

namespace Session

variable {σ : Type}

-- Carrying out a task is one of its conversations, with the answers of the
-- machine, and the store takes its end.
theorem perform_eq (machine : Machine Variables.interface σ) (s : Session σ)
    (task : Task CpuSet) :
    ∃ events outcome backing,
      s.perform machine task =
        (⟨events, .config outcome⟩, ⟨s.store.after outcome, backing⟩) ∧
      task.Conversation events outcome ∧ machine.Replies s.backing events backing := by
  have h := machine.conversation_recorded task s.backing
  exact ⟨_, _, _, rfl, h.1, h.2⟩

theorem call_load (machine : Machine Variables.interface σ) (s : Session σ) :
    ∃ events outcome backing,
      s.call machine .load = (⟨events, .config outcome⟩, ⟨s.store.after outcome, backing⟩) ∧
      Loading events outcome ∧ machine.Replies s.backing events backing := by
  rcases s.perform_eq machine load with ⟨events, outcome, backing, heq, hc, hm⟩
  exact ⟨events, outcome, backing, heq, conversation_load _ _ hc, hm⟩

theorem call_save (machine : Machine Variables.interface σ) (s : Session σ) (config : CpuSet) :
    ∃ events outcome backing,
      s.call machine (.save config) =
        (⟨events, .config outcome⟩, ⟨s.store.after outcome, backing⟩) ∧
      Saving config events outcome ∧ machine.Replies s.backing events backing := by
  rcases s.perform_eq machine (save config) with ⟨events, outcome, backing, heq, hc, hm⟩
  exact ⟨events, outcome, backing, heq, conversation_save _ _ _ hc, hm⟩

theorem call_route (machine : Machine Variables.interface σ) (s : Session σ)
    (request : String) (data : List UInt8) :
    ∃ events outcome backing,
      s.call machine (.route request data) =
        (⟨events, .config outcome⟩, ⟨s.store.after outcome, backing⟩) ∧
      Routing request data events outcome ∧ machine.Replies s.backing events backing := by
  rcases s.perform_eq machine (route request data) with ⟨events, outcome, backing, heq, hc, hm⟩
  exact ⟨events, outcome, backing, heq, conversation_route _ _ _ _ hc, hm⟩

end Session

end Config

end BoardSupport
