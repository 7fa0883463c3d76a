import BoardSupport.Program

/-!
# Conversations

What a program can go through, apart from any machine.

Most of what is worth saying about a driver holds on every machine: which
operations it asks for, in which order, and what it makes of the answers. A
conversation is the list of operations a program asked for, each with some
answer, together with how the program ended. It is a property of the tree
alone, and every choice of answers gives one.

A machine enters as a second relation. `Machine.Replies` says that the answers
of a list of events are the ones this machine gives, starting from one state
and ending in another. A recorded run is both at once, so a fact about all
conversations of a program is a fact about its runs on all machines, and what
a particular machine contributes can be read off the events afterwards.

Each way of combining programs goes on from the end of a program, so one
induction takes the conversations of all of them apart. A part that has ended
is put back as the leaf it ended with, so `bind` and its relatives need no case
for each kind of end.

## Main definitions

* `Outcome.isOk`: Whether a value was delivered.
* `Program.Conversation`: Operations with answers, and how the program ended.
* `Program.andThen`: What comes after a program, given how it ended.
* `Machine.Replies`: Answers that a machine gives, from state to state.

## Theorems

* `Program.eq_andThen`: What is of this form.
* `Program.conversation_andThen`: A conversation of the program comes first.
* `Program.conversation_bind`: The conversations of two programs in sequence.
* `Program.conversation_attempt`: The conversations of a program whose end is
  delivered as a value.
* `Program.conversation_mapError`, `Program.conversation_onError`: The
  conversations of a program whose errors are put in other words or handled.
* `Program.conversation_bind_ok`, `Program.conversation_mapError_ok`,
  `Program.conversation_onError_ok`: The same for a program that delivers.
* `Program.conversation_bind_isOk`, `Program.conversation_mapError_isOk`: The
  same where it only matters whether it does.
* `Machine.replies_append`: Splitting replies at an intermediate state.
* `Machine.exists_conversation`: A recorded run has a conversation and the
  machine's replies.
* `Machine.conversation_recorded`: The same for a recording that starts empty.
-/

namespace BoardSupport

/-- Whether a value was delivered. -/
def Outcome.isOk {ε α : Type} : Outcome ε α → Bool
  | .ok _ => true
  | _ => false

namespace Program

variable {I : Interface} {ε ε' α β σ : Type}

/-- The events a program goes through when it is given these answers, and how
    it ends. -/
inductive Conversation : Program I ε α → List (Event I) → Outcome ε α → Prop where
  | done (outcome : Outcome ε α) : Conversation (.done outcome) [] outcome
  | ask (operation : I.Operation) (next : I.Answer operation → Program I ε α)
      (answer : I.Answer operation) (events : List (Event I)) (outcome : Outcome ε α)
      (rest : Conversation (next answer) events outcome) :
      Conversation (.ask operation next) (⟨operation, answer⟩ :: events) outcome

@[simp] theorem done_ok_bind (value : α) (f : α → Program I ε β) :
    (Program.done (.ok value)).bind f = f value := rfl

theorem conversation_done (ended outcome : Outcome ε α) (events : List (Event I)) :
    (Program.done ended).Conversation events outcome ↔ events = [] ∧ outcome = ended := by
  constructor
  · intro h
    cases h with
    | done => exact ⟨rfl, rfl⟩
  · rintro ⟨rfl, rfl⟩
    exact .done _

theorem conversation_ask (operation : I.Operation) (next : I.Answer operation → Program I ε α)
    (events : List (Event I)) (outcome : Outcome ε α) :
    (Program.ask operation next).Conversation events outcome ↔
      ∃ answer rest, events = ⟨operation, answer⟩ :: rest ∧
        (next answer).Conversation rest outcome := by
  constructor
  · intro h
    cases h with
    | ask _ _ answer rest _ h => exact ⟨answer, rest, rfl, h⟩
  · rintro ⟨answer, rest, rfl, h⟩
    exact .ask _ _ _ _ _ h

/-- Go on from the end of a program, whichever kind it is. Every way of combining
    programs is of this form. -/
def andThen (p : Program I ε α) (f : Outcome ε α → Program I ε' β) : Program I ε' β :=
  match p with
  | .done ended => f ended
  | .ask operation next => .ask operation fun answer => (next answer).andThen f

/-- What leaves the operations of a program alone goes on from its end. -/
theorem eq_andThen (combine : Program I ε α → Program I ε' β)
    (hask : ∀ operation next,
      combine (.ask operation next) = .ask operation fun answer => combine (next answer))
    (p : Program I ε α) : combine p = p.andThen fun ended => combine (.done ended) := by
  induction p with
  | done ended => rfl
  | ask operation next ih =>
      rw [hask]
      exact congrArg (Program.ask operation) (funext ih)

/-- Going on from the end of a program is a conversation of the program, and
    what follows from the way it ended. -/
theorem conversation_andThen (p : Program I ε α) (f : Outcome ε α → Program I ε' β)
    (events : List (Event I)) (outcome : Outcome ε' β) :
    (p.andThen f).Conversation events outcome ↔
      ∃ first rest ended, events = first ++ rest ∧ p.Conversation first ended ∧
        (f ended).Conversation rest outcome := by
  -- Induction on the tree of the program. An operation of it is the front event
  -- on both sides.
  induction p generalizing events with
  | done ended =>
      constructor
      · intro h
        exact ⟨[], events, ended, rfl, .done ended, h⟩
      · rintro ⟨first, rest, _, rfl, hp, h⟩
        rcases (conversation_done _ _ _).mp hp with ⟨rfl, rfl⟩
        exact h
  | ask operation next ih =>
      simp only [andThen, conversation_ask]
      constructor
      · rintro ⟨answer, rest, rfl, h⟩
        rcases (ih answer rest).mp h with ⟨first, rest, ended, rfl, hp, h⟩
        exact ⟨⟨operation, answer⟩ :: first, rest, ended, rfl, ⟨answer, first, rfl, hp⟩, h⟩
      · rintro ⟨_, rest, ended, rfl, ⟨answer, first, rfl, hp⟩, h⟩
        exact ⟨answer, first ++ rest, rfl, (ih answer _).mpr ⟨first, rest, ended, rfl, hp, h⟩⟩

/-- Going on without operations leaves the events alone. -/
theorem conversation_andThen_silent (p : Program I ε α) (f : Outcome ε α → Program I ε' β)
    (hsilent : ∀ ended, ∃ last, f ended = .done last) (events : List (Event I))
    (outcome : Outcome ε' β) :
    (p.andThen f).Conversation events outcome ↔
      ∃ ended, p.Conversation events ended ∧ (f ended).Conversation [] outcome := by
  rw [conversation_andThen]
  constructor
  · rintro ⟨first, rest, ended, rfl, hp, h⟩
    rcases hsilent ended with ⟨last, hlast⟩
    have hnil : rest = [] := by
      rw [hlast] at h
      exact ((conversation_done _ _ _).mp h).1
    subst hnil
    rw [List.append_nil]
    exact ⟨ended, hp, h⟩
  · rintro ⟨ended, hp, h⟩
    exact ⟨events, [], ended, (List.append_nil events).symm, hp, h⟩

/-- The conversations of two programs in sequence: one of the first, and what
    follows from the way it ended. -/
theorem conversation_bind (p : Program I ε α) (f : α → Program I ε β)
    (events : List (Event I)) (outcome : Outcome ε β) :
    (p.bind f).Conversation events outcome ↔
      ∃ first rest ended, events = first ++ rest ∧ p.Conversation first ended ∧
        ((Program.done ended).bind f).Conversation rest outcome := by
  rw [eq_andThen (·.bind f) (fun _ _ => rfl) p, conversation_andThen]

/-- The second of two programs delivers only what follows a value of the
    first. -/
theorem conversation_bind_ok (p : Program I ε α) (f : α → Program I ε β)
    (events : List (Event I)) (b : β) (h : (p.bind f).Conversation events (.ok b)) :
    ∃ first rest a, events = first ++ rest ∧ p.Conversation first (.ok a) ∧
      (f a).Conversation rest (.ok b) := by
  rcases (conversation_bind _ _ _ _).mp h with ⟨first, rest, ended, rfl, hfirst, hrest⟩
  cases ended with
  | ok a => exact ⟨first, rest, a, rfl, hfirst, hrest⟩
  | error cause => cases ((conversation_done _ _ _).mp hrest).2
  | fault => cases ((conversation_done _ _ _).mp hrest).2

/-- A program that fails in the end does not deliver. -/
theorem not_ok_of_bind_fail (p : Program I ε α) (cause : ε) (events : List (Event I)) (b : β) :
    ¬(p.bind fun _ => fail cause).Conversation events (.ok b) := by
  intro h
  rcases conversation_bind_ok _ _ _ _ h with ⟨_, _, _, _, _, hfail⟩
  cases ((conversation_done _ _ _).mp hfail).2

/-- Of two programs in sequence the first delivers and the second follows, or
    the first does not deliver, and neither does the whole. -/
theorem conversation_bind_isOk (p : Program I ε α) (f : α → Program I ε β)
    (events : List (Event I)) (outcome : Outcome ε β)
    (h : (p.bind f).Conversation events outcome) :
    (∃ first rest a, events = first ++ rest ∧ p.Conversation first (.ok a) ∧
      (f a).Conversation rest outcome) ∨
    ∃ ended, p.Conversation events ended ∧ ended.isOk = false ∧ outcome.isOk = false := by
  rcases (conversation_bind _ _ _ _).mp h with ⟨first, rest, ended, rfl, hfirst, hrest⟩
  cases ended with
  | ok a => exact Or.inl ⟨first, rest, a, rfl, hfirst, hrest⟩
  | error cause =>
      rcases (conversation_done _ _ _).mp hrest with ⟨rfl, rfl⟩
      rw [List.append_nil]
      exact Or.inr ⟨.error cause, hfirst, rfl, rfl⟩
  | fault =>
      rcases (conversation_done _ _ _).mp hrest with ⟨rfl, rfl⟩
      rw [List.append_nil]
      exact Or.inr ⟨.fault, hfirst, rfl, rfl⟩

/-- Delivering the end of a program as a value changes nothing about what it
    asks. -/
theorem conversation_attempt (p : Program I ε α) (events : List (Event I))
    (outcome : Outcome ε' (Except ε α)) :
    (p.attempt : Program I ε' (Except ε α)).Conversation events outcome ↔
      ∃ ended, p.Conversation events ended ∧
        ((Program.done ended).attempt : Program I ε' (Except ε α)).Conversation [] outcome := by
  rw [eq_andThen attempt (fun _ _ => rfl) p]
  apply conversation_andThen_silent
  intro ended
  cases ended <;> exact ⟨_, rfl⟩

/-- Reporting errors in other words changes nothing about what is asked. -/
theorem conversation_mapError (f : ε → ε') (p : Program I ε α) (events : List (Event I))
    (outcome : Outcome ε' α) :
    (p.mapError f).Conversation events outcome ↔
      ∃ ended, p.Conversation events ended ∧
        ((Program.done ended : Program I ε α).mapError f).Conversation [] outcome := by
  rw [eq_andThen (mapError f) (fun _ _ => rfl) p]
  apply conversation_andThen_silent
  intro ended
  cases ended <;> exact ⟨_, rfl⟩

/-- A handler comes after everything the program asked for. -/
theorem conversation_onError (handler : ε → Program I ε Unit) (p : Program I ε α)
    (events : List (Event I)) (outcome : Outcome ε α) :
    (p.onError handler).Conversation events outcome ↔
      ∃ first rest ended, events = first ++ rest ∧ p.Conversation first ended ∧
        ((Program.done ended).onError handler).Conversation rest outcome := by
  rw [eq_andThen (onError handler) (fun _ _ => rfl) p, conversation_andThen]

-- Neither changes what a program goes through to deliver a value.
theorem conversation_mapError_ok (f : ε → ε') (p : Program I ε α) (events : List (Event I))
    (a : α) (h : (p.mapError f).Conversation events (.ok a)) : p.Conversation events (.ok a) := by
  rcases (conversation_mapError _ _ _ _).mp h with ⟨ended, hp, hlast⟩
  cases ended with
  | ok b =>
      cases ((conversation_done _ _ _).mp hlast).2
      exact hp
  | error cause => cases ((conversation_done _ _ _).mp hlast).2
  | fault => cases ((conversation_done _ _ _).mp hlast).2

theorem conversation_mapError_isOk (f : ε → ε') (p : Program I ε α) (events : List (Event I))
    (outcome : Outcome ε' α) (h : (p.mapError f).Conversation events outcome) :
    ∃ ended, p.Conversation events ended ∧ outcome.isOk = ended.isOk := by
  rcases (conversation_mapError _ _ _ _).mp h with ⟨ended, hended, hlast⟩
  refine ⟨ended, hended, ?_⟩
  cases ended <;> exact congrArg Outcome.isOk ((conversation_done _ _ _).mp hlast).2

theorem conversation_onError_ok (handler : ε → Program I ε Unit) (p : Program I ε α)
    (events : List (Event I)) (a : α) (h : (p.onError handler).Conversation events (.ok a)) :
    p.Conversation events (.ok a) := by
  rcases (conversation_onError _ _ _ _).mp h with ⟨first, rest, ended, rfl, hp, hlast⟩
  cases ended with
  | ok b =>
      rcases (conversation_done _ _ _).mp hlast with ⟨rfl, hab⟩
      cases hab
      rw [List.append_nil]
      exact hp
  | error cause =>
      -- Whatever the handler does, the error is what the program ends with.
      rcases conversation_bind_ok _ _ _ _ hlast with ⟨_, _, _, _, _, hdone⟩
      cases ((conversation_done _ _ _).mp hdone).2
  | fault => cases ((conversation_done _ _ _).mp hlast).2

end Program

namespace Machine

variable {I : Interface} {ε α σ : Type}

/-- The answers among some events are those this machine gives from one state
    on, and they leave it in another. -/
def Replies (machine : Machine I σ) : σ → List (Event I) → σ → Prop
  | s, [], t => t = s
  | s, e :: events, t =>
    (machine e.operation s).1 = e.answer ∧ Replies machine (machine e.operation s).2 events t

theorem replies_append (machine : Machine I σ) (first rest : List (Event I)) (s t : σ) :
    machine.Replies s (first ++ rest) t ↔
      ∃ u, machine.Replies s first u ∧ machine.Replies u rest t := by
  induction first generalizing s with
  | nil => simp [Replies]
  | cons e events ih =>
      simp only [List.cons_append, Replies, ih]
      constructor
      · rintro ⟨ha, u, hf, hr⟩
        exact ⟨u, ⟨ha, hf⟩, hr⟩
      · rintro ⟨u, ⟨ha, hf⟩, hr⟩
        exact ⟨ha, u, hf, hr⟩

/-- A recorded run adds the events of one conversation to the recording, with
    the answers the machine gives. -/
theorem exists_conversation (machine : Machine I σ) (p : Program I ε α) (r : Recording I σ) :
    ∃ events, p.Conversation events (p.run machine.recorded r).1 ∧
      machine.Replies r.state events (p.run machine.recorded r).2.state ∧
      (p.run machine.recorded r).2.latest = events.reverse ++ r.latest := by
  -- A recording keeps its latest event in front, so it varies in the induction
  -- and the events come out reversed.
  induction p generalizing r with
  | done outcome => exact ⟨[], .done outcome, rfl, rfl⟩
  | ask operation next ih =>
      rcases ih (machine operation r.state).1
        ⟨(machine operation r.state).2, ⟨operation, (machine operation r.state).1⟩ :: r.latest⟩
        with ⟨events, hp, hm, hl⟩
      refine ⟨⟨operation, (machine operation r.state).1⟩ :: events, .ask _ _ _ _ _ hp,
        ⟨rfl, hm⟩, ?_⟩
      rw [List.reverse_cons, List.append_assoc]
      exact hl

/-- The events of a run and the way it ended are a conversation of the program,
    and the answers among them are those of the machine. -/
theorem conversation_recorded (machine : Machine I σ) (p : Program I ε α) (s : σ) :
    p.Conversation (p.run machine.recorded (.start s)).2.events
        (p.run machine.recorded (.start s)).1 ∧
      machine.Replies s (p.run machine.recorded (.start s)).2.events
        (p.run machine.recorded (.start s)).2.state := by
  rcases machine.exists_conversation p (.start s) with ⟨events, hp, hm, hl⟩
  have hevents : (p.run machine.recorded (.start s)).2.events = events := by
    rw [Recording.events, hl, Recording.start, List.append_nil, List.reverse_reverse]
  rw [hevents]
  exact ⟨hp, hm⟩

end Machine

end BoardSupport
