import BoardSupport.Proofs.Program.Conversation

/-!
# Programs Carried Out in Terms of Other Operations

What a program goes through if each operation it asks for is replaced by a
program.

As long as every operation is carried out, the program goes through one of its
own conversations, and what was done for its operations are conversations of
their programs in a row. But carrying out an operation can also fail, and then
the whole ends there. What the program has asked for up to that point is the
beginning of a conversation of its own, in which the operation and all that
would have followed are answered in any way one likes. So whatever holds of
all conversations and all their beginnings holds of a program that was
stopped.

## Main definitions

* `Outcome.Stops`: The end of a program that was stopped by a part of it.
* `Program.CarriesOut`: Operations carried out one after another.
* `Program.Interprets`: What a program goes through that is carried out.

## Theorems

* `Program.exists_conversation_answered`: A program can be answered in any way.
* `Program.conversation_interpret`: It is carried out to the end or stopped.
* `Program.view_carriesOut`: From what is seen of one operation to all.
-/

namespace BoardSupport

/-- A part ended without delivering anything, and the whole ends the same
    way. -/
inductive Outcome.Stops {ε α β : Type} : Outcome ε α → Outcome ε β → Prop where
  | error (cause : ε) : Stops (.error cause) (.error cause)
  | fault : Stops .fault .fault

namespace Program

variable {I J : Interface} {ε α : Type}
  (carryOut : (operation : I.Operation) → Program J ε (I.Answer operation))

/-- Operations were carried out one after another, each with the answer it
    has. -/
inductive CarriesOut : List (Event I) → List (Event J) → Prop where
  | nil : CarriesOut [] []
  | cons (e : Event I) (part rest : List (Event J)) (asked : List (Event I))
      (first : (carryOut e.operation).Conversation part (.ok e.answer))
      (later : CarriesOut asked rest) : CarriesOut (e :: asked) (part ++ rest)

/-- What a program goes through that is carried out. If it is stopped, then
    amid a conversation whose remaining answers are given by `answers`. -/
inductive Interprets (answers : (operation : I.Operation) → I.Answer operation)
    (p : Program I ε α) : List (Event J) → Outcome ε α → Prop where
  | ended (asked : List (Event I)) (events : List (Event J)) (outcome : Outcome ε α)
      (own : p.Conversation asked outcome) (carried : CarriesOut carryOut asked events) :
      Interprets answers p events outcome
  | stopped (asked remaining : List (Event I)) (ended outcome : Outcome ε α)
      (done part : List (Event J)) (operation : I.Operation)
      (failed : Outcome ε (I.Answer operation)) (own : p.Conversation (asked ++ remaining) ended)
      (answered : ∀ e ∈ remaining, e.answer = answers e.operation)
      (carried : CarriesOut carryOut asked done)
      (failing : (carryOut operation).Conversation part failed) (stops : failed.Stops outcome) :
      Interprets answers p (done ++ part) outcome

/-- A program goes through some conversation, whatever it is answered. -/
theorem exists_conversation_answered (answers : (operation : I.Operation) → I.Answer operation)
    (p : Program I ε α) :
    ∃ events outcome, p.Conversation events outcome ∧
      ∀ e ∈ events, e.answer = answers e.operation := by
  induction p with
  | done outcome => exact ⟨[], outcome, .done outcome, fun _ he => absurd he List.not_mem_nil⟩
  | ask operation next ih =>
      rcases ih (answers operation) with ⟨events, outcome, h, hanswers⟩
      exact ⟨⟨operation, answers operation⟩ :: events, outcome, .ask _ _ _ _ _ h,
        List.forall_mem_cons.mpr ⟨rfl, hanswers⟩⟩

/-- A program is carried out to the end, or it is stopped by one of the
    operations. -/
theorem conversation_interpret (answers : (operation : I.Operation) → I.Answer operation)
    (p : Program I ε α) (events : List (Event J)) (outcome : Outcome ε α)
    (h : (p.interpret carryOut).Conversation events outcome) :
    Interprets carryOut answers p events outcome := by
  -- Induction on the tree of the program. An operation that was carried out is put
  -- in front of what followed.
  induction p generalizing events with
  | done ended =>
      rcases (conversation_done _ _ _).mp h with ⟨rfl, rfl⟩
      exact .ended [] [] outcome (.done outcome) .nil
  | ask operation next ih =>
      rcases (conversation_bind _ _ _ _).mp h with ⟨part, rest, first, rfl, hfirst, hrest⟩
      cases first with
      | ok answer =>
          cases ih answer rest hrest with
          | ended asked _ _ own carried =>
              exact .ended (⟨operation, answer⟩ :: asked) _ outcome (.ask _ _ _ _ _ own)
                (.cons ⟨operation, answer⟩ part rest asked hfirst carried)
          | stopped asked remaining ended _ done part' operation' failed own answered carried
              failing stops =>
              rw [← List.append_assoc]
              exact .stopped (⟨operation, answer⟩ :: asked) remaining ended outcome _ part'
                operation' failed (.ask _ _ _ _ _ own) answered
                (.cons ⟨operation, answer⟩ part done asked hfirst carried) failing stops
      | error cause =>
          rcases (conversation_done _ _ _).mp hrest with ⟨rfl, rfl⟩
          rcases exists_conversation_answered answers (.ask operation next)
            with ⟨remaining, ended, own, answered⟩
          rw [List.append_nil]
          exact .stopped [] remaining ended _ [] part operation _ own answered .nil hfirst
            (.error cause)
      | fault =>
          rcases (conversation_done _ _ _).mp hrest with ⟨rfl, rfl⟩
          rcases exists_conversation_answered answers (.ask operation next)
            with ⟨remaining, ended, own, answered⟩
          rw [List.append_nil]
          exact .stopped [] remaining ended _ [] part operation _ own answered .nil hfirst .fault

/-- What is seen of operations carried out one after another is what is seen of
    each of them, in order. -/
theorem view_carriesOut {γ : Type} (view : List (Event J) → List γ) (hnil : view [] = [])
    (happend : ∀ first rest, view (first ++ rest) = view first ++ view rest)
    (seen : Event I → List γ)
    (hseen : ∀ (e : Event I) part, (carryOut e.operation).Conversation part (.ok e.answer) →
      view part = seen e)
    (asked : List (Event I)) (events : List (Event J)) (h : CarriesOut carryOut asked events) :
    view events = asked.flatMap seen := by
  induction h with
  | nil => exact hnil
  | cons e part rest asked first later ih =>
      rw [happend, List.flatMap_cons, ih, hseen e part first]

end Program

end BoardSupport
