import BoardSupport.Proofs.Program.Keeps

/-!
# Sessions

Calls one after another, by what they leave behind.

A statement about every moment of a session is one about what its beginning
has left: the machine as some calls leave it is where the next call starts.
What a register holds then is mostly the last thing that was put into it, and
what it held at first if there was none.

## Main definitions

* `latest`: The last value given by some elements of a list.
* `Service.Tells`: What a client is told at some moment.

## Theorems

* `latest_cons`, `latest_concat`: Later values count.
* `Service.leaves_append`, `Service.turns_append`: A session goes on where its
  beginning has ended.
* `Service.turns_call`: What comes of a single call.
* `Service.replies_leaves`: What is left is what was asked for leads to.
-/

namespace BoardSupport

/-- The last value that an element of a list gives, or the initial one if none
    gives any. -/
def latest {ι α : Type} (value? : ι → Option α) (initial : α) (xs : List ι) : α :=
  (xs.filterMap value?).getLast?.getD initial

-- What the first element gives counts for as long as the others give nothing.
theorem latest_cons {ι α : Type} (value? : ι → Option α) (initial : α) (x : ι) (xs : List ι) :
    latest value? initial (x :: xs) = latest value? ((value? x).getD initial) xs := by
  cases hx : value? x with
  | none => rw [latest, latest, List.filterMap_cons_none hx, Option.getD_none]
  | some a =>
      rw [latest, latest, List.filterMap_cons_some hx, List.getLast?_cons, Option.getD_some,
        Option.getD_some]

-- What the last element gives counts, whatever the others have given.
theorem latest_concat {ι α : Type} (value? : ι → Option α) (initial : α) (xs : List ι) (x : ι) :
    latest value? initial (xs ++ [x]) = (value? x).getD (latest value? initial xs) := by
  rw [latest, List.filterMap_append]
  cases hx : value? x with
  | none => rw [List.filterMap_cons_none hx, List.filterMap_nil, List.append_nil, Option.getD_none,
      latest]
  | some a => rw [List.filterMap_cons_some hx, List.filterMap_nil, List.getLast?_concat,
      Option.getD_some, Option.getD_some]

namespace Service

variable {I : Interface} {ι ε ρ σ : Type}

/-- A driver that keeps nothing carries out a call, and its client is told
    this. -/
def Tells (service : Service I Unit ι ε ρ) (machine : Machine I σ) (s : σ) (call : ι)
    (reply : ρ) : Prop :=
  ((service.program () call).run machine s).1 = .ok reply

/-- A session of a driver that keeps nothing goes on where its beginning has
    ended. -/
theorem leaves_append (service : Service I Unit ι ε ρ) (machine : Machine I σ) (s : σ)
    (first rest : List ι) :
    service.leaves machine () s (first ++ rest) =
      service.leaves machine () (service.leaves machine () s first) rest := by
  induction first generalizing s with
  | nil => rfl
  | cons call first ih => exact ih _

/-- What comes of the rest of a session is what comes of it on the machine as the
    beginning leaves it. -/
theorem turns_append (service : Service I Unit ι ε ρ) (machine : Machine I σ) (s : σ)
    (first rest : List ι) :
    service.turns machine () s (first ++ rest) =
      service.turns machine () s first ++
        service.turns machine () (service.leaves machine () s first) rest := by
  induction first generalizing s with
  | nil => rfl
  | cons call first ih =>
      have hstate := (machine.run_recorded (service.program () call) (.start s)).2
      rw [List.cons_append, turns_cons, turns_cons, List.cons_append, ih, hstate]
      rfl

/-- What comes of a single call ends as the call does. -/
theorem turns_call (service : Service I Unit ι ε ρ) (machine : Machine I σ) (s : σ) (call : ι) :
    ∃ asked, service.turns machine () s [call] =
      [⟨call, asked, ((service.program () call).run machine s).1, ()⟩] := by
  have houtcome := (machine.run_recorded (service.program () call) (.start s)).1
  rw [turns_cons, houtcome]
  exact ⟨_, rfl⟩

/-- What calls leave is where their questions and answers lead. -/
theorem replies_leaves {κ : Type} (service : Service I κ ι ε ρ) (machine : Machine I σ)
    (kept : κ) (s : σ) (calls : List ι) :
    machine.Replies s (events (service.turns machine kept s calls))
      (service.leaves machine kept s calls) := by
  induction calls generalizing kept s with
  | nil => rfl
  | cons call rest ih =>
      have hrun := machine.run_recorded (service.program kept call) (.start s)
      have hasked := (machine.conversation_recorded (service.program kept call) s).2
      have hrest := ih (service.after kept ((service.program kept call).run machine s).1)
        ((service.program kept call).run machine s).2
      rw [turns_cons, events_cons, machine.replies_append]
      refine ⟨_, hasked, ?_⟩
      rw [hrun.1, hrun.2]
      exact hrest

end Service

end BoardSupport
