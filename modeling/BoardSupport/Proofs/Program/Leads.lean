import BoardSupport.Program

/-!
# Where a Program Leads

How a program ends on one machine, stated by what is known of the machine
rather than by its whole state.

A relation says which states show which view. A program leads from a view with
some end to another view if, from every state that shows the first, the run
ends that way in a state that shows the second. Views are values, so a driver
is followed by giving the view after each of its operations, and what a view
leaves out of the state is never mentioned.

There is one rule for each way of combining programs. The rules for `bind` and
its relatives are split by how the first part ends, since that is known at
every place they are used.

## Main definitions

* `Program.Leads`: How a program ends, from view to view.

## Theorems

* `Program.leads_bind`, `Program.leads_bind_error`: Two programs in sequence.
* `Program.leads_mapError_ok`, `Program.leads_mapError_error`: Errors in other
  words.
* `Program.leads_onError_ok`, `Program.leads_onError_error`: Errors handled on
  the way out.
* `Program.leads_poll`, `Program.leads_poll_refused`: A wait whose first answer
  is accepted, and one whose every answer is refused.
-/

namespace BoardSupport

namespace Program

variable {I : Interface} {ε ε' α β σ ν : Type}

/-- From every state that shows one view, the program ends as given in a state
    that shows the other. -/
def Leads (machine : Machine I σ) (Shows : σ → ν → Prop) (p : Program I ε α) (v : ν)
    (outcome : Outcome ε α) (v' : ν) : Prop :=
  ∀ s, Shows s v → ∃ t, p.run machine s = (outcome, t) ∧ Shows t v'

-- A run that delivers goes on with the value.
theorem run_bind_ok {machine : Machine I σ} {p : Program I ε α} {s t : σ} {a : α}
    (h : p.run machine s = (.ok a, t)) (f : α → Program I ε β) :
    (p.bind f).run machine s = (f a).run machine t := by
  rw [run_bind, h]

-- A run carried out under another name for its errors, or with a handler on the
-- way out, is the run itself up to its end.
theorem run_mapError (machine : Machine I σ) (f : ε → ε') (p : Program I ε α) (s : σ) :
    (p.mapError f).run machine s =
      match p.run machine s with
      | (.ok value, s) => (.ok value, s)
      | (.error cause, s) => (.error (f cause), s)
      | (.fault, s) => (.fault, s) := by
  induction p generalizing s with
  | done outcome => cases outcome <;> rfl
  | ask operation next ih => exact ih _ _

theorem run_onError (machine : Machine I σ) (handler : ε → Program I ε Unit)
    (p : Program I ε α) (s : σ) :
    (p.onError handler).run machine s =
      match p.run machine s with
      | (.ok value, s) => (.ok value, s)
      | (.error cause, s) =>
        ((handler cause).bind fun _ => (.done (.error cause) : Program I ε α)).run machine s
      | (.fault, s) => (.fault, s) := by
  induction p generalizing s with
  | done outcome => cases outcome <;> rfl
  | ask operation next ih => exact ih _ _

section Rules

variable {machine : Machine I σ} {Shows : σ → ν → Prop} {p : Program I ε α} {v v' v'' : ν}

theorem leads_done (outcome : Outcome ε α) (h : v = v') :
    (Program.done outcome : Program I ε α).Leads machine Shows v outcome v' :=
  fun s hs => ⟨s, rfl, h ▸ hs⟩

theorem leads_bind {f : α → Program I ε β} {a : α} {outcome : Outcome ε β}
    (hp : p.Leads machine Shows v (.ok a) v') (hf : (f a).Leads machine Shows v' outcome v'') :
    (p.bind f).Leads machine Shows v outcome v'' := by
  intro s hs
  rcases hp s hs with ⟨t, hrun, ht⟩
  rw [run_bind_ok hrun]
  exact hf t ht

theorem leads_bind_error {f : α → Program I ε β} {cause : ε}
    (hp : p.Leads machine Shows v (.error cause) v') :
    (p.bind f).Leads machine Shows v (.error cause) v' := by
  intro s hs
  rcases hp s hs with ⟨t, hrun, ht⟩
  rw [run_bind, hrun]
  exact ⟨t, rfl, ht⟩

theorem leads_mapError_ok {f : ε → ε'} {a : α} (hp : p.Leads machine Shows v (.ok a) v') :
    (p.mapError f).Leads machine Shows v (.ok a) v' := by
  intro s hs
  rcases hp s hs with ⟨t, hrun, ht⟩
  rw [run_mapError, hrun]
  exact ⟨t, rfl, ht⟩

theorem leads_mapError_error (f : ε → ε') {cause : ε}
    (hp : p.Leads machine Shows v (.error cause) v') :
    (p.mapError f).Leads machine Shows v (.error (f cause)) v' := by
  intro s hs
  rcases hp s hs with ⟨t, hrun, ht⟩
  rw [run_mapError, hrun]
  exact ⟨t, rfl, ht⟩

theorem leads_onError_ok {handler : ε → Program I ε Unit} {a : α}
    (hp : p.Leads machine Shows v (.ok a) v') :
    (p.onError handler).Leads machine Shows v (.ok a) v' := by
  intro s hs
  rcases hp s hs with ⟨t, hrun, ht⟩
  rw [run_onError, hrun]
  exact ⟨t, rfl, ht⟩

theorem leads_onError_error {handler : ε → Program I ε Unit} {cause : ε}
    (hp : p.Leads machine Shows v (.error cause) v')
    (hh : (handler cause).Leads machine Shows v' (.ok ()) v'') :
    (p.onError handler).Leads machine Shows v (.error cause) v'' := by
  intro s hs
  rcases hp s hs with ⟨t, hrun, ht⟩
  rw [run_onError, hrun]
  exact leads_bind hh (leads_done _ rfl) t ht

/-- A wait that is accepted at once takes one question, however many it would
    be prepared to ask. -/
theorem leads_poll {tries : Nat} {accept : α → Bool} {a : α} (htries : 0 < tries)
    (hp : p.Leads machine Shows v (.ok a) v') (ha : accept a = true) :
    (poll tries p accept).Leads machine Shows v (.ok (some a)) v' := by
  cases tries with
  | zero => exact absurd htries (Nat.lt_irrefl 0)
  | succ n =>
      refine leads_bind hp ?_
      rw [if_pos ha]
      exact leads_done _ rfl

/-- A wait whose every answer is refused asks as often as it is prepared to, and
    then gives up. -/
theorem leads_poll_refused {accept : α → Bool} {a : α} (tries : Nat)
    (hp : p.Leads machine Shows v (.ok a) v) (ha : accept a = false) :
    (poll tries p accept).Leads machine Shows v (.ok none) v := by
  induction tries with
  | zero => exact leads_done _ rfl
  | succ tries ih =>
      refine leads_bind hp ?_
      rw [if_neg (by rw [ha]; exact Bool.false_ne_true)]
      exact ih

end Rules

end Program

end BoardSupport
