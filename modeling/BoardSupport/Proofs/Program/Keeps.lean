import BoardSupport.Proofs.Program.Conversation
import BoardSupport.Service

/-!
# What a Program Keeps to

Promises that hold whatever the surroundings answer.

A program keeps to a property of events if all of its conversations have it.
Such a promise is made up of the promises of the parts, provided the property
composes: it holds of no events at all, and of two lists in a row if it holds
of both. What is known of the value a part delivers is passed on to the part
that uses it, so the judgement also says what is delivered and what is
reported. A program that keeps to anything never ends by a failed assertion.

There is one rule for each way of combining programs, and one for calls made
one after another.

## Main definitions

* `Outcome.Within`: An end with a value or an error of a known kind.
* `Composes`, `Divides`: Properties of events that pass to lists in a row, and
  from them.
* `Program.Keeps`: What holds of all conversations.

## Theorems

* `Program.keeps_done`, `Program.keeps_ask`: A leaf and one operation.
* `Program.keeps_bind`, `Program.Keeps.split`: Two programs in sequence.
* `Program.keeps_mapError`, `Program.keeps_onError`: Errors in other words, and
  handled on the way out.
* `Program.keeps_poll`, `Program.Keeps.accepted`: A wait, and one that was
  accepted.
* `Program.keeps_forEach`: A loop over a list.
* `Service.forall_turns`, `Service.carried_keeping`, `Service.carried_turns`: From
  one call to all turns.
-/

namespace BoardSupport

/-- A value of one kind or an error of another, and no failed assertion. -/
def Outcome.Within {ε α : Type} (V : α → Prop) (E : ε → Prop) : Outcome ε α → Prop
  | .ok value => V value
  | .error cause => E cause
  | .fault => False

/-- A property that holds of no events, and of two lists of them in a row. -/
structure Composes {I : Interface} (P : List (Event I) → Prop) : Prop where
  nil : P []
  append : ∀ first rest, P first → P rest → P (first ++ rest)

/-- A property that passes from lists of events in a row to both of them. -/
structure Divides {I : Interface} (P : List (Event I) → Prop) : Prop where
  left : ∀ first rest, P (first ++ rest) → P first
  right : ∀ first rest, P (first ++ rest) → P rest

-- What holds event by event composes.
theorem composes_forall {I : Interface} (p : Event I → Prop) :
    Composes fun events => ∀ e ∈ events, p e := by
  refine ⟨fun _ he => absurd he List.not_mem_nil, fun first rest hf hr e he => ?_⟩
  rcases List.mem_append.mp he with he | he
  · exact hf e he
  · exact hr e he

namespace Program

variable {I : Interface} {ε ε' α β : Type} {P : List (Event I) → Prop}
  {V : α → Prop} {W : β → Prop} {E : ε → Prop} {E' : ε' → Prop}

/-- All conversations have the property, deliver such values and report such
    errors. -/
def Keeps (P : List (Event I) → Prop) (V : α → Prop) (E : ε → Prop) (p : Program I ε α) : Prop :=
  ∀ events outcome, p.Conversation events outcome → P events ∧ outcome.Within V E

theorem keeps_done (hP : Composes P) (outcome : Outcome ε α) (h : outcome.Within V E) :
    (done outcome : Program I ε α).Keeps P V E := by
  intro events ended hc
  rcases (conversation_done _ _ _).mp hc with ⟨rfl, rfl⟩
  exact ⟨hP.nil, h⟩

theorem keeps_ask (operation : I.Operation) (V : I.Answer operation → Prop)
    (h : ∀ answer, P [⟨operation, answer⟩] ∧ V answer) :
    (ask operation fun answer => done (.ok answer) : Program I ε (I.Answer operation)).Keeps
      P V E := by
  intro events outcome hc
  rcases (conversation_ask _ _ _ _).mp hc with ⟨answer, rest, rfl, hdone⟩
  rcases (conversation_done _ _ _).mp hdone with ⟨rfl, rfl⟩
  exact h answer

/-- Less may be promised. -/
theorem keeps_mono {V' : α → Prop} {F : ε → Prop} {p : Program I ε α} (h : p.Keeps P V E)
    (hV : ∀ a, V a → V' a) (hE : ∀ e, E e → F e) : p.Keeps P V' F := by
  intro events outcome hc
  refine ⟨(h events outcome hc).1, ?_⟩
  have hw := (h events outcome hc).2
  cases outcome with
  | ok a => exact hV a hw
  | error e => exact hE e hw
  | fault => exact hw

/-- The second program may count on what the first delivers. -/
theorem keeps_bind (hP : Composes P) {p : Program I ε α} {f : α → Program I ε β}
    (hp : p.Keeps P V E) (hf : ∀ a, V a → (f a).Keeps P W E) : (p.bind f).Keeps P W E := by
  intro events outcome hc
  rcases (conversation_bind _ _ _ _).mp hc with ⟨first, rest, ended, rfl, hfirst, hrest⟩
  rcases hp first ended hfirst with ⟨hP₁, hw⟩
  cases ended with
  | ok a =>
      rcases hf a hw rest outcome hrest with ⟨hP₂, hw₂⟩
      exact ⟨hP.append _ _ hP₁ hP₂, hw₂⟩
  | error e =>
      rcases (conversation_done _ _ _).mp hrest with ⟨rfl, rfl⟩
      rw [List.append_nil]
      exact ⟨hP₁, hw⟩
  | fault => exact hw.elim

/-- What goes before the delivery of a second program is a conversation of the
    first, and keeps to what that keeps to. -/
theorem Keeps.split {p : Program I ε α} {f : α → Program I ε β} (hp : p.Keeps P V E)
    {events : List (Event I)} {b : β} (h : (p.bind f).Conversation events (.ok b)) :
    ∃ first rest a, events = first ++ rest ∧ P first ∧ V a ∧
      (f a).Conversation rest (.ok b) := by
  rcases conversation_bind_ok _ _ _ _ h with ⟨first, rest, a, rfl, hfirst, hrest⟩
  exact ⟨first, rest, a, rfl, (hp first _ hfirst).1, (hp first _ hfirst).2, hrest⟩

theorem keeps_mapError {p : Program I ε α} (f : ε → ε') (hp : p.Keeps P V E)
    (h : ∀ e, E e → E' (f e)) : (p.mapError f).Keeps P V E' := by
  intro events outcome hc
  rcases (conversation_mapError _ _ _ _).mp hc with ⟨ended, hended, hlast⟩
  rcases hp events ended hended with ⟨hP, hw⟩
  refine ⟨hP, ?_⟩
  cases ended with
  | ok a => exact ((conversation_done _ _ _).mp hlast).2 ▸ hw
  | error e => exact ((conversation_done _ _ _).mp hlast).2 ▸ h e hw
  | fault => exact hw.elim

/-- A handler that comes to an end lets the error pass. -/
theorem keeps_onError (hP : Composes P) {p : Program I ε α} (handler : ε → Program I ε Unit)
    (hp : p.Keeps P V E) (hh : ∀ e, E e → (handler e).Keeps P (fun _ => True) E) :
    (p.onError handler).Keeps P V E := by
  intro events outcome hc
  rcases (conversation_onError _ _ _ _).mp hc with ⟨first, rest, ended, rfl, hfirst, hrest⟩
  rcases hp first ended hfirst with ⟨hP₁, hw⟩
  cases ended with
  | ok a =>
      rcases (conversation_done _ _ _).mp hrest with ⟨rfl, rfl⟩
      rw [List.append_nil]
      exact ⟨hP₁, hw⟩
  | error e =>
      have hlast := keeps_bind hP (W := V) (hh e hw) fun _ _ => keeps_done hP (.error e) hw
      rcases hlast rest outcome hrest with ⟨hP₂, hw₂⟩
      exact ⟨hP.append _ _ hP₁ hP₂, hw₂⟩
  | fault => exact hw.elim

theorem keeps_ofExcept (hP : Composes P) (result : Except ε α) (hV : ∀ a, result = .ok a → V a)
    (hE : ∀ e, result = .error e → E e) : (ofExcept result : Program I ε α).Keeps P V E := by
  cases result with
  | ok a => exact keeps_done hP (.ok a) (hV a rfl)
  | error e => exact keeps_done hP (.error e) (hE e rfl)

-- The value of a partial function is there if it is known to be.
theorem keeps_expect (hP : Composes P) (value : Option α) (a : α) (h : value = some a) :
    (expect value : Program I ε α).Keeps P (· = a) E := by
  subst h
  exact keeps_done hP (.ok a) rfl

/-- Every question of a wait is asked alike; what is accepted is an answer. -/
theorem keeps_poll (hP : Composes P) {p : Program I ε α} (tries : Nat) (accept : α → Bool)
    (hp : p.Keeps P V E) :
    (poll tries p accept).Keeps P (fun answer => ∀ a, answer = some a → V a ∧ accept a = true)
      E := by
  induction tries with
  | zero => exact keeps_done hP (.ok none) fun a ha => by cases ha
  | succ tries ih =>
      refine keeps_bind hP hp fun a ha => ?_
      by_cases haccept : accept a = true
      · rw [if_pos haccept]
        refine keeps_done hP (.ok (some a)) fun b hb => ?_
        cases hb
        exact ⟨ha, haccept⟩
      · rw [if_neg haccept]
        exact ih

/-- A wait that was accepted ends with the question that was, and what it asked
    before is like all its questions. -/
theorem Keeps.accepted (hP : Composes P) {p : Program I ε α} (hp : p.Keeps P V E) (tries : Nat)
    (accept : α → Bool) {events : List (Event I)} {a : α}
    (h : (poll tries p accept).Conversation events (.ok (some a))) :
    ∃ first rest, events = first ++ rest ∧ P first ∧ p.Conversation rest (.ok a) ∧
      accept a = true := by
  induction tries generalizing events with
  | zero => cases ((conversation_done _ _ _).mp h).2
  | succ tries ih =>
      rcases conversation_bind_ok _ _ _ _ h with ⟨asked, later, b, rfl, hasked, hlater⟩
      by_cases hb : accept b = true
      · rw [if_pos hb] at hlater
        rcases (conversation_done _ _ _).mp hlater with ⟨rfl, hab⟩
        cases hab
        exact ⟨[], asked, List.append_nil _, hP.nil, hasked, hb⟩
      · rw [if_neg hb] at hlater
        rcases ih hlater with ⟨first, rest, rfl, hfirst, hrest⟩
        exact ⟨asked ++ first, rest, (List.append_assoc _ _ _).symm,
          hP.append _ _ (hp _ _ hasked).1 hfirst, hrest⟩

theorem keeps_forEach (hP : Composes P) (f : β → Program I ε Unit) (bs : List β)
    (h : ∀ b ∈ bs, (f b).Keeps P (fun _ => True) E) :
    (forEach f bs).Keeps P (fun _ => True) E := by
  induction bs with
  | nil => exact keeps_done hP (.ok ()) trivial
  | cons b rest ih =>
      exact keeps_bind hP (h b List.mem_cons_self) fun _ _ =>
        ih fun b' hb' => h b' (List.mem_cons_of_mem b hb')

end Program

namespace Service

variable {I : Interface} {κ ι ε ρ σ : Type}

theorem turns_cons (service : Service I κ ι ε ρ) (machine : Machine I σ) (kept : κ) (s : σ)
    (call : ι) (rest : List ι) :
    service.turns machine kept s (call :: rest) =
      ⟨call, ((service.program kept call).run machine.recorded (.start s)).2.events,
        ((service.program kept call).run machine.recorded (.start s)).1,
        service.after kept ((service.program kept call).run machine.recorded (.start s)).1⟩ ::
      service.turns machine
        (service.after kept ((service.program kept call).run machine.recorded (.start s)).1)
        ((service.program kept call).run machine.recorded (.start s)).2.state rest := rfl

theorem events_cons (t : Turn I κ ι ε ρ) (rest : List (Turn I κ ι ε ρ)) :
    events (t :: rest) = t.asked ++ events rest :=
  List.flatMap_cons

/-- What one call preserves of what is kept, and what is true of it then, holds
    of every turn. -/
theorem forall_turns (service : Service I κ ι ε ρ) (K : κ → Prop) (T : Turn I κ ι ε ρ → Prop)
    (h : ∀ kept call events outcome, K kept →
      (service.program kept call).Conversation events outcome →
        K (service.after kept outcome) ∧
          T ⟨call, events, outcome, service.after kept outcome⟩)
    (machine : Machine I σ) (kept : κ) (s : σ) (calls : List ι) (hkept : K kept) :
    ∀ t ∈ service.turns machine kept s calls, T t := by
  -- Each call leaves the machine and what is kept to the next, so both vary.
  induction calls generalizing kept s with
  | nil => exact fun t ht => absurd ht List.not_mem_nil
  | cons call rest ih =>
      have hc := (machine.conversation_recorded (service.program kept call) s).1
      rcases h kept call _ _ hkept hc with ⟨hK, hT⟩
      intro t ht
      rcases List.mem_cons.mp ht with rfl | ht
      · exact hT
      · exact ih _ _ hK t ht

/-- The answers among everything asked for are those of the machine. -/
theorem replies_turns (service : Service I κ ι ε ρ) (machine : Machine I σ) (kept : κ) (s : σ)
    (calls : List ι) : ∃ u, machine.Replies s (events (service.turns machine kept s calls)) u := by
  induction calls generalizing kept s with
  | nil => exact ⟨s, rfl⟩
  | cons call rest ih =>
      have hr := (machine.conversation_recorded (service.program kept call) s).2
      rcases ih _ _ with ⟨u, hu⟩
      exact ⟨u, (machine.replies_append _ _ s u).mpr ⟨_, hr, hu⟩⟩

/-- What composes and holds of every turn holds of all that was asked for. -/
theorem holds_events {P : List (Event I) → Prop} (hP : Composes P)
    (ts : List (Turn I κ ι ε ρ)) (h : ∀ t ∈ ts, P t.asked) : P (events ts) := by
  induction ts with
  | nil => exact hP.nil
  | cons t rest ih =>
      rw [events_cons]
      exact hP.append _ _ (h t List.mem_cons_self)
        (ih fun t' ht' => h t' (List.mem_cons_of_mem t ht'))

/-- If a condition on a run passes to its parts, and each call is carried out
    where it holds and leaves something of the same kind kept, then so are calls in
    a row. What being carried out comes to is put together call by call. -/
theorem carried_keeping (service : Service I κ ι ε ρ) (K : κ → Prop)
    (Ends : List (Event I) → Prop) (T : Turn I κ ι ε ρ → Prop)
    (Carries : List ι → List (Event I) → Prop) (hdivides : Divides Ends) (hnil : Carries [] [])
    (hcall : ∀ kept call asked outcome, K kept →
      (service.program kept call).Conversation asked outcome → Ends asked →
        K (service.after kept outcome) ∧ T ⟨call, asked, outcome, service.after kept outcome⟩ ∧
          ∀ calls rest, Carries calls rest → Carries (call :: calls) (asked ++ rest))
    (machine : Machine I σ) (kept : κ) (s : σ) (calls : List ι) (hkept : K kept)
    (hends : Ends (events (service.turns machine kept s calls))) :
    (∀ t ∈ service.turns machine kept s calls, T t) ∧
      Carries calls (events (service.turns machine kept s calls)) := by
  induction calls generalizing kept s with
  | nil => exact ⟨fun t ht => absurd ht List.not_mem_nil, hnil⟩
  | cons call rest ih =>
      rw [turns_cons, events_cons] at hends
      have hasked := (machine.conversation_recorded (service.program kept call) s).1
      rcases hcall kept call _ _ hkept hasked (hdivides.left _ _ hends)
        with ⟨hkept, hturn, hcarries⟩
      rcases ih _ _ hkept (hdivides.right _ _ hends) with ⟨hturns, hrest⟩
      rw [turns_cons, events_cons]
      exact ⟨List.forall_mem_cons.mpr ⟨hturn, hturns⟩, hcarries _ _ hrest⟩

/-- The same for a driver that keeps nothing, each of whose calls delivers. -/
theorem carried_turns (service : Service I Unit ι ε Unit) (Ends : List (Event I) → Prop)
    (Carries : List ι → List (Event I) → Prop)
    (hdivides : Divides Ends) (hnil : Carries [] [])
    (hcall : ∀ call asked outcome, (service.program () call).Conversation asked outcome →
      Ends asked → outcome = .ok () ∧
        ∀ calls rest, Carries calls rest → Carries (call :: calls) (asked ++ rest))
    (machine : Machine I σ) (s : σ) (calls : List ι)
    (hends : Ends (events (service.turns machine () s calls))) :
    (∀ t ∈ service.turns machine () s calls, t.outcome = .ok ()) ∧
      Carries calls (events (service.turns machine () s calls)) :=
  service.carried_keeping (fun _ => True) Ends (fun t => t.outcome = .ok ()) Carries hdivides hnil
    (fun _ call asked outcome _ hasked hwaits => ⟨trivial, hcall call asked outcome hasked hwaits⟩)
    machine () s calls trivial hends

end Service

end BoardSupport
