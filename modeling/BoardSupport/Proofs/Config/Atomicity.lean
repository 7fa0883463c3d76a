import BoardSupport.Proofs.Config.Operations

/-!
# Failure Atomicity

What a call promises whatever the variables answer.

The variables are an arbitrary machine here. They may refuse any read or
write, deliver any bytes and claim any length, a length beyond the buffer
included. Against all of that a call ends without a fault, and the current
configuration is the one it delivered or, if it delivered none, the one before.

How much a call may write depends on the call. A save writes its argument,
once. A routed change is written once or not at all, and if it was written and
the call failed, then it was the write that failed. Loading writes only to
create: with every CPU enabled, once, and exactly if the first read delivered
nothing. Contents that are no image are therefore never overwritten.

## Main definitions

* `Config.IsImage`: The contents that are the image of a configuration.
* `Config.Turn.Settles`: How a call ends and what becomes current.
* `Config.Loads`, `Config.Saves`, `Config.Routes`: What each call promises.

## Theorems

* `Config.decode_malformed`: Contents that are no image are reported.
* `Config.Session.call_atomic`: Every call keeps its promises, on any machine.
-/

namespace BoardSupport

namespace Config

/-- Eight bytes, one for each CPU, and each of them a Boolean. -/
def IsImage (content : Variables.Content maxCpus) : Prop :=
  content.length = 8 ∧ ∀ b ∈ content.buffer.toList, IsBoolean b

theorem isImage_of_decode (content : Variables.Content maxCpus) (config : CpuSet)
    (h : decode content = .ok config) : IsImage content := by
  rcases (decode_eq_ok_iff content config).mp h with ⟨hlen, hbytes⟩
  refine ⟨hlen, fun b hb => ?_⟩
  rw [hbytes] at hb
  exact config.isBoolean_of_mem_toBytes b hb

theorem decode_of_isImage (content : Variables.Content maxCpus) (h : IsImage content) :
    ∃ config, decode content = .ok config := by
  rcases CpuSet.exists_toBytes content.buffer.toList Vector.length_toList h.2 with ⟨config, hbytes⟩
  exact ⟨config, (decode_eq_ok_iff content config).mpr ⟨h.1, hbytes.symm⟩⟩

theorem decode_malformed (content : Variables.Content maxCpus) (h : ¬ IsImage content) :
    ∃ cause, decode content = .error cause := by
  cases hd : decode content with
  | error cause => exact ⟨cause, rfl⟩
  | ok config => exact absurd (isImage_of_decode content config hd) h

namespace Turn

/-- The last read of the turn delivered the image of this configuration. -/
def Loaded (t : Turn) (config : CpuSet) : Prop :=
  ∃ content : Variables.Content maxCpus,
    t.reads.getLast? = some (readEvent (.ok (some content))) ∧
      content.length = 8 ∧ content.buffer.toList = config.toBytes

/-- The turn wrote this configuration, once and successfully. -/
def Wrote (t : Turn) (config : CpuSet) : Prop :=
  t.writes = [writeEvent config (.ok ())]

/-- A call ends without a fault. A delivered configuration is the current one
    from then on and came about as described; if none was delivered, the store
    is as it was. -/
structure Settles (t : Turn) (before after : Store) (Delivers : CpuSet → Prop) : Prop where
  ends : (∃ config, t.reply = .config (.ok config)) ∨ ∃ cause, t.reply = .config (.error cause)
  kept : ∀ cause, t.reply = .config (.error cause) → after = before
  current : ∀ config, t.reply = .config (.ok config) → after.current = config ∧ Delivers config

theorem settles_ok (events : List (Event Variables.interface)) (config : CpuSet) (s : Store)
    (Delivers : CpuSet → Prop) (h : Delivers config) :
    Settles ⟨events, .config (.ok config)⟩ s (s.after (.ok config)) Delivers := by
  refine ⟨Or.inl ⟨config, rfl⟩, ?_, ?_⟩
  · intro cause hreply
    cases hreply
  · intro config' hreply
    cases hreply
    exact ⟨rfl, h⟩

theorem settles_error (events : List (Event Variables.interface)) (cause : Error) (s : Store)
    (Delivers : CpuSet → Prop) :
    Settles ⟨events, .config (.error cause)⟩ s (s.after (.error cause)) Delivers := by
  refine ⟨Or.inr ⟨cause, rfl⟩, fun _ _ => rfl, ?_⟩
  intro config hreply
  cases hreply

end Turn

/-- Loading, when the first read is answered like this. -/
structure Loads (first : Except Variables.Error (Option (Variables.Content maxCpus)))
    (t : Turn) (before after : Store) : Prop where
  settles : t.Settles before after t.Loaded
  reads : t.asked.head? = some (readEvent first)
  preserves : ∀ content, first = .ok (some content) → t.writes = []
  creates : (∀ content, first ≠ .ok (some content)) →
    ∃ written, t.writes = [writeEvent CpuSet.allEnabled written]
  reports : ∀ content, first = .ok (some content) → ¬ IsImage content →
    (∃ expected actual, t.reply = .config (.error (.invalidLength expected actual))) ∨
      ∃ index value, t.reply = .config (.error (.invalidBoolean index value))

/-- Saving a configuration. -/
structure Saves (config : CpuSet) (t : Turn) (before after : Store) : Prop where
  settles : t.Settles before after fun delivered => delivered = config ∧ t.Wrote config
  writes : ∃ written, t.writes = [writeEvent config written]

/-- Routing a change, when a read is answered like this. -/
structure Routes (first : Except Variables.Error (Option (Variables.Content maxCpus)))
    (t : Turn) (before after : Store) : Prop where
  settles : t.Settles before after t.Wrote
  once : t.writes.length ≤ 1
  failed : ∀ cause, t.reply = .config (.error cause) →
    t.writes = [] ∨ ∃ config refusal, t.writes = [writeEvent config (.error refusal)]
  reports : ∀ content, first = .ok (some content) → ¬ IsImage content →
    t.writes = [] ∧ ∃ cause, t.reply = .config (.error cause)

theorem saves_of_saving (config : CpuSet) (events : List (Event Variables.interface))
    (outcome : Outcome Error CpuSet) (s : Store) (h : Saving config events outcome) :
    Saves config ⟨events, .config outcome⟩ s (s.after outcome) := by
  cases h with
  | refused cause => exact ⟨Turn.settles_error _ _ _ _, _, rfl⟩
  | stored level message => exact ⟨Turn.settles_ok _ _ _ _ ⟨rfl, rfl⟩, _, rfl⟩

-- Creating the variable is the part of loading that writes.
theorem loads_of_creating (answer : Except Variables.Error (Option (Variables.Content maxCpus)))
    (hanswer : ∀ content, answer ≠ .ok (some content)) (level : Log.Level) (message : String)
    (events : List (Event Variables.interface)) (outcome : Outcome Error CpuSet) (s : Store)
    (h : Creating events outcome) :
    Loads answer ⟨readEvent answer :: sayEvent level message :: events, .config outcome⟩ s
      (s.after outcome) := by
  -- Nothing was delivered, so the promises about a delivered content are empty.
  have hpreserves : ∀ content, answer = .ok (some content) → False :=
    fun content hc => hanswer content hc
  cases h with
  | refused cause =>
      exact ⟨Turn.settles_error _ _ _ _, rfl, fun c hc => (hpreserves c hc).elim,
        fun _ => ⟨_, rfl⟩, fun c hc => (hpreserves c hc).elim⟩
  | unread again cause _ _ =>
      exact ⟨Turn.settles_error _ _ _ _, rfl, fun c hc => (hpreserves c hc).elim,
        fun _ => ⟨_, rfl⟩, fun c hc => (hpreserves c hc).elim⟩
  | readBack again config hread =>
      rcases (reading_eq_some_iff again config).mp hread with ⟨content, rfl, hd⟩
      have hloaded := (decode_eq_ok_iff content config).mp hd
      exact ⟨Turn.settles_ok _ _ _ _ ⟨content, rfl, hloaded⟩, rfl,
        fun c hc => (hpreserves c hc).elim, fun _ => ⟨_, rfl⟩,
        fun c hc => (hpreserves c hc).elim⟩

theorem loads_of_loading (first : Except Variables.Error (Option (Variables.Content maxCpus)))
    (events : List (Event Variables.interface)) (outcome : Outcome Error CpuSet) (s : Store)
    (h : Loading events outcome)
    (hfirst : ∀ answer rest, events = readEvent answer :: rest → answer = first) :
    Loads first ⟨events, .config outcome⟩ s (s.after outcome) := by
  cases h with
  | found answer config hread level message =>
      rcases hfirst answer _ rfl with rfl
      rcases (reading_eq_some_iff answer config).mp hread with ⟨content, rfl, hd⟩
      have hloaded := (decode_eq_ok_iff content config).mp hd
      refine ⟨Turn.settles_ok _ _ _ _ ⟨content, rfl, hloaded⟩, rfl, fun _ _ => rfl, ?_, ?_⟩
      · intro hnone
        exact absurd rfl (hnone content)
      · -- What was read is an image, or it would not have been read.
        intro content' hcontent hbad
        cases hcontent
        rcases decode_malformed content hbad with ⟨cause, hd'⟩
        rw [hd] at hd'
        cases hd'
  | malformed content cause hd level message =>
      rcases hfirst _ _ rfl with rfl
      refine ⟨Turn.settles_error _ _ _ _, rfl, fun _ _ => rfl, ?_, ?_⟩
      · intro hnone
        exact absurd rfl (hnone content)
      · intro _ _ _
        rcases decode_eq_error content cause hd with ⟨expected, actual, rfl⟩ | ⟨index, value, rfl⟩
        · exact Or.inl ⟨expected, actual, rfl⟩
        · exact Or.inr ⟨index, value, rfl⟩
  | created answer hanswer level message rest _ hcreating =>
      rcases hfirst answer _ rfl with rfl
      exact loads_of_creating answer hanswer level message rest outcome s hcreating

theorem routes_of_routing (first : Except Variables.Error (Option (Variables.Content maxCpus)))
    (request : String) (data : List UInt8) (events : List (Event Variables.interface))
    (outcome : Outcome Error CpuSet) (s : Store) (h : Routing request data events outcome)
    (hfirst : ∀ answer rest, events = readEvent answer :: rest → answer = first) :
    Routes first ⟨events, .config outcome⟩ s (s.after outcome) := by
  cases h with
  | refused cause _ =>
      exact ⟨Turn.settles_error _ _ _ _, Nat.zero_le 1, fun _ _ => Or.inl rfl,
        fun _ _ _ => ⟨rfl, cause, rfl⟩⟩
  | unread answer cause _ =>
      exact ⟨Turn.settles_error _ _ _ _, Nat.zero_le 1, fun _ _ => Or.inl rfl,
        fun _ _ _ => ⟨rfl, cause, rfl⟩⟩
  | rejected answer block stored cause _ _ _ =>
      exact ⟨Turn.settles_error _ _ _ _, Nat.zero_le 1, fun _ _ => Or.inl rfl,
        fun _ _ _ => ⟨rfl, cause, rfl⟩⟩
  | changed answer block stored config hread _ _ _ rest _ hsaving =>
      rcases hfirst answer _ rfl with rfl
      -- A change is made to something that was read, so that was an image.
      have hsound : ∀ content, answer = .ok (some content) → ¬ IsImage content → False := by
        intro content hcontent hbad
        subst hcontent
        rcases decode_malformed content hbad with ⟨cause, hd⟩
        simp [reading, hd, Except.map] at hread
      cases hsaving with
      | refused cause =>
          exact ⟨Turn.settles_error _ _ _ _, Nat.le_refl 1, fun _ _ => Or.inr ⟨_, _, rfl⟩,
            fun c hc hbad => (hsound c hc hbad).elim⟩
      | stored level message =>
          refine ⟨Turn.settles_ok _ _ _ _ rfl, Nat.le_refl 1, ?_,
            fun c hc hbad => (hsound c hc hbad).elim⟩
          intro cause hreply
          cases hreply

namespace Session

variable {σ : Type}

/-- Whatever the variables answer and whatever came before, loading, saving
    and routing keep their promises. -/
theorem call_atomic (machine : Machine Variables.interface σ) (s : Session σ) :
    Loads (machine (.read variableId maxCpus) s.backing).1
        (s.call machine .load).1 s.store (s.call machine .load).2.store ∧
      (∀ config, Saves config
        (s.call machine (.save config)).1 s.store (s.call machine (.save config)).2.store) ∧
      ∀ request data, Routes (machine (.read variableId maxCpus) s.backing).1
        (s.call machine (.route request data)).1 s.store
        (s.call machine (.route request data)).2.store := by
  refine ⟨?_, fun config => ?_, fun request data => ?_⟩
  · rcases s.call_load machine with ⟨events, outcome, _, heq, hloading, hreplies⟩
    rw [heq]
    refine loads_of_loading _ events outcome s.store hloading ?_
    rintro answer rest rfl
    exact hreplies.1.symm
  · rcases s.call_save machine config with ⟨events, outcome, _, heq, hsaving, _⟩
    rw [heq]
    exact saves_of_saving config events outcome s.store hsaving
  · rcases s.call_route machine request data with ⟨events, outcome, _, heq, hrouting, hreplies⟩
    rw [heq]
    refine routes_of_routing _ request data events outcome s.store hrouting ?_
    rintro answer rest rfl
    exact hreplies.1.symm

end Session

end Config

end BoardSupport
