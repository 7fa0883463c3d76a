import BoardSupport.Proofs.Config.Variable

/-!
# Coherence

How the variable and the current configuration stay together over a session in
which reads and writes may fail.

The two are changed at different moments. Saving and routing write and are
done, so either both change or neither does. Creating the variable is
different: the defaults are written and then read back, and only what was read
back is delivered. If reading back fails, the write stands and the current
configuration does not know about it. Such a write is a stray one, and from it
on the variable holds the defaults, until a configuration is delivered again.

Strays are the only way apart. The invariant of a session is that the variable
holds the current configuration, or the defaults if there is a stray; one lemma
says what a single call does to both, and the rest is an induction over the
calls with the turns so far as its parameter.

## Main definitions

* `Config.Turn.Accounts`: What a turn did to the variable and to the current
  configuration.
* `Config.Tracks`: The invariant of a session after some turns.

## Theorems

* `Config.hasStray_append`: Strays after one more turn.
* `Config.Session.call_accounts`: What one call does.
* `Config.Session.tracks_calls`: Calls keep the invariant.
* `Config.Session.coherent_iff`: When the variable holds the current
  configuration.
-/

namespace BoardSupport

namespace Config

open Firmware

/-- A delivered configuration leaves no stray; any other turn adds one if a
    write of it got through. -/
theorem hasStray_append (past : List Turn) (t : Turn) :
    hasStray (past ++ [t]) =
      if t.delivered = true then false else t.stored || hasStray past := by
  unfold hasStray
  rw [List.reverse_append, List.reverse_singleton, List.singleton_append, List.takeWhile_cons]
  cases hd : t.delivered with
  | false => rfl
  | true => rfl

/-- What a turn did: a delivered configuration is current and in the variable.
    Any other turn left the current configuration alone, and the variable too
    unless a write got through, which was one of the defaults. -/
structure Turn.Accounts (t : Turn) (s s' : Session Simulated) : Prop where
  honest : s'.backing.IsHonest
  agrees : t.delivered = true →
    s'.backing.contents variableId = some s'.store.current.toBytes
  kept : t.delivered = false → s'.store = s.store
  strays : t.delivered = false → t.stored = true →
    s'.backing.contents variableId = some CpuSet.allEnabled.toBytes
  untouched : t.delivered = false → t.stored = false →
    s'.backing.contents variableId = s.backing.contents variableId

/-- The variable holds the current configuration, or the defaults if a stray
    is left, once a configuration has been delivered. -/
structure Tracks (turns : List Turn) (s : Session Simulated) : Prop where
  honest : s.backing.IsHonest
  holds : turns.any Turn.delivered = true →
    s.backing.contents variableId =
      some (if hasStray turns then CpuSet.allEnabled else s.store.current).toBytes

-- One more turn keeps the invariant: a delivered configuration restores it
-- whatever was before, and any other turn carries it on.
theorem tracks_append (past : List Turn) (t : Turn) (s s' : Session Simulated)
    (hpast : Tracks past s) (ht : t.Accounts s s') : Tracks (past ++ [t]) s' := by
  refine ⟨ht.honest, fun hany => ?_⟩
  rw [hasStray_append]
  cases hd : t.delivered with
  | true =>
      rw [if_pos rfl, if_neg Bool.false_ne_true]
      exact ht.agrees hd
  | false =>
      -- Some turn has delivered a configuration, and it was not this one.
      have hbefore : past.any Turn.delivered = true := by
        rw [List.any_append, List.any_cons, hd] at hany
        simpa using hany
      rw [if_neg Bool.false_ne_true, ht.kept hd]
      cases hs : t.stored with
      | true => exact ht.strays hd hs
      | false =>
          rw [Bool.false_or, ht.untouched hd hs]
          exact hpast.holds hbefore

namespace Turn

-- A turn that delivered nothing and wrote nothing.
theorem accounts_silent (events : List (Event Variables.interface)) (reply : Reply)
    (store : Store) (f g : Simulated) (hstored : stored ⟨events, reply⟩ = false)
    (hdelivered : delivered ⟨events, reply⟩ = false) (hg : g.IsHonest)
    (hc : g.contents variableId = f.contents variableId) :
    Accounts ⟨events, reply⟩ ⟨store, f⟩ ⟨store, g⟩ := by
  refine ⟨hg, fun h => ?_, fun _ => rfl, fun _ h => ?_, fun _ _ => hc⟩
  · rw [hdelivered] at h
    cases h
  · rw [hstored] at h
    cases h

-- A turn that delivered a configuration, which its variables hold.
theorem accounts_delivered (events : List (Event Variables.interface)) (config : CpuSet)
    (store : Store) (f g : Simulated) (hg : g.IsHonest)
    (hc : g.contents variableId = some config.toBytes) :
    Accounts ⟨events, .config (.ok config)⟩ ⟨store, f⟩ ⟨store.after (.ok config), g⟩ := by
  refine ⟨hg, fun _ => hc, fun h => ?_, fun h => ?_, fun h => ?_⟩
  all_goals cases h

-- A turn that delivered nothing after the defaults were written.
theorem accounts_stray (events : List (Event Variables.interface)) (cause : Error)
    (store : Store) (f g : Simulated) (hstored : stored ⟨events, .config (.error cause)⟩ = true)
    (hg : g.IsHonest) (hc : g.contents variableId = some CpuSet.allEnabled.toBytes) :
    Accounts ⟨events, .config (.error cause)⟩ ⟨store, f⟩ ⟨store.after (.error cause), g⟩ := by
  refine ⟨hg, fun h => ?_, fun _ => rfl, fun _ _ => hc, fun _ h => ?_⟩
  · cases h
  · rw [hstored] at h
    cases h

end Turn

section Operations

variable (f t : Simulated) (events : List (Event Variables.interface))
  (outcome : Outcome Error CpuSet) (store : Store)

-- The ways of each operation are followed event by event. A lemma of the
-- variable takes the front event off, and its answer has to be the one the way
-- says it was, which closes the cases where the variables say otherwise.

-- The events before the write are those of the read that a change starts with.
theorem accounts_saving (config : CpuSet) (read : List (Event Variables.interface))
    (hread : read.any Variables.isStored = false) (hf : f.IsHonest)
    (h : Saving config events outcome) (hm : variableStore.Replies f events t) :
    Turn.Accounts ⟨read ++ events, .config outcome⟩ ⟨store, f⟩ ⟨store.after outcome, t⟩ := by
  cases h with
  | refused cause =>
      rcases replies_write f t _ config _ hf hm with ⟨g, hg, hnil, hwritten⟩
      cases hnil
      rcases hwritten with ⟨hok, _⟩ | ⟨_, hc⟩
      · cases hok
      · refine Turn.accounts_silent _ _ store f _ ?_ rfl hg hc
        simp [Turn.stored, hread, writeEvent, Variables.isStored]
  | stored level message =>
      rcases replies_write f t _ config _ hf hm with ⟨g, hg, hsay, hwritten⟩
      cases replies_say g t _ level message hsay
      rcases hwritten with ⟨_, hc⟩ | ⟨⟨cause, herror⟩, _⟩
      · exact Turn.accounts_delivered _ config store f _ hg hc
      · cases herror

-- The one place a stray comes from: the way in which nothing is read back.
theorem accounts_creating (answer : Except Variables.Error (Option (Variables.Content maxCpus)))
    (level : Log.Level) (message : String) (hf : f.IsHonest)
    (h : Creating events outcome) (hm : variableStore.Replies f events t) :
    Turn.Accounts ⟨readEvent answer :: sayEvent level message :: events, .config outcome⟩
      ⟨store, f⟩ ⟨store.after outcome, t⟩ := by
  cases h with
  | refused cause =>
      rcases replies_write f t _ _ _ hf hm with ⟨g, hg, hnil, hwritten⟩
      cases hnil
      rcases hwritten with ⟨hok, _⟩ | ⟨_, hc⟩
      · cases hok
      · exact Turn.accounts_silent _ _ store f _ rfl rfl hg hc
  | unread again cause _ _ =>
      rcases replies_write f t _ _ _ hf hm with ⟨g, hg, hread, hwritten⟩
      rcases replies_read g t _ again hg hread with ⟨g', hg', hnil, hsame, _⟩
      cases hnil
      rcases hwritten with ⟨_, hc⟩ | ⟨⟨cause, herror⟩, _⟩
      · exact Turn.accounts_stray _ cause store f _ rfl hg' (hsame.trans hc)
      · cases herror
  | readBack again config hconfig =>
      rcases replies_write f t _ _ _ hf hm with ⟨g, hg, hread, _⟩
      rcases replies_read g t _ again hg hread with ⟨g', hg', hnil, hsame, hgives⟩
      cases hnil
      exact Turn.accounts_delivered _ config store f _ hg' (hsame.trans (hgives config hconfig))

theorem accounts_loading (hf : f.IsHonest) (h : Loading events outcome)
    (hm : variableStore.Replies f events t) :
    Turn.Accounts ⟨events, .config outcome⟩ ⟨store, f⟩ ⟨store.after outcome, t⟩ := by
  cases h with
  | found answer config hconfig level message =>
      rcases replies_read f t _ answer hf hm with ⟨g, hg, hsay, hsame, hgives⟩
      cases replies_say g t _ level message hsay
      exact Turn.accounts_delivered _ config store f _ hg (hsame.trans (hgives config hconfig))
  | malformed content cause _ level message =>
      rcases replies_read f t _ _ hf hm with ⟨g, hg, hsay, hsame, _⟩
      cases replies_say g t _ level message hsay
      exact Turn.accounts_silent _ _ store f _ rfl rfl hg hsame
  | created answer _ level message rest _ hcreating =>
      rcases replies_read f t _ answer hf hm with ⟨g, hg, hsay, hsame, _⟩
      have hrest := replies_say g t _ level message hsay
      -- the read left the variable alone, so what follows starts from `f` as well
      have hg' := accounts_creating g t rest outcome store answer level message hg hcreating hrest
      exact ⟨hg'.honest, hg'.agrees, hg'.kept, hg'.strays,
        fun hd hs => (hg'.untouched hd hs).trans hsame⟩

theorem accounts_routing (request : String) (data : List UInt8) (hf : f.IsHonest)
    (h : Routing request data events outcome) (hm : variableStore.Replies f events t) :
    Turn.Accounts ⟨events, .config outcome⟩ ⟨store, f⟩ ⟨store.after outcome, t⟩ := by
  cases h with
  | refused cause _ =>
      cases hm
      exact Turn.accounts_silent _ _ store f _ rfl rfl hf rfl
  | unread answer cause _ =>
      rcases replies_read f t _ answer hf hm with ⟨g, hg, hnil, hsame, _⟩
      cases hnil
      exact Turn.accounts_silent _ _ store f _ rfl rfl hg hsame
  | rejected answer block stored cause _ _ _ =>
      rcases replies_read f t _ answer hf hm with ⟨g, hg, hnil, hsame, _⟩
      cases hnil
      exact Turn.accounts_silent _ _ store f _ rfl rfl hg hsame
  | changed answer block stored config _ _ _ _ rest _ hsaving =>
      rcases replies_read f t _ answer hf hm with ⟨g, hg, hrest, hsame, _⟩
      have hg' := accounts_saving g t rest outcome store config [readEvent answer] rfl hg hsaving
        hrest
      exact ⟨hg'.honest, hg'.agrees, hg'.kept, hg'.strays,
        fun hd hs => (hg'.untouched hd hs).trans hsame⟩

end Operations

namespace Session

/-- Every call accounts for what it did. -/
theorem call_accounts (s : Session Simulated) (c : Call) (h : s.backing.IsHonest) :
    (s.call variableStore c).1.Accounts s (s.call variableStore c).2 := by
  cases c with
  | load =>
      rcases s.call_load variableStore with ⟨events, outcome, t, heq, hloading, hm⟩
      rw [heq]
      exact accounts_loading s.backing t events outcome s.store h hloading hm
  | save config =>
      rcases s.call_save variableStore config with ⟨events, outcome, t, heq, hsaving, hm⟩
      rw [heq]
      exact accounts_saving s.backing t events outcome s.store config [] rfl h hsaving hm
  | route request data =>
      rcases s.call_route variableStore request data with ⟨events, outcome, t, heq, hrouting, hm⟩
      rw [heq]
      exact accounts_routing s.backing t events outcome s.store request data h hrouting hm
  | extract request room =>
      exact Turn.accounts_silent [] _ s.store s.backing s.backing rfl rfl h rfl

/-- Calls keep the invariant, whatever turns came before them. -/
theorem tracks_calls (cs : List Call) (past : List Turn) (s : Session Simulated)
    (h : Tracks past s) :
    Tracks (past ++ (s.calls variableStore cs).1) (s.calls variableStore cs).2 := by
  -- Each call moves its turn to those before, so they vary in the induction.
  induction cs generalizing past s with
  | nil =>
      rw [calls, List.append_nil]
      exact h
  | cons c rest ih =>
      have hstep := tracks_append past _ s _ h (s.call_accounts c h.honest)
      have hrest := ih _ _ hstep
      rw [List.append_assoc] at hrest
      exact hrest

/-- However reads and writes fail, once a configuration has been delivered the
    variable holds the current one, except that after a stray it holds the
    defaults. So the two agree exactly if no stray is left or the defaults are
    current. -/
theorem coherent_iff (store : Store) (f : Simulated) (h : f.IsHonest) (cs : List Call)
    (hdelivered : (calls variableStore ⟨store, f⟩ cs).1.any Turn.delivered = true) :
    (calls variableStore ⟨store, f⟩ cs).2.backing.contents variableId =
        some (if hasStray (calls variableStore ⟨store, f⟩ cs).1 then CpuSet.allEnabled
          else (calls variableStore ⟨store, f⟩ cs).2.store.current).toBytes ∧
      ((calls variableStore ⟨store, f⟩ cs).2.backing.contents variableId =
          some (calls variableStore ⟨store, f⟩ cs).2.store.current.toBytes ↔
        (hasStray (calls variableStore ⟨store, f⟩ cs).1 = true →
          (calls variableStore ⟨store, f⟩ cs).2.store.current = CpuSet.allEnabled)) := by
  -- Before the first call nothing is promised about the variable.
  have htracks : Tracks [] (⟨store, f⟩ : Session Simulated) := ⟨h, fun hnone => by cases hnone⟩
  have hholds := (tracks_calls cs [] _ htracks).holds hdelivered
  rw [List.nil_append] at hholds
  refine ⟨hholds, ?_⟩
  rw [hholds, Option.some.injEq]
  by_cases hstray : hasStray (calls variableStore ⟨store, f⟩ cs).1 = true
  · -- The variable holds the defaults, and an image has one configuration.
    rw [if_pos hstray]
    exact ⟨fun heq _ => (CpuSet.toBytes_inj _ _ heq).symm, fun heq => by rw [heq hstray]⟩
  · rw [if_neg hstray]
    exact ⟨fun _ hyes => absurd hyes hstray, fun _ => rfl⟩

/-- Variables whose next two reads fail. -/
def failingReads : Simulated :=
  { Simulated.empty with reads := [.fail (.ofError 7) none, .fail (.ofError 7) none] }

theorem coherent_iff_failingReads :
    failingReads.IsHonest ∧
      (calls variableStore ⟨.new, failingReads⟩ [.save .allDisabled, .load]).1.any
        Turn.delivered = true ∧
      (calls variableStore ⟨.new, failingReads⟩ [.save .allDisabled, .load]).2.backing.contents
        variableId = some CpuSet.allEnabled.toBytes := by
  have hhonest : failingReads.IsHonest := ⟨by decide, by decide⟩
  have hdelivered : (calls variableStore ⟨.new, failingReads⟩ [.save .allDisabled, .load]).1.any
      Turn.delivered = true := by decide
  refine ⟨hhonest, hdelivered, ?_⟩
  have h := (coherent_iff .new failingReads hhonest [.save .allDisabled, .load] hdelivered).1
  rw [h]
  decide

/-- Creating the variable can leave it apart from the current configuration:
    the defaults are written over a saved configuration that could not be read,
    they cannot be read back, and the saved configuration stays current. -/
theorem incoherent_failingReads :
    (calls variableStore ⟨.new, failingReads⟩ [.save .allDisabled, .load]).1.any
        Turn.delivered = true ∧
      (calls variableStore ⟨.new, failingReads⟩ [.save .allDisabled, .load]).2.backing.contents
          variableId ≠
        some (calls variableStore ⟨.new, failingReads⟩
          [.save .allDisabled, .load]).2.store.current.toBytes := by
  decide

end Session

end Config

end BoardSupport
