import BoardSupport.Proofs.Config.Operations
import BoardSupport.Proofs.Firmware.Honest

/-!
# The Configuration Variable

What the events of an operation on the configuration mean when the variables
are simulated ones.

The lists of events are the same on every machine. Here their answers are those
of honest or faithful variables, and each event is turned into what it did to
the bytes kept under the configuration's name. The lemmas take the front event
off a list of replies, so an operation is followed by using them in the order
of its events.

## Theorems

* `Config.reading_answer_eq_some_iff`: A configuration is read exactly if the
  bytes kept are its image.
* `Config.replies_read`, `Config.replies_write`, `Config.replies_say`: One
  event answered by honest variables.
* `Config.replies_read_faithful`, `Config.replies_write_faithful`: One event
  answered by faithful variables.
-/

namespace BoardSupport

namespace Config

open Firmware

theorem find?_congr (f g : Simulated) (id : VariableId) (h : g.stored = f.stored) :
    g.find? id = f.find? id := by
  unfold Simulated.find?
  rw [h]

theorem contents_congr (f g : Simulated) (id : VariableId) (h : g.stored = f.stored) :
    g.contents id = f.contents id := by
  unfold Simulated.contents
  rw [find?_congr f g id h]

theorem contents_put (f : Simulated) (id : VariableId) (value : Stored) :
    (f.put id value).contents id = some value.data := by
  unfold Simulated.contents
  rw [f.find?_put, if_pos rfl, Option.map_some]

/-- What is kept is read as a configuration exactly if it is its image. -/
theorem reading_answer_eq_some_iff (f : Simulated) (config : CpuSet) :
    reading (f.answer variableId maxCpus) = .ok (some config) ↔
      f.contents variableId = some config.toBytes := by
  unfold Simulated.answer Simulated.contents
  cases hf : f.find? variableId with
  | none => simp [reading]
  | some value =>
      by_cases hle : value.data.length ≤ maxCpus
      · simp only [if_pos hle, reading_eq_some_iff, decode_eq_ok_iff, Option.map_some,
          Option.some.injEq, Except.ok.injEq, exists_eq_left']
        constructor
        -- The buffer holds what is kept only if that fills it, which an image does.
        · rintro ⟨hlen, hbytes⟩
          rw [Simulated.toList_filled _ _ hlen] at hbytes
          exact hbytes
        · intro hbytes
          have hlen : value.data.length = maxCpus := by rw [hbytes, config.length_toBytes]
          exact ⟨hlen, by rw [Simulated.toList_filled _ _ hlen, hbytes]⟩
      · -- What does not fit the buffer is not delivered, and it is no image.
        simp only [if_neg hle, reading, Option.map_some, Option.some.injEq]
        constructor
        · intro h
          cases h
        · intro hbytes
          rw [hbytes, config.length_toBytes] at hle
          exact absurd (Nat.le_refl _) hle

theorem reading_answer_eq_none (f : Simulated) (h : f.find? variableId = none) :
    reading (f.answer variableId maxCpus) = .ok none := by
  unfold Simulated.answer
  rw [h]
  rfl

section Honest

variable (f t : Simulated) (rest : List (Event Variables.interface))

theorem replies_say (level : Log.Level) (message : String)
    (h : variableStore.Replies f (sayEvent level message :: rest) t) :
    variableStore.Replies f rest t :=
  h.2

/-- A read changes nothing, and a configuration it delivers is the one kept. -/
theorem replies_read (answer : Except Variables.Error (Option (Variables.Content maxCpus)))
    (hf : f.IsHonest) (h : variableStore.Replies f (readEvent answer :: rest) t) :
    ∃ g : Simulated, g.IsHonest ∧ variableStore.Replies g rest t ∧
      g.contents variableId = f.contents variableId ∧
      ∀ config, reading answer = .ok (some config) →
        f.contents variableId = some config.toBytes := by
  rcases read_honest f variableId maxCpus hf with ⟨hanswer, hhonest, hstored⟩
  refine ⟨_, hhonest, h.2, contents_congr _ _ _ hstored, fun config hconfig => ?_⟩
  have hgiven : (variableStore (.read variableId maxCpus) f).1 = answer := h.1
  rw [hgiven] at hanswer
  rcases hanswer with rfl | ⟨status, rfl⟩
  · exact (reading_answer_eq_some_iff f config).mp hconfig
  · cases hconfig

/-- A write leaves its configuration, or is refused and changes nothing. -/
theorem replies_write (config : CpuSet) (answer : Except Variables.Error Unit)
    (hf : f.IsHonest) (h : variableStore.Replies f (writeEvent config answer :: rest) t) :
    ∃ g : Simulated, g.IsHonest ∧ variableStore.Replies g rest t ∧
      ((answer = .ok () ∧ g.contents variableId = some config.toBytes) ∨
        ((∃ cause, answer = .error cause) ∧
          g.contents variableId = f.contents variableId)) := by
  rcases write_honest f variableId attributes config.toBytes hf with ⟨hhonest, hwritten⟩
  refine ⟨_, hhonest, h.2, ?_⟩
  have hgiven : (variableStore (.write variableId attributes config.toBytes) f).1 = answer := h.1
  rw [hgiven] at hwritten
  rcases hwritten with ⟨hok, hstored⟩ | ⟨⟨status, herror⟩, hstored⟩
  · refine Or.inl ⟨hok, ?_⟩
    rw [← contents_put f variableId ⟨attributes, config.toBytes⟩]
    exact contents_congr _ _ _ hstored
  · exact Or.inr ⟨⟨_, herror⟩, contents_congr _ _ _ hstored⟩

end Honest

section Faithful

variable (f t : Simulated) (rest : List (Event Variables.interface))

/-- A read is answered with what is kept. -/
theorem replies_read_faithful
    (answer : Except Variables.Error (Option (Variables.Content maxCpus)))
    (hf : f.IsFaithful) (h : variableStore.Replies f (readEvent answer :: rest) t) :
    answer = f.answer variableId maxCpus ∧
      ∃ g : Simulated, g.IsFaithful ∧ variableStore.Replies g rest t ∧ g.stored = f.stored := by
  rcases read_faithful f variableId maxCpus hf with ⟨hanswer, hfaithful, hstored⟩
  have hgiven : (variableStore (.read variableId maxCpus) f).1 = answer := h.1
  exact ⟨hgiven.symm.trans hanswer, _, hfaithful, h.2, hstored⟩

/-- A write leaves its configuration. -/
theorem replies_write_faithful (config : CpuSet) (answer : Except Variables.Error Unit)
    (hf : f.IsFaithful) (h : variableStore.Replies f (writeEvent config answer :: rest) t) :
    answer = .ok () ∧
      ∃ g : Simulated, g.IsFaithful ∧ variableStore.Replies g rest t ∧
        g.stored = (f.put variableId ⟨attributes, config.toBytes⟩).stored := by
  rcases write_faithful f variableId attributes config.toBytes hf with
    ⟨hanswer, hfaithful, hstored⟩
  have hgiven : (variableStore (.write variableId attributes config.toBytes) f).1 = answer := h.1
  exact ⟨hgiven.symm.trans hanswer, _, hfaithful, h.2, hstored⟩

end Faithful

end Config

end BoardSupport
