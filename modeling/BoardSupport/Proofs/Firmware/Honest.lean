import BoardSupport.Firmware.Simulated

/-!
# Honest Variables

What simulated variables do when nothing laid out for them is a lie.

A simulation can be told to claim a length it does not have, or to lose a write
and call it a success. Leaving those out, each operation is either carried out
or refused with a status, and a refused one changes nothing. That is
`IsHonest`. `IsFaithful` leaves out the refusals as well.

Both survive every operation, so a statement about one operation of an honest
simulation extends to a run of any length. What a run does to the variables is
then the sum of the writes that were not refused.

## Main definitions

* `Firmware.Simulated.contents`: The bytes kept under a name.
* `Firmware.Simulated.answer`: What a read that is carried out answers.
* `Firmware.Simulated.IsHonest`: Operations are carried out or refused.
* `Firmware.Simulated.IsFaithful`: Operations are carried out.

## Theorems

* `Firmware.Simulated.find?_put`: The value of every variable after one of them
  got a value.
* `Firmware.Simulated.take_toList_filled`: What is read from a buffer that is large enough.
* `Firmware.read_honest`, `Firmware.write_honest`: One operation of an honest
  simulation.
* `Firmware.read_faithful`, `Firmware.write_faithful`: One operation of a
  faithful one.
-/

namespace BoardSupport

namespace Firmware

/-- The read is carried out or refused. -/
def ReadRule.isHonest : ReadRule → Bool
  | .serve => true
  | .fail _ _ => true
  | .claim _ => false

/-- The write is carried out or refused. -/
def WriteRule.isHonest : WriteRule → Bool
  | .serve => true
  | .fail _ => true
  | .drop => false
  | .replace _ => false

namespace Simulated

/-- The bytes kept under a name. -/
def contents (f : Simulated) (id : VariableId) : Option (List UInt8) :=
  (f.find? id).map Stored.data

/-- What a read that is carried out answers. -/
def answer (f : Simulated) (id : VariableId) (capacity : Nat) :
    Except Variables.Error (Option (Variables.Content capacity)) :=
  match f.find? id with
  | none => .ok none
  | some value =>
    if value.data.length ≤ capacity then
      .ok (some ⟨value.data.length, filled capacity value.data⟩)
    else
      .error (.bufferTooSmall value.data.length)

/-- Everything laid out for reads and for writes is of some kind. -/
structure Lays (f : Simulated) (Reads : ReadRule → Prop) (Writes : WriteRule → Prop) : Prop where
  reads : ∀ rule ∈ f.reads, Reads rule
  writes : ∀ rule ∈ f.writes, Writes rule

/-- Operations are carried out or refused. -/
abbrev IsHonest (f : Simulated) : Prop :=
  f.Lays (fun rule => rule.isHonest = true) fun rule => rule.isHonest = true

/-- Operations are carried out. -/
abbrev IsFaithful (f : Simulated) : Prop :=
  f.Lays (fun rule => rule = .serve) fun rule => rule = .serve

-- Removing a variable says nothing about the others.
theorem lookup_filter_ne (stored : List (VariableId × Stored)) (id other : VariableId)
    (h : other ≠ id) :
    (stored.filter fun entry => entry.1 ≠ id).lookup other = stored.lookup other := by
  induction stored with
  | nil => rfl
  | cons entry rest ih =>
      by_cases hid : entry.1 = id
      · rw [List.filter_cons_of_neg (by simp [hid]), ih, List.lookup_cons, hid,
          beq_eq_false_iff_ne.mpr h]
      · rw [List.filter_cons_of_pos (by simp [hid]), List.lookup_cons, List.lookup_cons, ih]

/-- Giving a variable a value says nothing about the others. -/
theorem find?_put (f : Simulated) (id other : VariableId) (value : Stored) :
    (f.put id value).find? other = if other = id then some value else f.find? other := by
  unfold find? put
  by_cases h : other = id
  · rw [if_pos h, h, List.lookup_cons_self]
  · rw [if_neg h, List.lookup_cons, beq_eq_false_iff_ne.mpr h]
    exact lookup_filter_ne f.stored id other h

/-- Data that fits into the buffer is what is read from it. -/
theorem take_toList_filled (data : List UInt8) (capacity : Nat) (h : data.length ≤ capacity) :
    (filled capacity data).toList.take data.length = data := by
  have hlen : ((filled capacity data).toList.take data.length).length = data.length := by
    rw [List.length_take, Vector.length_toList, Nat.min_eq_left h]
  refine List.ext_getElem hlen fun i hi hi' => ?_
  simp only [List.getElem_take, Vector.getElem_toList, filled, Vector.getElem_ofFn]
  rw [List.getD_eq_getElem?_getD, List.getElem?_eq_getElem hi', Option.getD_some]

/-- Data as long as the buffer fills it. -/
theorem toList_filled (data : List UInt8) (capacity : Nat) (h : data.length = capacity) :
    (filled capacity data).toList = data := by
  have hall := take_toList_filled data capacity (Nat.le_of_eq h)
  rwa [List.take_of_length_le (Nat.le_of_eq (by rw [Vector.length_toList, h]))] at hall

-- Answers are a matter of what is kept.
theorem answer_congr (f g : Simulated) (id : VariableId) (capacity : Nat)
    (h : g.stored = f.stored) : g.answer id capacity = f.answer id capacity := by
  unfold answer find?
  rw [h]

-- The rule for a read is to carry it out or one of those laid out, and using it
-- touches nothing else.
theorem nextRead_cases (f : Simulated) :
    (f.nextRead.1 = .serve ∨ f.nextRead.1 ∈ f.reads) ∧
      (∀ rule ∈ f.nextRead.2.reads, rule ∈ f.reads) ∧
      f.nextRead.2.writes = f.writes ∧ f.nextRead.2.stored = f.stored := by
  unfold nextRead
  cases hr : f.reads with
  | nil => exact ⟨Or.inl rfl, fun rule hmem => hr ▸ hmem, rfl, rfl⟩
  | cons rule rest =>
      exact ⟨Or.inr List.mem_cons_self, fun r hmem => List.mem_cons_of_mem _ hmem, rfl, rfl⟩

-- The same for a write.
theorem nextWrite_cases (f : Simulated) :
    (f.nextWrite.1 = .serve ∨ f.nextWrite.1 ∈ f.writes) ∧
      (∀ rule ∈ f.nextWrite.2.writes, rule ∈ f.writes) ∧
      f.nextWrite.2.reads = f.reads ∧ f.nextWrite.2.stored = f.stored := by
  unfold nextWrite
  cases hw : f.writes with
  | nil => exact ⟨Or.inl rfl, fun rule hmem => hw ▸ hmem, rfl, rfl⟩
  | cons rule rest =>
      exact ⟨Or.inr List.mem_cons_self, fun r hmem => List.mem_cons_of_mem _ hmem, rfl, rfl⟩

-- What is laid out for later operations was laid out before, so whatever kind it
-- is of, it stays of that kind.
theorem Lays.nextRead {f : Simulated} {Reads : ReadRule → Prop} {Writes : WriteRule → Prop}
    (h : f.Lays Reads Writes) : f.nextRead.2.Lays Reads Writes := by
  rcases f.nextRead_cases with ⟨_, hreads, hwrites, _⟩
  exact ⟨fun rule hmem => h.reads rule (hreads rule hmem), by rw [hwrites]; exact h.writes⟩

theorem Lays.nextWrite {f : Simulated} {Reads : ReadRule → Prop} {Writes : WriteRule → Prop}
    (h : f.Lays Reads Writes) : f.nextWrite.2.Lays Reads Writes := by
  rcases f.nextWrite_cases with ⟨_, hwrites, hreads, _⟩
  exact ⟨by rw [hreads]; exact h.reads, fun rule hmem => h.writes rule (hwrites rule hmem)⟩

end Simulated

-- A read that is to be carried out answers from what is kept, which taking the
-- rule has not changed.
theorem read_serve (f : Simulated) (id : VariableId) (capacity : Nat)
    (h : f.nextRead.1 = .serve) :
    variableStore (.read id capacity) f = (f.answer id capacity, f.nextRead.2) := by
  have hstored := f.nextRead_cases.2.2.2
  cases hn : f.nextRead with
  | mk rule g =>
      rw [hn] at h hstored
      cases h
      rw [← f.answer_congr g id capacity hstored]
      unfold variableStore Simulated.answer
      simp only [hn]
      cases g.find? id with
      | none => rfl
      | some value =>
          by_cases hle : value.data.length ≤ capacity
          · simp only [if_pos hle]
          · simp only [if_neg hle]

-- A read that is to be refused.
theorem read_fail (f : Simulated) (id : VariableId) (capacity : Nat) (status : Status)
    (size : Option Nat) (h : f.nextRead.1 = .fail status size) :
    variableStore (.read id capacity) f = (.error (.firmware status), f.nextRead.2) := by
  cases hn : f.nextRead with
  | mk rule g =>
      rw [hn] at h
      cases h
      simp only [variableStore, hn]

-- A write that is to be carried out.
theorem write_serve (f : Simulated) (id : VariableId) (attributes : UInt32)
    (data : List UInt8) (h : f.nextWrite.1 = .serve) :
    variableStore (.write id attributes data) f =
      (.ok (), f.nextWrite.2.put id ⟨attributes, data⟩) := by
  cases hn : f.nextWrite with
  | mk rule g =>
      rw [hn] at h
      cases h
      simp only [variableStore, Simulated.write, hn]

-- A write that is to be refused.
theorem write_fail (f : Simulated) (id : VariableId) (attributes : UInt32)
    (data : List UInt8) (status : Status) (h : f.nextWrite.1 = .fail status) :
    variableStore (.write id attributes data) f =
      (.error (.firmware status), f.nextWrite.2) := by
  cases hn : f.nextWrite with
  | mk rule g =>
      rw [hn] at h
      cases h
      simp only [variableStore, hn]

/-- An honest read answers from what is kept or fails, and changes nothing. -/
theorem read_honest (f : Simulated) (id : VariableId) (capacity : Nat) (h : f.IsHonest) :
    ((variableStore (.read id capacity) f).1 = f.answer id capacity ∨
        ∃ status, (variableStore (.read id capacity) f).1 = .error (.firmware status)) ∧
      (variableStore (.read id capacity) f).2.IsHonest ∧
      (variableStore (.read id capacity) f).2.stored = f.stored := by
  rcases f.nextRead_cases with ⟨hrule, _, _, hstored⟩
  cases hn : f.nextRead.1 with
  | serve =>
      rw [read_serve f id capacity hn]
      exact ⟨Or.inl rfl, h.nextRead, hstored⟩
  | fail status size =>
      rw [read_fail f id capacity status size hn]
      exact ⟨Or.inr ⟨status, rfl⟩, h.nextRead, hstored⟩
  | claim length =>
      -- A lie is neither the default nor laid out.
      rw [hn] at hrule
      rcases hrule with hrule | hrule
      · cases hrule
      · cases h.reads _ hrule

/-- An honest write is carried out, or fails and changes nothing. -/
theorem write_honest (f : Simulated) (id : VariableId) (attributes : UInt32)
    (data : List UInt8) (h : f.IsHonest) :
    (variableStore (.write id attributes data) f).2.IsHonest ∧
      (((variableStore (.write id attributes data) f).1 = .ok () ∧
          (variableStore (.write id attributes data) f).2.stored =
            (f.put id ⟨attributes, data⟩).stored) ∨
        ((∃ status, (variableStore (.write id attributes data) f).1 =
            .error (.firmware status)) ∧
          (variableStore (.write id attributes data) f).2.stored = f.stored)) := by
  rcases f.nextWrite_cases with ⟨hrule, _, _, hstored⟩
  cases hn : f.nextWrite.1 with
  | serve =>
      rw [write_serve f id attributes data hn]
      refine ⟨⟨h.nextWrite.reads, h.nextWrite.writes⟩, Or.inl ⟨rfl, ?_⟩⟩
      simp only [Simulated.put, hstored]
  | fail status =>
      rw [write_fail f id attributes data status hn]
      exact ⟨h.nextWrite, Or.inr ⟨⟨status, rfl⟩, hstored⟩⟩
  | drop =>
      -- The two ways to lose a write are not laid out either.
      rw [hn] at hrule
      rcases hrule with hrule | hrule
      · cases hrule
      · cases h.writes _ hrule
  | replace data' =>
      rw [hn] at hrule
      rcases hrule with hrule | hrule
      · cases hrule
      · cases h.writes _ hrule

/-- A faithful read answers from what is kept and changes nothing. -/
theorem read_faithful (f : Simulated) (id : VariableId) (capacity : Nat) (h : f.IsFaithful) :
    (variableStore (.read id capacity) f).1 = f.answer id capacity ∧
      (variableStore (.read id capacity) f).2.IsFaithful ∧
      (variableStore (.read id capacity) f).2.stored = f.stored := by
  rcases f.nextRead_cases with ⟨hrule, _, _, hstored⟩
  rw [read_serve f id capacity (hrule.elim (fun hs => hs) (h.reads _))]
  exact ⟨rfl, h.nextRead, hstored⟩

/-- A faithful write is carried out. -/
theorem write_faithful (f : Simulated) (id : VariableId) (attributes : UInt32)
    (data : List UInt8) (h : f.IsFaithful) :
    (variableStore (.write id attributes data) f).1 = .ok () ∧
      (variableStore (.write id attributes data) f).2.IsFaithful ∧
      (variableStore (.write id attributes data) f).2.stored =
        (f.put id ⟨attributes, data⟩).stored := by
  rcases f.nextWrite_cases with ⟨hrule, _, _, hstored⟩
  rw [write_serve f id attributes data (hrule.elim (fun hs => hs) (h.writes _))]
  refine ⟨rfl, ⟨h.nextWrite.reads, h.nextWrite.writes⟩, ?_⟩
  simp only [Simulated.put, hstored]

end Firmware

end BoardSupport
