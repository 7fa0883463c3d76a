import BoardSupport.Config.CpuSet
import BoardSupport.Proofs.Splice

/-!
# Images of the Configuration

What the byte-by-byte decoding of an image amounts to.

`decideFrom` walks over the data and lets each byte decide about one CPU. Seen
from outside, it replaces a run of the image, provided every byte of the data
is a boolean, and otherwise reports the first byte that is none.
`decideFrom_eq_ok_iff` is the first half and the only place where the walk is
followed; reading an image and replacing a block are the two ways it is called,
and both are stated here without it.

An image determines its configuration, so equations between configurations are
proved as equations between images.

## Main definitions

* `Config.IsBoolean`: A byte that belongs to an image.

## Theorems

* `Config.CpuSet.toBytes_inj`: A configuration is determined by its image.
* `Config.CpuSet.decideFrom_eq_ok_iff`: When data decides, and what it does.
* `Config.CpuSet.decideFrom_eq_error`, `Config.CpuSet.decideFrom_of_stray`: Which byte is
  refused.
* `Config.CpuSet.ofBytes_eq_ok_iff`: The bytes that are read are the images.
* `Config.CpuSet.ofBytes_eq_error`, `Config.CpuSet.ofBytes_of_stray`: What is wrong with the
  others.
* `Config.CpuSet.apply_eq_ok_iff`, `Config.CpuSet.exists_apply`: When a block is replaced,
  and what it does.
* `Config.CpuSet.extract_eq_ok_iff`: When a block is read, and what it gives.
-/

namespace BoardSupport

namespace Config

/-- A byte that stands for an enabled or a disabled CPU. -/
def IsBoolean (b : UInt8) : Prop :=
  b = 0 ∨ b = 1

instance (b : UInt8) : Decidable (IsBoolean b) :=
  inferInstanceAs (Decidable (b = 0 ∨ b = 1))

namespace CpuSet

theorem map_eq_ok_iff {ε α β : Type} (f : α → β) (result : Except ε α) (b : β) :
    result.map f = .ok b ↔ ∃ a, result = .ok a ∧ f a = b := by
  cases result <;> simp [Except.map]

theorem map_eq_error_iff {ε α β : Type} (f : α → β) (result : Except ε α) (cause : ε) :
    result.map f = .error cause ↔ result = .error cause := by
  cases result <;> simp [Except.map]

theorem ofByte?_eq_some_iff (b : UInt8) (on : Bool) : ofByte? b = some on ↔ b = toByte on := by
  unfold ofByte?
  by_cases h0 : b = 0
  · subst h0
    cases on <;> simp [toByte]
  · by_cases h1 : b = 1
    · subst h1
      cases on <;> simp [toByte]
    · cases on <;> simp [toByte, h0, h1]

theorem ofByte?_eq_none_iff (b : UInt8) : ofByte? b = none ↔ ¬ IsBoolean b := by
  unfold ofByte? IsBoolean
  by_cases h0 : b = 0
  · simp [h0]
  · by_cases h1 : b = 1 <;> simp [h0, h1]

theorem isBoolean_toByte (on : Bool) : IsBoolean (toByte on) := by
  cases on
  · exact Or.inl rfl
  · exact Or.inr rfl

theorem toByte_inj (on on' : Bool) (h : toByte on = toByte on') : on = on' := by
  revert h
  cases on <;> cases on' <;> decide

/-- The image of the CPUs themselves, before they are a configuration. -/
def imageOf (enabled : Vector Bool maxCpus) : List UInt8 :=
  enabled.toList.map toByte

theorem length_imageOf (enabled : Vector Bool maxCpus) : (imageOf enabled).length = maxCpus := by
  rw [imageOf, List.length_map, Vector.length_toList]

theorem imageOf_inj (enabled enabled' : Vector Bool maxCpus)
    (h : imageOf enabled = imageOf enabled') : enabled = enabled' :=
  Vector.toList_inj.mp ((List.map_inj_right toByte_inj).mp h)

theorem imageOf_set (enabled : Vector Bool maxCpus) (cpu : Nat) (on : Bool) (h : cpu < maxCpus) :
    imageOf (enabled.set cpu on h) = (imageOf enabled).set cpu (toByte on) := by
  rw [imageOf, imageOf, Vector.toList_set, List.map_set]

theorem length_toBytes (c : CpuSet) : c.toBytes.length = maxCpus :=
  length_imageOf c.enabled

theorem isBoolean_of_mem_toBytes (c : CpuSet) (b : UInt8) (h : b ∈ c.toBytes) : IsBoolean b := by
  rcases List.mem_map.mp h with ⟨on, _, rfl⟩
  exact isBoolean_toByte on

/-- A configuration is determined by its image. -/
theorem toBytes_inj (c c' : CpuSet) (h : c.toBytes = c'.toBytes) : c = c' := by
  cases c with
  | mk enabled =>
      cases c' with
      | mk enabled' => exact congrArg CpuSet.mk (imageOf_inj enabled enabled' h)

theorem toBytes_allEnabled : allEnabled.toBytes = List.replicate 8 1 := by
  decide

/-- Data decides about the CPUs exactly if every byte of it is a boolean, and
    then it replaces its run of the image. -/
theorem decideFrom_eq_ok_iff (data : List UInt8) (enabled enabled' : Vector Bool maxCpus)
    (index : Nat) (fits : index + data.length ≤ maxCpus) :
    decideFrom enabled index data fits = .ok enabled' ↔
      (∀ b ∈ data, IsBoolean b) ∧
        imageOf enabled' = Bytes.splice (imageOf enabled) index data := by
  -- Induction on the data; each byte moves the start of the run by one, and the
  -- image it is replaced in is the one the byte before has left.
  induction data generalizing enabled index with
  | nil =>
      rw [Bytes.splice_nil]
      constructor
      · intro h
        cases h
        exact ⟨fun _ hb => absurd hb List.not_mem_nil, rfl⟩
      · rintro ⟨_, h⟩
        rw [imageOf_inj _ _ h]
        rfl
  | cons b rest ih =>
      have hlt : index < maxCpus := by
        rw [List.length_cons] at fits
        omega
      cases hb : ofByte? b with
      | none =>
          -- The walk stops here, and the data is not all booleans.
          have hnot := (ofByte?_eq_none_iff b).mp hb
          have herror : decideFrom enabled index (b :: rest) fits
              = .error (.invalidBoolean index b) := by
            rw [decideFrom, hb]
          rw [herror]
          constructor
          · intro h
            cases h
          · rintro ⟨hall, _⟩
            exact absurd (hall b List.mem_cons_self) hnot
      | some on =>
          have hbyte := (ofByte?_eq_some_iff b on).mp hb
          have hstep : decideFrom enabled index (b :: rest) fits
              = decideFrom (enabled.set index on hlt) (index + 1) rest
                (by rw [List.length_cons] at fits; omega) := by
            rw [decideFrom, hb]
          rw [hstep, ih, imageOf_set, ← hbyte,
            Bytes.splice_set _ _ _ _ (by rw [length_imageOf]; exact hlt)]
          refine and_congr_left fun _ => ⟨?_, fun hall x hx => hall x (List.mem_cons_of_mem _ hx)⟩
          intro hall x hx
          rcases List.mem_cons.mp hx with rfl | hx
          · rw [hbyte]
            exact isBoolean_toByte on
          · exact hall x hx

/-- The byte refused is the first that is no boolean, and it is named by its
    place in the image. -/
theorem decideFrom_eq_error (data : List UInt8) (enabled : Vector Bool maxCpus) (index : Nat)
    (fits : index + data.length ≤ maxCpus) (cause : Error)
    (h : decideFrom enabled index data fits = .error cause) :
    ∃ before b after, data = before ++ b :: after ∧ (∀ x ∈ before, IsBoolean x) ∧
      ¬ IsBoolean b ∧ cause = .invalidBoolean (index + before.length) b := by
  induction data generalizing enabled index with
  | nil => cases h
  | cons b rest ih =>
      rw [decideFrom] at h
      cases hb : ofByte? b with
      | none =>
          rw [hb] at h
          cases h
          exact ⟨[], b, rest, rfl, fun _ hx => absurd hx List.not_mem_nil,
            (ofByte?_eq_none_iff b).mp hb, rfl⟩
      | some on =>
          rw [hb] at h
          rcases ih _ _ _ h with ⟨before, x, after, rfl, hall, hx, rfl⟩
          refine ⟨b :: before, x, after, rfl, ?_, hx, ?_⟩
          · intro y hy
            rcases List.mem_cons.mp hy with rfl | hy
            · rw [(ofByte?_eq_some_iff y on).mp hb]
              exact isBoolean_toByte on
            · exact hall y hy
          · rw [List.length_cons]
            congr 1
            omega

/-- A byte that is no boolean stops the walk if all before it are booleans. -/
theorem decideFrom_of_stray (before : List UInt8) (b : UInt8) (after : List UInt8)
    (enabled : Vector Bool maxCpus) (index : Nat)
    (fits : index + (before ++ b :: after).length ≤ maxCpus)
    (booleans : ∀ x ∈ before, IsBoolean x) (stray : ¬IsBoolean b) :
    decideFrom enabled index (before ++ b :: after) fits =
      .error (.invalidBoolean (index + before.length) b) := by
  induction before generalizing enabled index with
  | nil =>
      have hnone := (ofByte?_eq_none_iff b).mpr stray
      simp only [List.nil_append, decideFrom, hnone, List.length_nil, Nat.add_zero]
  | cons x rest ih =>
      cases hx : ofByte? x with
      | none => exact absurd (booleans x List.mem_cons_self) ((ofByte?_eq_none_iff x).mp hx)
      | some on =>
          have hrest : ∀ y ∈ rest, IsBoolean y := fun y hy =>
            booleans y (List.mem_cons_of_mem x hy)
          simp only [List.cons_append, decideFrom, hx]
          rw [ih _ _ _ hrest, List.length_cons]
          congr 2
          omega

/-- The bytes that are read as a configuration are those of its image. -/
theorem ofBytes_eq_ok_iff (bytes : List UInt8) (c : CpuSet) :
    ofBytes bytes = .ok c ↔ bytes = c.toBytes := by
  unfold ofBytes
  by_cases hlen : bytes.length = maxCpus
  · rw [dif_pos hlen, map_eq_ok_iff]
    -- Data as long as the image replaces all of it.
    have hall : Bytes.splice (imageOf allDisabled.enabled) 0 bytes = bytes := by
      rw [Bytes.splice, List.take_zero, List.nil_append, Nat.zero_add,
        List.drop_of_length_le (Nat.le_of_eq (by rw [length_imageOf, hlen])),
        List.append_nil]
    constructor
    · rintro ⟨enabled, h, rfl⟩
      rw [decideFrom_eq_ok_iff, hall] at h
      exact h.2.symm
    · intro h
      refine ⟨c.enabled, (decideFrom_eq_ok_iff _ _ _ _ _).mpr ⟨?_, ?_⟩, rfl⟩
      · intro b hb
        exact isBoolean_of_mem_toBytes c b (h ▸ hb)
      · rw [hall]
        exact h.symm
  · rw [dif_neg hlen]
    constructor
    · intro h
      cases h
    · intro h
      exact absurd (by rw [h, length_toBytes]) hlen

/-- Bytes that are not read have the wrong length, or the first of them that is
    no boolean is named. -/
theorem ofBytes_eq_error (bytes : List UInt8) (cause : Error) (h : ofBytes bytes = .error cause) :
    (bytes.length ≠ maxCpus ∧ cause = .invalidLength maxCpus bytes.length) ∨
      ∃ before b after, bytes = before ++ b :: after ∧ (∀ x ∈ before, IsBoolean x) ∧
        ¬ IsBoolean b ∧ cause = .invalidBoolean before.length b := by
  unfold ofBytes at h
  by_cases hlen : bytes.length = maxCpus
  · rw [dif_pos hlen, map_eq_error_iff] at h
    rcases decideFrom_eq_error _ _ _ _ _ h with ⟨before, b, after, hb, hall, hnot, hcause⟩
    rw [Nat.zero_add] at hcause
    exact Or.inr ⟨before, b, after, hb, hall, hnot, hcause⟩
  · rw [dif_neg hlen] at h
    cases h
    exact Or.inl ⟨hlen, rfl⟩

/-- Of bytes of the right length the first that is no boolean is named. -/
theorem ofBytes_of_stray (before : List UInt8) (b : UInt8) (after : List UInt8)
    (hlen : (before ++ b :: after).length = maxCpus) (booleans : ∀ x ∈ before, IsBoolean x)
    (stray : ¬IsBoolean b) :
    ofBytes (before ++ b :: after) = .error (.invalidBoolean before.length b) := by
  have hfits : 0 + (before ++ b :: after).length ≤ maxCpus := by omega
  rw [ofBytes, dif_pos hlen, decideFrom_of_stray before b after _ 0 hfits booleans stray,
    Nat.zero_add]
  rfl

/-- As many booleans as there are CPUs are the image of a configuration. -/
theorem exists_toBytes (bytes : List UInt8) (hlen : bytes.length = maxCpus)
    (hall : ∀ b ∈ bytes, IsBoolean b) : ∃ c : CpuSet, c.toBytes = bytes := by
  -- Reading the bytes gives the configuration, since neither way to refuse them
  -- is open.
  cases hb : ofBytes bytes with
  | ok c => exact ⟨c, ((ofBytes_eq_ok_iff bytes c).mp hb).symm⟩
  | error cause =>
      rcases ofBytes_eq_error bytes cause hb with ⟨hne, _⟩ | ⟨before, b, after, rfl, _, hnot, _⟩
      · exact absurd hlen hne
      · exact absurd (hall b (List.mem_append_right before List.mem_cons_self)) hnot

/-- A block is replaced exactly if it lies in the image, the data is as wide as
    the block, and every byte of it is a boolean; the data then replaces the
    block and nothing else. -/
theorem apply_eq_ok_iff (c c' : CpuSet) (block : Block) (data : List UInt8) :
    c.apply block data = .ok c' ↔
      block.offset.toNat + block.width.toNat ≤ maxCpus ∧ data.length = block.width.toNat ∧
        (∀ b ∈ data, IsBoolean b) ∧
        c'.toBytes = Bytes.splice c.toBytes block.offset.toNat data := by
  unfold apply Block.within
  by_cases hin : block.offset.toNat + block.width.toNat ≤ maxCpus
  · rw [dif_pos hin]
    by_cases hlen : data.length = block.width.toNat
    · simp only [Span.length, Nat.add_sub_cancel_left, hlen, dite_true, map_eq_ok_iff]
      constructor
      · rintro ⟨enabled, h, rfl⟩
        rw [decideFrom_eq_ok_iff] at h
        exact ⟨hin, trivial, h.1, h.2⟩
      · rintro ⟨_, _, hall, h⟩
        exact ⟨c'.enabled, (decideFrom_eq_ok_iff _ _ _ _ _).mpr ⟨hall, h⟩, rfl⟩
    · simp only [Span.length, Nat.add_sub_cancel_left, hlen, dite_false, reduceCtorEq, false_and,
        and_false]
  · rw [dif_neg hin]
    simp only [hin, reduceCtorEq, false_and]

/-- A block can be replaced whatever the configuration is. -/
theorem exists_apply (c : CpuSet) (block : Block) (data : List UInt8)
    (inside : block.offset.toNat + block.width.toNat ≤ maxCpus)
    (hlen : data.length = block.width.toNat) (hall : ∀ b ∈ data, IsBoolean b) :
    ∃ c', c.apply block data = .ok c' ∧
      c'.toBytes = Bytes.splice c.toBytes block.offset.toNat data := by
  have hfits : block.offset.toNat + data.length ≤ c.toBytes.length := by
    rw [hlen, c.length_toBytes]
    exact inside
  rcases exists_toBytes (Bytes.splice c.toBytes block.offset.toNat data)
    (by rw [Bytes.length_splice _ _ _ hfits, c.length_toBytes])
    (fun b hb => (Bytes.mem_of_mem_splice _ _ _ b hb).elim
      (c.isBoolean_of_mem_toBytes b) (hall b)) with ⟨c', himage⟩
  exact ⟨c', (apply_eq_ok_iff _ _ _ _).mpr ⟨inside, hlen, hall, himage⟩, himage⟩

/-- A block is read exactly if it lies in the image and there is room for it. -/
theorem extract_eq_ok_iff (c : CpuSet) (block : Block) (room : Nat) (bytes : List UInt8) :
    c.extract block room = .ok bytes ↔
      block.offset.toNat + block.width.toNat ≤ maxCpus ∧ block.width.toNat ≤ room ∧
        bytes = (c.toBytes.drop block.offset.toNat).take block.width.toNat := by
  unfold extract Block.within
  by_cases hin : block.offset.toNat + block.width.toNat ≤ maxCpus
  · rw [dif_pos hin]
    by_cases hroom : room < block.width.toNat
    · have hnot : ¬ block.width.toNat ≤ room := by omega
      simp only [Span.length, Nat.add_sub_cancel_left, hroom, hnot, if_true, reduceCtorEq,
        false_and, and_false]
    · have hfits : block.width.toNat ≤ room := by omega
      simp only [Span.length, Nat.add_sub_cancel_left, hroom, hfits, hin, if_false, true_and,
        Except.ok.injEq, eq_comm]
  · rw [dif_neg hin]
    simp only [hin, reduceCtorEq, false_and]

end CpuSet

end Config

end BoardSupport
