import BoardSupport.Proofs.Config.Image

/-!
# Reading and Replacing Blocks

A block of the image is read and replaced by the laws of a lens, and a refusal says the
first thing that is wrong.

What was put into a block is read from it, putting back what was read changes nothing, and
what is put last is all that counts. A block that leaves the image is refused before the
data is looked at, data of the wrong width before its bytes are, and of its bytes the first
that is no boolean is named by its place in the image.

On the machine offset and width are words of 64 bits whose sum may be none, the image and
both buffers have to be indexed within their bounds, and the configuration and the buffer
are changed where they lie. `applyInPlace` and `extractInto` are these computations with
every sum, index and cut put to the test, and with what they leave behind. That they come
to what `apply` and `extract` say means that no test fails, whatever the block and the
buffers, and that a refusal leaves everything as it was.

## Main definitions

* `Config.Refused`, `Config.Unread`: Why a block is not replaced or not read.
* `Config.Block.withinInWords`: The part of an image a block covers, in words of 64 bits.
* `Config.CpuSet.applyInPlace`, `Config.CpuSet.extractInto`: Replacing and reading a block in
  place.
* `Config.CpuSet.LawfulBlock`: What is to be known about a block.

## Theorems

* `Config.CpuSet.apply_eq_error_iff`, `Config.CpuSet.extract_eq_error_iff`: Which refusal it
  is.
* `Config.Block.withinInWords_of_le`, `Config.Block.withinInWords_of_lt`: No sum wraps
  around.
* `Config.CpuSet.writeFrom?_eq`: No index is out of bounds.
* `Config.CpuSet.applyInPlace_eq`, `Config.CpuSet.extractInto_eq`: What is left behind.
* `Config.CpuSet.extract_of_apply`, `Config.CpuSet.apply_of_extract`,
  `Config.CpuSet.apply_of_apply`: The laws of a lens.
* `Config.CpuSet.block_lawful`: What is known about every block.
-/

namespace BoardSupport

namespace Config

/-- Why a block is not replaced by some data: the first of the three that applies. -/
inductive Refused (block : Block) (data : List UInt8) : Error → Prop where
  | range (outside : 8 < block.offset.toNat + block.width.toNat) :
      Refused block data (.blockOutOfRange block.offset.toNat block.width.toNat)
  | width (inside : block.offset.toNat + block.width.toNat ≤ 8)
      (unlike : data.length ≠ block.width.toNat) :
      Refused block data (.invalidLength block.width.toNat data.length)
  | boolean (inside : block.offset.toNat + block.width.toNat ≤ 8)
      (alike : data.length = block.width.toNat) (before : List UInt8) (b : UInt8)
      (after : List UInt8) (parts : data = before ++ b :: after)
      (booleans : ∀ x ∈ before, IsBoolean x) (stray : ¬IsBoolean b) :
      Refused block data (.invalidBoolean (block.offset.toNat + before.length) b)

/-- Why a block is not read into a buffer with so much room. -/
inductive Unread (block : Block) (room : Nat) : Error → Prop where
  | range (outside : 8 < block.offset.toNat + block.width.toNat) :
      Unread block room (.blockOutOfRange block.offset.toNat block.width.toNat)
  | room (inside : block.offset.toNat + block.width.toNat ≤ 8)
      (short : room < block.width.toNat) :
      Unread block room (.bufferTooSmall block.width.toNat)

namespace Block

/-- The end of a block, unless it is beyond 64 bits. -/
def stop? (b : Block) : Option UInt64 :=
  if b.offset.toNat + b.width.toNat < UInt64.size then some (b.offset + b.width) else none

/-- The first byte of a block and the one behind it, if they all lie within `size`. -/
def withinInWords (b : Block) (size : UInt64) : Except Error (UInt64 × UInt64) :=
  match b.stop? with
  | none => .error (.blockOutOfRange b.offset.toNat b.width.toNat)
  | some stop =>
    if stop ≤ size then .ok (b.offset, stop)
    else .error (.blockOutOfRange b.offset.toNat b.width.toNat)

/-- A sum that is a word is the end of the block. -/
theorem exists_stop? (b : Block) (h : b.offset.toNat + b.width.toNat < UInt64.size) :
    ∃ stop, b.stop? = some stop ∧ stop.toNat = b.offset.toNat + b.width.toNat := by
  refine ⟨b.offset + b.width, if_pos h, ?_⟩
  rw [UInt64.toNat_add]
  exact Nat.mod_eq_of_lt h

/-- A block that lies within `size` ends at a word. -/
theorem withinInWords_of_le (b : Block) (size : UInt64)
    (h : b.offset.toNat + b.width.toNat ≤ size.toNat) :
    ∃ stop, b.withinInWords size = .ok (b.offset, stop) ∧
      stop.toNat = b.offset.toNat + b.width.toNat := by
  obtain ⟨stop, hstop, hsum⟩ := b.exists_stop? (Nat.lt_of_le_of_lt h size.toNat_lt)
  have hle : stop ≤ size := UInt64.le_iff_toNat_le.mpr (hsum ▸ h)
  refine ⟨stop, ?_, hsum⟩
  simp only [withinInWords, hstop, if_pos hle]

/-- A block that leaves `size` is refused, also if its end is beyond 64 bits. -/
theorem withinInWords_of_lt (b : Block) (size : UInt64)
    (h : size.toNat < b.offset.toNat + b.width.toNat) :
    b.withinInWords size = .error (.blockOutOfRange b.offset.toNat b.width.toNat) := by
  by_cases hword : b.offset.toNat + b.width.toNat < UInt64.size
  · obtain ⟨stop, hstop, hsum⟩ := b.exists_stop? hword
    have hnot : ¬stop ≤ size := by
      rw [UInt64.le_iff_toNat_le, hsum]
      exact Nat.not_le_of_lt h
    simp only [withinInWords, hstop, if_neg hnot]
  · rw [withinInWords, stop?, if_neg hword]

end Block

namespace CpuSet

/-- A block is not replaced exactly for the reason given. -/
theorem apply_eq_error_iff (c : CpuSet) (block : Block) (data : List UInt8) (cause : Error) :
    c.apply block data = .error cause ↔ Refused block data cause := by
  unfold apply Block.within
  by_cases hin : block.offset.toNat + block.width.toNat ≤ maxCpus
  · rw [dif_pos hin]
    by_cases hlen : data.length = block.width.toNat
    · simp only [Span.length, Nat.add_sub_cancel_left, hlen, dite_true, map_eq_error_iff]
      constructor
      · intro h
        obtain ⟨before, b, after, hparts, hall, hnot, rfl⟩ := decideFrom_eq_error _ _ _ _ _ h
        exact .boolean hin hlen before b after hparts hall hnot
      · intro h
        cases h with
        | range outside => exact absurd hin (Nat.not_le_of_lt outside)
        | width _ unlike => exact absurd hlen unlike
        | boolean _ _ before b after parts booleans stray =>
            subst parts
            exact decideFrom_of_stray before b after _ _ _ booleans stray
    · simp only [Span.length, Nat.add_sub_cancel_left, hlen, dite_false, Except.error.injEq]
      constructor
      · rintro rfl
        exact .width hin hlen
      · intro h
        cases h with
        | range outside => exact absurd hin (Nat.not_le_of_lt outside)
        | width _ _ => rfl
        | boolean _ alike => exact absurd alike hlen
  · rw [dif_neg hin]
    simp only [Except.error.injEq]
    constructor
    · rintro rfl
      exact .range (Nat.lt_of_not_le hin)
    · intro h
      cases h with
      | range _ => rfl
      | width inside _ => exact absurd inside hin
      | boolean inside => exact absurd inside hin

/-- A block is not read exactly for the reason given. -/
theorem extract_eq_error_iff (c : CpuSet) (block : Block) (room : Nat) (cause : Error) :
    c.extract block room = .error cause ↔ Unread block room cause := by
  unfold extract Block.within
  by_cases hin : block.offset.toNat + block.width.toNat ≤ maxCpus
  · rw [dif_pos hin]
    by_cases hroom : room < block.width.toNat
    · simp only [Span.length, Nat.add_sub_cancel_left, hroom, if_true, Except.error.injEq]
      constructor
      · rintro rfl
        exact .room hin hroom
      · intro h
        cases h with
        | range outside => exact absurd hin (Nat.not_le_of_lt outside)
        | room _ _ => rfl
    · simp only [Span.length, Nat.add_sub_cancel_left, hroom, if_false, reduceCtorEq, false_iff]
      intro h
      cases h with
      | range outside => exact absurd hin (Nat.not_le_of_lt outside)
      | room _ short => exact hroom short
  · rw [dif_neg hin]
    simp only [Except.error.injEq]
    constructor
    · rintro rfl
      exact .range (Nat.lt_of_not_le hin)
    · intro h
      cases h with
      | range _ => rfl
      | room inside _ => exact absurd inside hin

section InPlace

/-- A part of a buffer, if it has one there. -/
def slice? (bytes : List UInt8) (start stop : Nat) : Option (List UInt8) :=
  if start ≤ stop ∧ stop ≤ bytes.length then some ((bytes.drop start).take (stop - start))
  else none

/-- A buffer whose first bytes have been written over by a part of an image, which has to
    be as long as what it replaces. -/
def copyInto? (out : List UInt8) (len : Nat) (image : List UInt8) (start stop : Nat) :
    Option (List UInt8) := do
  let front ← slice? out 0 len
  let part ← slice? image start stop
  if part.length = front.length then some (part ++ out.drop len) else none

/-- Let bytes decide about the CPUs from `index` on. The place of each has to be a word, and
    there has to be a CPU for each that is a boolean. -/
def writeFrom? (enabled : Vector Bool maxCpus) (index : Nat) :
    List UInt8 → Option (Except Error (Vector Bool maxCpus))
  | [] => some (.ok enabled)
  | b :: rest =>
    if index < UInt64.size then
      match ofByte? b with
      | none => some (.error (.invalidBoolean index b))
      | some on =>
        if h : index < maxCpus then writeFrom? (enabled.set index on h) (index + 1) rest
        else none
    else
      none

/-- Replace a block. A copy is written to, which takes the place of the configuration once
    it is complete. -/
def applyInPlace (c : CpuSet) (block : Block) (data : List UInt8) :
    Option (Except Error Unit × CpuSet) :=
  match block.withinInWords 8 with
  | .error cause => some (.error cause, c)
  | .ok (start, stop) =>
    if data.length = stop.toNat - start.toNat then do
      match ← writeFrom? c.enabled start.toNat data with
      | .error cause => some (.error cause, c)
      | .ok enabled => some (.ok (), ⟨enabled⟩)
    else
      some (.error (.invalidLength (stop.toNat - start.toNat) data.length), c)

/-- Read a block into a buffer, and tell how many bytes it has. -/
def extractInto (c : CpuSet) (block : Block) (out : List UInt8) :
    Option (Except Error Nat × List UInt8) :=
  match block.withinInWords 8 with
  | .error cause => some (.error cause, out)
  | .ok (start, stop) =>
    if out.length < stop.toNat - start.toNat then
      some (.error (.bufferTooSmall (stop.toNat - start.toNat)), out)
    else do
      let out ← copyInto? out (stop.toNat - start.toNat) c.toBytes start.toNat stop.toNat
      some (.ok (stop.toNat - start.toNat), out)

/-- Within the image every place is a word and there is a CPU for it. -/
theorem writeFrom?_eq (enabled : Vector Bool maxCpus) (index : Nat) (data : List UInt8)
    (fits : index + data.length ≤ maxCpus) :
    writeFrom? enabled index data = some (decideFrom enabled index data fits) := by
  induction data generalizing enabled index with
  | nil => rfl
  | cons b rest ih =>
      have hlt : index < maxCpus := by
        rw [List.length_cons] at fits
        omega
      have hword : index < UInt64.size := Nat.lt_trans hlt (by decide)
      rw [writeFrom?, decideFrom, if_pos hword]
      cases ofByte? b with
      | none => rfl
      | some on =>
          simp only [dif_pos hlt]
          exact ih _ _ _

/-- Replacing a block in place never fails a test, and a refusal changes nothing. -/
theorem applyInPlace_eq (c : CpuSet) (block : Block) (data : List UInt8) :
    c.applyInPlace block data =
      some (match c.apply block data with
        | .ok c' => (.ok (), c')
        | .error cause => (.error cause, c)) := by
  unfold applyInPlace apply Block.within
  by_cases hin : block.offset.toNat + block.width.toNat ≤ maxCpus
  · obtain ⟨stop, hwithin, hstop⟩ := block.withinInWords_of_le 8 hin
    rw [hwithin, dif_pos hin]
    simp only [hstop, Span.length, Nat.add_sub_cancel_left]
    by_cases hlen : data.length = block.width.toNat
    · have hfits : block.offset.toNat + data.length ≤ maxCpus := hlen ▸ hin
      rw [if_pos hlen, dif_pos hlen, writeFrom?_eq c.enabled _ data hfits]
      cases decideFrom c.enabled block.offset.toNat data hfits <;> rfl
    · rw [if_neg hlen, dif_neg hlen]
  · rw [block.withinInWords_of_lt 8 (Nat.lt_of_not_le hin), dif_neg hin]

theorem slice?_of_le (bytes : List UInt8) (start stop : Nat) (h : start ≤ stop)
    (hstop : stop ≤ bytes.length) :
    slice? bytes start stop = some ((bytes.drop start).take (stop - start)) :=
  if_pos ⟨h, hstop⟩

/-- Reading a block in place never fails a test. What is read takes the place of as many
    bytes at the front of the buffer, and a refusal changes nothing. -/
theorem extractInto_eq (c : CpuSet) (block : Block) (out : List UInt8) :
    c.extractInto block out =
      some (match c.extract block out.length with
        | .ok bytes => (.ok block.width.toNat, bytes ++ out.drop block.width.toNat)
        | .error cause => (.error cause, out)) := by
  unfold extractInto extract Block.within
  by_cases hin : block.offset.toNat + block.width.toNat ≤ maxCpus
  · obtain ⟨stop, hwithin, hstop⟩ := block.withinInWords_of_le 8 hin
    rw [hwithin, dif_pos hin]
    simp only [hstop, Span.length, Nat.add_sub_cancel_left]
    by_cases hroom : out.length < block.width.toNat
    · rw [if_pos hroom, if_pos hroom]
    · have himage : block.offset.toNat + block.width.toNat ≤ c.toBytes.length := by
        rw [length_toBytes]
        exact hin
      have hlength : ((c.toBytes.drop block.offset.toNat).take block.width.toNat).length =
          (out.take block.width.toNat).length := by
        simp only [List.length_take, List.length_drop]
        omega
      rw [if_neg hroom, if_neg hroom, copyInto?,
        slice?_of_le out 0 _ (Nat.zero_le _) (Nat.le_of_not_lt hroom),
        slice?_of_le c.toBytes _ _ (Nat.le_add_right _ _) himage]
      simp only [Nat.add_sub_cancel_left, Nat.sub_zero, List.drop_zero, Option.bind_eq_bind,
        Option.bind_some, if_pos hlength]
  · rw [block.withinInWords_of_lt 8 (Nat.lt_of_not_le hin), dif_neg hin]

end InPlace

/-- What is to be known about a block of a configuration. -/
structure LawfulBlock (c : CpuSet) (block : Block) : Prop where
  /-- A block is replaced exactly if it lies in the eight bytes of the image, the data is as
      wide as the block, and every byte of it is a boolean. -/
  applies_iff : ∀ data, (∃ c', c.apply block data = .ok c') ↔
    block.offset.toNat + block.width.toNat ≤ 8 ∧ data.length = block.width.toNat ∧
      ∀ b ∈ data, IsBoolean b
  /-- The data is in the image then, and the rest of the image is as before. -/
  image : ∀ data c', c.apply block data = .ok c' →
    c'.toBytes = Bytes.splice c.toBytes block.offset.toNat data
  /-- What was put there is read. -/
  extract_apply : ∀ data c' room, c.apply block data = .ok c' → block.width.toNat ≤ room →
    c'.extract block room = .ok data
  /-- Putting back what was read changes nothing. -/
  apply_extract : ∀ room bytes, c.extract block room = .ok bytes → c.apply block bytes = .ok c
  /-- What is put last counts, and is refused no sooner. -/
  apply_apply : ∀ data data' c', c.apply block data = .ok c' →
    c'.apply block data' = c.apply block data'
  /-- A block is not replaced for the first reason there is. -/
  refused_iff : ∀ data cause, c.apply block data = .error cause ↔ Refused block data cause
  /-- What is read is the block, where there is room for it. -/
  extracts_iff : ∀ room bytes, c.extract block room = .ok bytes ↔
    block.offset.toNat + block.width.toNat ≤ 8 ∧ block.width.toNat ≤ room ∧
      bytes = (c.toBytes.drop block.offset.toNat).take block.width.toNat
  /-- It has as many bytes as the block. -/
  extracted : ∀ room bytes, c.extract block room = .ok bytes → bytes.length = block.width.toNat
  /-- A block is not read for the first reason there is. -/
  unread_iff : ∀ room cause, c.extract block room = .error cause ↔ Unread block room cause
  /-- In place nothing fails a test, and a refusal leaves the configuration as it was. -/
  inPlace : ∀ data, c.applyInPlace block data =
    some (match c.apply block data with
      | .ok c' => (.ok (), c')
      | .error cause => (.error cause, c))
  /-- In place nothing fails a test. The block takes the place of as many bytes at the front
      of the buffer, and a refusal leaves the buffer as it was. -/
  into : ∀ out, c.extractInto block out =
    some (match c.extract block out.length with
      | .ok bytes => (.ok block.width.toNat, bytes ++ out.drop block.width.toNat)
      | .error cause => (.error cause, out))

/-- What was put into a block is read from it. -/
theorem extract_of_apply (c c' : CpuSet) (block : Block) (data : List UInt8) (room : Nat)
    (h : c.apply block data = .ok c') (hroom : block.width.toNat ≤ room) :
    c'.extract block room = .ok data := by
  obtain ⟨hin, hlen, -, himage⟩ := (apply_eq_ok_iff c c' block data).mp h
  have hstart : block.offset.toNat ≤ c.toBytes.length := by
    rw [length_toBytes]
    omega
  refine (extract_eq_ok_iff c' block room data).mpr ⟨hin, hroom, ?_⟩
  rw [himage, ← hlen, Bytes.take_drop_splice _ _ _ hstart]

theorem length_of_extract (c : CpuSet) (block : Block) (room : Nat) (bytes : List UInt8)
    (h : c.extract block room = .ok bytes) : bytes.length = block.width.toNat := by
  obtain ⟨hin, -, rfl⟩ := (extract_eq_ok_iff c block room bytes).mp h
  rw [List.length_take, List.length_drop, length_toBytes]
  omega

/-- Putting back what was read changes nothing. -/
theorem apply_of_extract (c : CpuSet) (block : Block) (room : Nat) (bytes : List UInt8)
    (h : c.extract block room = .ok bytes) : c.apply block bytes = .ok c := by
  have hlen := c.length_of_extract block room bytes h
  obtain ⟨hin, -, rfl⟩ := (extract_eq_ok_iff c block room bytes).mp h
  have hfits : block.offset.toNat + block.width.toNat ≤ c.toBytes.length := by
    rw [length_toBytes]
    exact hin
  refine (apply_eq_ok_iff c c block _).mpr ⟨hin, hlen, fun b hb => ?_, ?_⟩
  · exact c.isBoolean_of_mem_toBytes b (List.mem_of_mem_drop (List.mem_of_mem_take hb))
  · rw [Bytes.splice_take_drop _ _ _ hfits]

/-- After a replacement another one of the same block has the outcome it would have had. -/
theorem apply_of_apply (c c' : CpuSet) (block : Block) (data data' : List UInt8)
    (h : c.apply block data = .ok c') : c'.apply block data' = c.apply block data' := by
  obtain ⟨-, hlen, -, himage⟩ := (apply_eq_ok_iff c c' block data).mp h
  cases hnext : c.apply block data' with
  | error cause =>
      -- A refusal is about the block and the data only.
      rw [apply_eq_error_iff] at hnext ⊢
      exact hnext
  | ok c'' =>
      obtain ⟨hin, hlen', hall, himage'⟩ := (apply_eq_ok_iff c c'' block data').mp hnext
      have hfits : block.offset.toNat + data.length ≤ c.toBytes.length := by
        rw [hlen, length_toBytes]
        exact hin
      refine (apply_eq_ok_iff c' c'' block data').mpr ⟨hin, hlen', hall, ?_⟩
      rw [himage, himage', Bytes.splice_splice _ _ _ _ hfits (hlen'.trans hlen.symm)]

/-- Every block of every configuration is read and replaced lawfully. -/
theorem block_lawful (c : CpuSet) (block : Block) : LawfulBlock c block where
  applies_iff data := by
    constructor
    · rintro ⟨c', h⟩
      obtain ⟨hin, hlen, hall, -⟩ := (apply_eq_ok_iff c c' block data).mp h
      exact ⟨hin, hlen, hall⟩
    · rintro ⟨hin, hlen, hall⟩
      obtain ⟨c', h, -⟩ := c.exists_apply block data hin hlen hall
      exact ⟨c', h⟩
  image data c' h := ((apply_eq_ok_iff c c' block data).mp h).2.2.2
  extract_apply data c' room := c.extract_of_apply c' block data room
  apply_extract := c.apply_of_extract block
  apply_apply data data' c' := c.apply_of_apply c' block data data'
  refused_iff := c.apply_eq_error_iff block
  extracts_iff := c.extract_eq_ok_iff block
  extracted := c.length_of_extract block
  unread_iff := c.extract_eq_error_iff block
  inPlace := c.applyInPlace_eq block
  into := c.extractInto_eq block

end CpuSet

end Config

end BoardSupport
