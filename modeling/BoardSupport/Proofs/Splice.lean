/-!
# Replacing a Run of Bytes

A buffer with some of its bytes replaced, in place and without changing its
length. This is what a request to change a block asks for, said about the
whole buffer at once; the code that carries such a request out goes byte by
byte, and `splice_set` is the step between the two.

Replacements of runs that share no position commute. That is proved position
by position: `getElem?_splice` says where each byte of the result comes from.

## Main definitions

* `Bytes.splice`: A buffer with a run of it replaced.

## Theorems

* `Bytes.splice_set`: Replacing one byte and then the rest.
* `Bytes.getElem?_splice`: Where each byte of the result comes from.
* `Bytes.take_drop_splice`: The replaced run holds the new bytes.
* `Bytes.splice_take_drop`, `Bytes.splice_splice`: What is replaced by itself or twice.
* `Bytes.splice_comm`: Replacements of runs without a common position commute.
-/

namespace BoardSupport

namespace Bytes

variable {α : Type}

/-- A buffer in which the bytes from `start` on are replaced by `data`. -/
def splice (buffer : List α) (start : Nat) (data : List α) : List α :=
  buffer.take start ++ data ++ buffer.drop (start + data.length)

theorem splice_nil (buffer : List α) (start : Nat) : splice buffer start [] = buffer := by
  rw [splice, List.append_nil, List.length_nil, Nat.add_zero, List.take_append_drop]

-- The length of a buffer is kept if the run lies in it.
theorem length_splice (buffer : List α) (start : Nat) (data : List α)
    (h : start + data.length ≤ buffer.length) :
    (splice buffer start data).length = buffer.length := by
  simp only [splice, List.length_append, List.length_take, List.length_drop]
  omega

-- Every byte of the result was in the buffer or is a new one.
theorem mem_of_mem_splice (buffer : List α) (start : Nat) (data : List α) (b : α)
    (h : b ∈ splice buffer start data) : b ∈ buffer ∨ b ∈ data := by
  simp only [splice, List.mem_append] at h
  rcases h with (h | h) | h
  · exact Or.inl (List.mem_of_mem_take h)
  · exact Or.inr h
  · exact Or.inl (List.mem_of_mem_drop h)

/-- Replacing one byte and then those behind it is one replacement. -/
theorem splice_set (buffer : List α) (start : Nat) (b : α) (rest : List α)
    (h : start < buffer.length) :
    splice (buffer.set start b) (start + 1) rest = splice buffer start (b :: rest) := by
  have htake : (buffer.set start b).take (start + 1) = buffer.take start ++ [b] := by
    rw [List.take_succ_eq_append_getElem (by rw [List.length_set]; exact h),
      List.getElem_set_self, List.take_set_of_le (Nat.le_refl start)]
  have hdrop : (buffer.set start b).drop (start + 1 + rest.length)
      = buffer.drop (start + (rest.length + 1)) := by
    rw [List.drop_set_of_lt (by omega)]
    congr 1
    omega
  rw [splice, splice, htake, hdrop, List.length_cons, List.append_assoc (buffer.take start),
    List.singleton_append]

/-- Every position inside the run holds a new byte, and every other position
    what it held. -/
theorem getElem?_splice (buffer : List α) (start : Nat) (data : List α) (i : Nat)
    (h : start + data.length ≤ buffer.length) :
    (splice buffer start data)[i]? =
      if start ≤ i ∧ i < start + data.length then data[i - start]? else buffer[i]? := by
  have hlen : (buffer.take start).length = start := by
    rw [List.length_take]
    omega
  -- The position is before the run, in it, or behind it.
  unfold splice
  by_cases hlow : i < start
  · rw [if_neg (by omega), List.append_assoc, List.getElem?_append_left (by omega),
      List.getElem?_take_of_lt hlow]
  · by_cases hin : i < start + data.length
    · rw [if_pos ⟨by omega, hin⟩, List.append_assoc, List.getElem?_append_right (by omega),
        List.getElem?_append_left (by omega), hlen]
    · rw [if_neg (by omega), List.getElem?_append_right (by rw [List.length_append]; omega),
        List.getElem?_drop, List.length_append, hlen]
      congr 1
      omega

/-- The replaced run holds the new bytes. -/
theorem take_drop_splice (buffer : List α) (start : Nat) (data : List α)
    (h : start ≤ buffer.length) :
    ((splice buffer start data).drop start).take data.length = data := by
  have hlen : (buffer.take start).length = start := by
    rw [List.length_take]
    omega
  rw [splice, List.append_assoc, List.drop_append_of_le_length (by omega),
    List.drop_of_length_le (by omega), List.nil_append, List.take_left]

/-- Replacing a run by what it holds changes nothing. -/
theorem splice_take_drop (buffer : List α) (start count : Nat)
    (h : start + count ≤ buffer.length) :
    splice buffer start ((buffer.drop start).take count) = buffer := by
  have hcount : ((buffer.drop start).take count).length = count := by
    rw [List.length_take, List.length_drop]
    omega
  rw [splice, hcount, List.append_assoc, ← List.drop_drop, List.take_append_drop,
    List.take_append_drop]

/-- Of two replacements of one run the second counts. -/
theorem splice_splice (buffer : List α) (start : Nat) (data data' : List α)
    (h : start + data.length ≤ buffer.length) (hlength : data'.length = data.length) :
    splice (splice buffer start data) start data' = splice buffer start data' := by
  have hlen := length_splice buffer start data h
  refine List.ext_getElem? fun i => ?_
  rw [getElem?_splice _ _ _ i (by omega), getElem?_splice _ _ _ i h,
    getElem?_splice _ _ _ i (by omega), hlength]
  by_cases hi : start ≤ i ∧ i < start + data.length
  · rw [if_pos hi, if_pos hi]
  · rw [if_neg hi, if_neg hi, if_neg hi]

/-- Replacements of runs without a common position commute. -/
theorem splice_comm (buffer : List α) (start start' : Nat) (data data' : List α)
    (h : start + data.length ≤ buffer.length) (h' : start' + data'.length ≤ buffer.length)
    (apart : ∀ i, ¬ ((start ≤ i ∧ i < start + data.length) ∧
      (start' ≤ i ∧ i < start' + data'.length))) :
    splice (splice buffer start data) start' data' =
      splice (splice buffer start' data') start data := by
  have hs : start' + data'.length ≤ (splice buffer start data).length := by
    rw [length_splice _ _ _ h]
    exact h'
  have hs' : start + data.length ≤ (splice buffer start' data').length := by
    rw [length_splice _ _ _ h']
    exact h
  refine List.ext_getElem? fun i => ?_
  rw [getElem?_splice _ _ _ i hs, getElem?_splice _ _ _ i h, getElem?_splice _ _ _ i hs',
    getElem?_splice _ _ _ i h']
  by_cases hi : start ≤ i ∧ i < start + data.length
  · -- A position of the first run is none of the second.
    rw [if_pos hi, if_neg fun hi' => apart i ⟨hi, hi'⟩, if_pos hi]
  · rw [if_neg hi, if_neg hi]

end Bytes

end BoardSupport
