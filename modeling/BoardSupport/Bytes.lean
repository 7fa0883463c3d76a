/-!
# Byte Sequences

Numbers as bytes in either order, and long sequences cut into short ones.

## Main definitions

* `Bytes.littleEndian`, `Bytes.bigEndian`: A number as a given count of bytes.
* `Bytes.chunks`: A sequence in pieces of a given length, the last one
  possibly shorter.
* `Bytes.overlay`: A buffer whose beginning has been overwritten.

## Theorems

* `Bytes.length_bigEndian`: As many bytes as asked for.
* `Bytes.length_le_of_mem_chunks`: No piece is longer than asked for.
* `Bytes.overlay_take`, `Bytes.overlay_of_length_eq`: What fits into a buffer.
-/

namespace BoardSupport

namespace Bytes

/-- The low `count` bytes of a number, lowest first. -/
def littleEndian : (count n : Nat) → List UInt8
  | 0, _ => []
  | count + 1, n => UInt8.ofNat (n % 256) :: littleEndian count (n / 256)

/-- The low `count` bytes of a number, highest first. -/
def bigEndian (count n : Nat) : List UInt8 :=
  (littleEndian count n).reverse

theorem length_littleEndian (count n : Nat) : (littleEndian count n).length = count := by
  induction count generalizing n with
  | zero => rfl
  | succ count ih => exact congrArg Nat.succ (ih (n / 256))

@[simp] theorem length_bigEndian (count n : Nat) : (bigEndian count n).length = count := by
  rw [bigEndian, List.length_reverse, length_littleEndian]

/-- A list in pieces of `size` elements, the last one possibly shorter. The
    empty list has no pieces. -/
def chunks {α : Type} (size : Nat) (xs : List α) : List (List α) :=
  match xs with
  | [] => []
  | x :: rest => (x :: rest.take (size - 1)) :: chunks size (rest.drop (size - 1))
termination_by xs.length
decreasing_by
  simp only [List.length_cons, List.length_drop]
  omega

/-- No piece is longer than asked for. -/
theorem length_le_of_mem_chunks {α : Type} (size : Nat) (hsize : 0 < size) (xs : List α) :
    ∀ chunk ∈ chunks size xs, chunk.length ≤ size := by
  induction xs using chunks.induct size with
  | case1 =>
      rw [chunks]
      exact fun _ h => absurd h List.not_mem_nil
  | case2 x rest ih =>
      rw [chunks]
      intro chunk h
      rcases List.mem_cons.mp h with rfl | h
      · rw [List.length_cons, List.length_take]
        omega
      · exact ih chunk h

/-- A buffer after `received` has been written to its beginning. What does not
    fit is dropped, and the rest of the buffer stays. -/
def overlay (received buffer : List UInt8) : List UInt8 :=
  received.take buffer.length ++ buffer.drop received.length

/-- Only what fits counts. -/
theorem overlay_take (received buffer : List UInt8) :
    overlay (received.take buffer.length) buffer = overlay received buffer := by
  rw [overlay, overlay, List.take_take, Nat.min_self, List.length_take]
  congr 1
  by_cases hlong : buffer.length ≤ received.length
  · rw [Nat.min_eq_left hlong, List.drop_length, List.drop_of_length_le hlong]
  · rw [Nat.min_eq_right (Nat.le_of_not_le hlong)]

/-- As many bytes as the buffer has replace all of it. -/
theorem overlay_of_length_eq (received buffer : List UInt8)
    (h : received.length = buffer.length) : overlay received buffer = received := by
  rw [overlay, h, List.drop_length, List.append_nil, ← h, List.take_length]

end Bytes

end BoardSupport
