import Mathlib.Algebra.Group.Nat.Defs
import BoardSupport.Device.Memory

/-!
# Words in Memory

What storing a word leaves behind, and what loading one gives.

Words overlap, so the question about two of them is whether they share a byte.
Storing a word changes its own bytes and no others. Loading looks at the bytes
of a word alone. So a word that has just been stored is loaded again, and a
word that lies apart from it is what it was.

## Theorems

* `Memory.byte_store_of_outside`: The bytes outside a stored word.
* `Memory.load_congr`: A word depends on its bytes alone.
* `Memory.load_store`: A word just stored, cut to its bytes.
* `Memory.load_store_of_apart`: A word that lies apart from it.
* `Memory.ofNat_load_store`: A word of some bits that was stored whole.
-/

namespace BoardSupport

namespace Memory

/-- The bytes outside a word stay when it is stored. -/
theorem byte_store_of_outside (m : Memory) (count address n other : Nat)
    (h : other < address ∨ address + count ≤ other) :
    (m.store count address n).byte other = m.byte other := by
  -- The bytes are stored from the lowest on, each in the memory with those before
  -- it.
  induction count generalizing address n m with
  | zero => rfl
  | succ count ih =>
      have hother : other ≠ address := by omega
      rw [store, ih _ _ _ (by omega), byte_setByte, if_neg hother]

/-- A word depends on its bytes alone. -/
theorem load_congr (m m' : Memory) (count address : Nat)
    (h : ∀ i, address ≤ i → i < address + count → m.byte i = m'.byte i) :
    m.load count address = m'.load count address := by
  induction count generalizing address with
  | zero => rfl
  | succ count ih =>
      have hlow : m.byte address = m'.byte address := h address (Nat.le_refl _) (by omega)
      have hhigh := ih (address + 1) fun i hi hlt => h i (by omega) (by omega)
      rw [load, load, hlow, hhigh]

/-- What is loaded after a store are the bytes that were stored. -/
theorem load_store (m : Memory) (count address n : Nat) :
    (m.store count address n).load count address = n % 256 ^ count := by
  induction count generalizing address n m with
  | zero => rw [load, Nat.pow_zero, Nat.mod_one]
  | succ count ih =>
      have hlow : (m.store (count + 1) address n).byte address = UInt8.ofNat (n % 256) := by
        rw [store, byte_store_of_outside _ _ _ _ _ (Or.inl (Nat.lt_succ_self address)),
          byte_setByte, if_pos rfl]
      have hbyte : (UInt8.ofNat (n % 256)).toNat = n % 256 :=
        UInt8.toNat_ofNat_of_lt' (Nat.mod_lt n (by decide))
      calc (m.store (count + 1) address n).load (count + 1) address
          = n % 256 + 256 * (m.store (count + 1) address n).load count (address + 1) := by
            rw [load, hlow, hbyte]
        _ = n % 256 + 256 * (n / 256 % 256 ^ count) := by rw [store, ih]
        _ = n % 256 ^ (count + 1) := by rw [Nat.pow_succ', Nat.mod_mul]

/-- A word that shares no byte with the one stored stays. -/
theorem load_store_of_apart (m : Memory) (count address n count' address' : Nat)
    (h : address' + count' ≤ address ∨ address + count ≤ address') :
    (m.store count address n).load count' address' = m.load count' address' :=
  load_congr _ _ _ _ fun i hi hlt => byte_store_of_outside m count address n i (by omega)

/-- A word that fills whole bytes is loaded as it was stored. -/
theorem ofNat_load_store (m : Memory) {bits : Nat} (count address : Nat) (word : BitVec bits)
    (h : bits = 8 * count) :
    BitVec.ofNat bits ((m.store count address word.toNat).load count address) = word := by
  have hfits : word.toNat < 256 ^ count := by
    have hpow : 256 ^ count = 2 ^ bits := by rw [h, Nat.pow_mul]
    rw [hpow]
    exact word.isLt
  rw [load_store, Nat.mod_eq_of_lt hfits, BitVec.ofNat_toNat, BitVec.setWidth_eq]

end Memory

end BoardSupport
