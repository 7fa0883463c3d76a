import BoardSupport.Proofs.Config.Image
import Mathlib.Order.Bounds.Basic

/-!
# Reading an Image

Reading undoes writing, and what cannot have been written is refused for a reason that can be
looked up in it.

The image of a configuration is written CPU by CPU and read byte by byte, by two walks that know
nothing of each other. That they agree is one equivalence: bytes are read as a configuration
exactly if they are its image. So nothing else is read, nothing is read in two ways, and no two
configurations have one image.

The walk that reads names a byte by what it has passed when it stops there. Seen in the bytes
themselves, it is the first of those that are no booleans, and `isLeast_strays_iff` takes one to
the other: the place of a byte is the least stray one exactly if only booleans are before it.
With that, each refusal is given by the bytes alone, and it is the only one.

## Main definitions

* `Config.strays`: The places of bytes that are no booleans.
* `Config.Undecodable`: Why bytes are no image.

## Theorems

* `Config.isLeast_strays_iff`: The first place that is astray.
* `Config.CpuSet.ofBytes_eq_error_iff`: Which refusal it is.
* `Config.CpuSet.ofBytes_inverts`: What comes of reading any bytes.
-/

namespace BoardSupport

namespace Config

/-- The places of bytes that are no booleans. -/
def strays (bytes : List UInt8) : Set Nat :=
  {index | ∃ b, bytes[index]? = some b ∧ ¬IsBoolean b}

/-- Why bytes are not the image of a configuration: there are too many or too few, or the byte
    at the first stray place is none that belongs to an image. -/
inductive Undecodable (bytes : List UInt8) : Error → Prop where
  | length (unlike : bytes.length ≠ 8) :
      Undecodable bytes (.invalidLength 8 bytes.length)
  | boolean (alike : bytes.length = 8) (index : Nat) (b : UInt8)
      (first : IsLeast (strays bytes) index) (named : bytes[index]? = some b) :
      Undecodable bytes (.invalidBoolean index b)

/-- A byte is at the first stray place exactly if it is no boolean and only booleans are before
    it. -/
theorem isLeast_strays_iff (bytes : List UInt8) (index : Nat) (b : UInt8) :
    IsLeast (strays bytes) index ∧ bytes[index]? = some b ↔
      ∃ before after, bytes = before ++ b :: after ∧ before.length = index ∧
        (∀ x ∈ before, IsBoolean x) ∧ ¬IsBoolean b := by
  constructor
  · rintro ⟨⟨⟨b', hb', hstray⟩, hleast⟩, hb⟩
    obtain rfl : b' = b := Option.some.inj (hb'.symm.trans hb)
    obtain ⟨hlt, hget⟩ := List.getElem?_eq_some_iff.mp hb
    refine ⟨bytes.take index, bytes.drop (index + 1), ?_, ?_, ?_, hstray⟩
    · rw [← hget, ← List.drop_eq_getElem_cons hlt, List.take_append_drop]
    · exact List.length_take_of_le (Nat.le_of_lt hlt)
    · intro x hx
      obtain ⟨i, hi, rfl⟩ := List.mem_take_iff_getElem.mp hx
      -- A stray byte before the place would be at a lesser one.
      by_contra hx'
      have hin : i ∈ strays bytes :=
        ⟨bytes[i], List.getElem?_eq_getElem _, hx'⟩
      have := hleast hin
      omega
  · rintro ⟨before, after, rfl, rfl, hall, hstray⟩
    have hb : (before ++ b :: after)[before.length]? = some b := by
      rw [List.getElem?_append_right (Nat.le_refl _), Nat.sub_self, List.getElem?_cons_zero]
    refine ⟨⟨⟨b, hb, hstray⟩, ?_⟩, hb⟩
    rintro i ⟨x, hx, hx'⟩
    by_contra hlt
    rw [List.getElem?_append_left (Nat.lt_of_not_le hlt)] at hx
    exact hx' (hall x (List.mem_of_getElem? hx))

namespace CpuSet

/-- Bytes are refused exactly for the reason given. -/
theorem ofBytes_eq_error_iff (bytes : List UInt8) (cause : Error) :
    ofBytes bytes = .error cause ↔ Undecodable bytes cause := by
  constructor
  · intro h
    by_cases hlen : bytes.length = maxCpus
    · rcases ofBytes_eq_error bytes cause h with
        ⟨hne, -⟩ | ⟨before, b, after, hparts, hall, hstray, rfl⟩
      · exact absurd hlen hne
      · obtain ⟨hfirst, hnamed⟩ := (isLeast_strays_iff bytes before.length b).mpr
          ⟨before, after, hparts, rfl, hall, hstray⟩
        exact .boolean hlen _ b hfirst hnamed
    · rw [ofBytes, dif_neg hlen] at h
      cases h
      exact .length hlen
  · intro h
    cases h with
    | length unlike => exact dif_neg unlike
    | boolean alike index b first named =>
        obtain ⟨before, after, rfl, rfl, hall, hstray⟩ :=
          (isLeast_strays_iff bytes index b).mp ⟨first, named⟩
        exact ofBytes_of_stray before b after alike hall hstray

/-- Bytes are read as a configuration exactly if they are its image, and refused exactly for the
    first thing that is wrong with them. -/
theorem ofBytes_inverts (bytes : List UInt8) :
    (∀ c, ofBytes bytes = .ok c ↔ bytes = c.toBytes) ∧
      ∀ cause, ofBytes bytes = .error cause ↔ Undecodable bytes cause :=
  ⟨ofBytes_eq_ok_iff bytes, ofBytes_eq_error_iff bytes⟩

-- Two bytes are astray, and the first of them is named.
example : ofBytes [1, 0, 1, 0, 2, 0, 7, 0] = .error (.invalidBoolean 4 2) := by
  decide

end CpuSet

end Config

end BoardSupport
