import BoardSupport.Region
import Mathlib.Algebra.Group.Nat.Defs
import Mathlib.Data.Set.Basic
import Mathlib.Order.Interval.Set.Defs

/-!
# Addresses of a Region

The predicates on regions are about one set of addresses.

The end of a region saturates, so the top address of the address space is in no region, and a
region that would pass the end of the address space stops one short of it. What is in a region
is therefore said by exact sums and one exception. The saturated end is the least of both
bounds, and each predicate compares with it and nothing else. So what it says is what the set
says, also where a region reaches the top or lies at it.

A run of bytes is within a region if each of them is, and the bytes of a run are counted
without wrapping around. Regions overlap if they share an address. That makes overlapping
symmetric, and a region without addresses overlaps none, however large it is said to be.

## Main definitions

* `Region.addresses`: The addresses of a region.

## Theorems

* `PhysicalAddress.exists_add?`: A sum that is an address.
* `Region.toNat_stop`: The saturated end as the lesser of two bounds.
* `Region.mem_addresses_iff`: The addresses lie between the base and the saturated end.
* `Region.contains_iff`, `Region.containsRange_iff`, `Region.overlaps_iff`: What each predicate
  says about the addresses.
* `Region.addresses_eq_empty_iff`: Which regions have none.
* `Region.predicates_agree`: The predicates agree on them.
-/

namespace BoardSupport

/-- A sum that is a word is the address so much further up. -/
theorem PhysicalAddress.exists_add? (a : PhysicalAddress) (distance : UInt64)
    (h : a.value.toNat + distance.toNat < UInt64.size) :
    ∃ past, a.add? distance = some past ∧
      past.value.toNat = a.value.toNat + distance.toNat := by
  refine ⟨⟨a.value + distance⟩, if_pos h, ?_⟩
  rw [UInt64.toNat_add]
  exact Nat.mod_eq_of_lt h

namespace Region

/-- The addresses of a region: as many as its size from the base on, but never the top of the
    address space. -/
def addresses (r : Region) : Set PhysicalAddress :=
  {a | r.base.value.toNat ≤ a.value.toNat ∧
    a.value.toNat < r.base.value.toNat + r.size.toNat ∧ a.value.toNat ≠ 2 ^ 64 - 1}

/-- The end saturates at the top of the address space. -/
theorem toNat_stop (r : Region) :
    r.stop.value.toNat = min (r.base.value.toNat + r.size.toNat) (2 ^ 64 - 1) := by
  unfold stop
  by_cases hfits : r.base.value.toNat + r.size.toNat < UInt64.size
  · obtain ⟨past, hpast, hsum⟩ := r.base.exists_add? r.size hfits
    have hbelow : r.base.value.toNat + r.size.toNat ≤ 2 ^ 64 - 1 := Nat.le_pred_of_lt hfits
    rw [hpast, Option.getD_some, hsum, Nat.min_eq_left hbelow]
  · have habove : 2 ^ 64 - 1 ≤ r.base.value.toNat + r.size.toNat :=
      Nat.le_trans (Nat.sub_le _ _) (Nat.le_of_not_lt hfits)
    rw [PhysicalAddress.add?, if_neg hfits, Option.getD_none, Nat.min_eq_right habove]
    rfl

/-- The addresses are those from the base up to the saturated end. -/
theorem mem_addresses_iff (r : Region) (a : PhysicalAddress) :
    a ∈ r.addresses ↔
      r.base.value.toNat ≤ a.value.toNat ∧ a.value.toNat < r.stop.value.toNat := by
  have htop : a.value.toNat < 2 ^ 64 := a.value.toNat_lt
  rw [toNat_stop]
  change r.base.value.toNat ≤ a.value.toNat ∧
    a.value.toNat < r.base.value.toNat + r.size.toNat ∧ a.value.toNat ≠ 2 ^ 64 - 1 ↔ _
  omega

/-- A region contains its addresses. -/
theorem contains_iff (r : Region) (a : PhysicalAddress) :
    r.contains a = true ↔ a ∈ r.addresses := by
  rw [mem_addresses_iff, contains, Bool.and_eq_true, decide_eq_true_eq, decide_eq_true_eq,
    UInt64.le_iff_toNat_le, UInt64.lt_iff_toNat_lt]

/-- A run of bytes is measured against the base and the saturated end. -/
theorem containsRange_eq_true_iff (r : Region) (a : PhysicalAddress) (length : UInt64) :
    r.containsRange a length = true ↔
      r.base.value.toNat ≤ a.value.toNat ∧
        a.value.toNat + length.toNat ≤ r.stop.value.toNat := by
  unfold containsRange
  by_cases hfits : a.value.toNat + length.toNat < UInt64.size
  · obtain ⟨past, hpast, hsum⟩ := a.exists_add? length hfits
    simp only [hpast, Bool.and_eq_true, decide_eq_true_eq, UInt64.le_iff_toNat_le, hsum]
  · -- A run that passes the end of the address space passes every end.
    have hstop : r.stop.value.toNat < UInt64.size := r.stop.value.toNat_lt
    rw [PhysicalAddress.add?, if_neg hfits]
    simp only [Bool.false_eq_true, false_iff]
    omega

/-- A run of at least one byte lies in a region if every byte of it does. -/
theorem containsRange_iff (r : Region) (a : PhysicalAddress) (length : UInt64)
    (hlength : 0 < length) :
    r.containsRange a length = true ↔
      ∀ n ∈ Set.Ico a.value.toNat (a.value.toNat + length.toNat),
        ∃ b ∈ r.addresses, b.value.toNat = n := by
  have hpos : 0 < length.toNat := UInt64.lt_iff_toNat_lt.mp hlength
  rw [containsRange_eq_true_iff]
  constructor
  · rintro ⟨hbase, hstop⟩ n ⟨hfrom, hbelow⟩
    -- Below the saturated end every number is the number of an address.
    have hword : n < UInt64.size :=
      Nat.lt_trans (Nat.lt_of_lt_of_le hbelow hstop) r.stop.value.toNat_lt
    have hn : (UInt64.ofNat n).toNat = n := UInt64.toNat_ofNat_of_lt hword
    refine ⟨⟨UInt64.ofNat n⟩, (mem_addresses_iff _ _).mpr ⟨?_, ?_⟩, hn⟩
    · rw [hn]
      exact Nat.le_trans hbase hfrom
    · rw [hn]
      exact Nat.lt_of_lt_of_le hbelow hstop
  · intro hall
    -- The first and the last byte are the ones that tell.
    obtain ⟨first, hfirst, heq⟩ := hall a.value.toNat ⟨Nat.le_refl _, by omega⟩
    obtain ⟨last, hlast, hend⟩ := hall (a.value.toNat + length.toNat - 1)
      ⟨by omega, by omega⟩
    have hbase := ((mem_addresses_iff _ _).mp hfirst).1
    have hstop := ((mem_addresses_iff _ _).mp hlast).2
    omega

/-- Two regions that are not empty are measured base against saturated end. -/
theorem overlaps_eq_true_iff (r other : Region) :
    r.overlaps other = true ↔
      r.size.toNat ≠ 0 ∧ other.size.toNat ≠ 0 ∧
        r.base.value.toNat < other.stop.value.toNat ∧
        other.base.value.toNat < r.stop.value.toNat := by
  have hsize : ∀ size : UInt64, (size != 0) = true ↔ size.toNat ≠ 0 := fun size => by
    rw [bne_iff_ne, ne_eq, ← UInt64.toNat_inj]
    rfl
  simp only [overlaps, Bool.and_eq_true, hsize, decide_eq_true_eq, UInt64.lt_iff_toNat_lt,
    and_assoc]

/-- Regions overlap if they share an address. -/
theorem overlaps_iff (r other : Region) :
    r.overlaps other = true ↔ (r.addresses ∩ other.addresses).Nonempty := by
  have hr := r.toNat_stop
  have hother := other.toNat_stop
  rw [overlaps_eq_true_iff]
  constructor
  · rintro ⟨hsize, hsize', hbelow, hbelow'⟩
    -- The higher of the two bases is shared. Both lie below an end, so neither is the top
    -- address, where a size would be no room.
    rcases Nat.le_total r.base.value.toNat other.base.value.toNat with hle | hle
    · exact ⟨other.base, (r.mem_addresses_iff _).mpr ⟨hle, hbelow'⟩,
        (other.mem_addresses_iff _).mpr ⟨Nat.le_refl _, by omega⟩⟩
    · exact ⟨r.base, (r.mem_addresses_iff _).mpr ⟨Nat.le_refl _, by omega⟩,
        (other.mem_addresses_iff _).mpr ⟨hle, hbelow⟩⟩
  · rintro ⟨a, ha, ha'⟩
    obtain ⟨hbase, hstop⟩ := (r.mem_addresses_iff a).mp ha
    obtain ⟨hbase', hstop'⟩ := (other.mem_addresses_iff a).mp ha'
    omega

/-- A region has no addresses if its size is zero or its base is the top of the address space. -/
theorem addresses_eq_empty_iff (r : Region) :
    r.addresses = ∅ ↔ r.size.toNat = 0 ∨ r.base.value.toNat = 2 ^ 64 - 1 := by
  rw [Set.eq_empty_iff_forall_notMem]
  constructor
  · -- Otherwise the base itself is one.
    intro hnone
    have hbase : r.base ∉ r.addresses := hnone r.base
    by_contra hneither
    obtain ⟨hsize, htop⟩ := not_or.mp hneither
    exact hbase ⟨Nat.le_refl _, by omega, htop⟩
  · rintro hor a ⟨hbase, hbelow, hne⟩
    have hword : a.value.toNat < 2 ^ 64 := a.value.toNat_lt
    omega

/-- The predicates agree on one set of addresses. -/
theorem predicates_agree (r other : Region) :
    (∀ a, r.contains a = true ↔ a ∈ r.addresses) ∧
      (∀ a length, 0 < length → (r.containsRange a length = true ↔
        ∀ n ∈ Set.Ico a.value.toNat (a.value.toNat + length.toNat),
          ∃ b ∈ r.addresses, b.value.toNat = n)) ∧
      (r.overlaps other = true ↔ (r.addresses ∩ other.addresses).Nonempty) ∧
      r.overlaps other = other.overlaps r ∧
      (r.addresses = ∅ → r.overlaps other = false ∧ other.overlaps r = false) ∧
      (r.addresses = ∅ ↔ r.size.toNat = 0 ∨ r.base.value.toNat = 2 ^ 64 - 1) := by
  have hsymm : r.overlaps other = other.overlaps r := by
    rw [Bool.eq_iff_iff, overlaps_iff, overlaps_iff, Set.inter_comm]
  refine ⟨r.contains_iff, r.containsRange_iff, overlaps_iff r other, hsymm, ?_,
    r.addresses_eq_empty_iff⟩
  intro hempty
  have hnone : r.overlaps other = false := by
    rw [← Bool.not_eq_true, overlaps_iff, hempty, Set.empty_inter]
    exact Set.not_nonempty_empty
  exact ⟨hnone, hsymm ▸ hnone⟩

-- A region of one byte at the top address, and one that is said to reach past it.
theorem predicates_agree_top :
    let top : Region := ⟨⟨0xFFFFFFFFFFFFFFFF⟩, 1⟩
    let high : Region := ⟨⟨0xFFFFFFFFFFFFFFF0⟩, 0x20⟩
    (0 : UInt64) < 15 ∧
      (∀ n ∈ Set.Ico 0xFFFFFFFFFFFFFFF0 (0xFFFFFFFFFFFFFFF0 + 15),
        ∃ b ∈ high.addresses, b.value.toNat = n) ∧
      top.addresses = ∅ ∧ top.overlaps high = false ∧ high.overlaps top = false := by
  intro top high
  obtain ⟨-, hrange, -⟩ := predicates_agree high top
  obtain ⟨-, -, -, -, hnone, hempty⟩ := predicates_agree top high
  have htop : top.addresses = ∅ := hempty.mpr (Or.inr (by decide))
  exact ⟨by decide, (hrange ⟨0xFFFFFFFFFFFFFFF0⟩ 15 (by decide)).mp (by decide), htop,
    hnone htop⟩

end Region

end BoardSupport
