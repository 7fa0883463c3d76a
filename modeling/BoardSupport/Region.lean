import BoardSupport.Address

/-!
# Register Windows

Half-open ranges of physical addresses that hold a device's registers.

A region is a base and a size. Its end is the first address past it, or the
top address when base and size together pass the end of the address space:
the end saturates, and the top address itself is then in no region. The
predicates below all measure against that saturated end, so they agree with
one another on one set of addresses.

## Main definitions

* `Region.stop`: The saturated end of a region.
* `Region.contains`: Whether an address lies in a region.
* `Region.containsRange`: Whether a run of bytes lies in a region.
* `Region.overlaps`: Whether two regions share an address.
-/

namespace BoardSupport

/-- A window of `size` bytes from `base` on. -/
structure Region where
  base : PhysicalAddress
  size : UInt64
  deriving DecidableEq, Repr

namespace Region

/-- The first address past the region, or the top address if that lies past
    the end of the address space. -/
def stop (r : Region) : PhysicalAddress :=
  (r.base.add? r.size).getD ⟨0xFFFFFFFFFFFFFFFF⟩

/-- Whether the address lies in the region. -/
def contains (r : Region) (a : PhysicalAddress) : Bool :=
  r.base.value ≤ a.value && a.value < r.stop.value

/-- Whether `length` bytes from `a` on all lie in the region. A run that passes
    the end of the address space lies in no region. -/
def containsRange (r : Region) (a : PhysicalAddress) (length : UInt64) : Bool :=
  match a.add? length with
  | none => false
  | some past => r.base.value ≤ a.value && past.value ≤ r.stop.value

/-- Whether the regions share an address. An empty region shares none. -/
def overlaps (r other : Region) : Bool :=
  r.size != 0 && other.size != 0 &&
    r.base.value < other.stop.value && other.base.value < r.stop.value

/-- The region as a half-open interval. -/
def display (r : Region) : String :=
  s!"[{r.base.display}, {r.stop.display})"

/-- The region with its fields named. -/
def debug (r : Region) : String :=
  s!"MmioRegion \x7b base: {r.base.debug}, size: {r.size.toNat} \x7d"

end Region

end BoardSupport
