import Interhart.Text.Numeral

/-!
# Memory regions

A region is a naturally aligned block of `2 ^ order` bytes with access flags.
Addresses are numbers below `2 ^ 64`; the block of order 64 is the whole address space.
The region that covers a range is the smallest block, of order 3 at least, in which the
range fits.
-/

namespace Interhart

def addressBits : Nat := 64

def blockSize (order : Nat) : Nat := 1 <<< order

def lastAddress : Nat := blockSize addressBits - 1

theorem blockSize_pos (order : Nat) : 0 < blockSize order := by
  unfold blockSize
  rw [Nat.one_shiftLeft]
  exact Nat.two_pow_pos order

structure RegionFlags where
  mmio : Bool := false
  readable : Bool := false
  writable : Bool := false
  executable : Bool := false
deriving DecidableEq

namespace RegionFlags

def protectedMmio : RegionFlags := { mmio := true }

def union (a b : RegionFlags) : RegionFlags :=
  ⟨a.mmio || b.mmio, a.readable || b.readable, a.writable || b.writable,
    a.executable || b.executable⟩

def toNat (flags : RegionFlags) : Nat :=
  flags.mmio.toNat + 2 * flags.readable.toNat + 4 * flags.writable.toNat
    + 8 * flags.executable.toNat

def names (flags : RegionFlags) : List String :=
  (if flags.mmio then ["MMIO"] else []) ++ (if flags.readable then ["SU_READABLE"] else [])
    ++ (if flags.writable then ["SU_WRITABLE"] else [])
    ++ (if flags.executable then ["SU_EXECUTABLE"] else [])

def text (flags : RegionFlags) : String :=
  if flags.names.isEmpty then "(empty)" else String.intercalate " | " flags.names

end RegionFlags

structure Region where
  base : Nat
  order : Nat
  flags : RegionFlags
deriving DecidableEq

namespace Region

def minOrder : Nat := 3

def blockStart (address order : Nat) : Nat := address / blockSize order * blockSize order

/-- The order of the smallest block with room for `size` bytes. -/
def orderOf (size : Nat) : Nat := if size ≤ 1 then 0 else (size - 1).log2 + 1

/-- The smallest region that covers the `size` bytes from `base` on, which are cut off at
the last address. -/
def covering (base size : Nat) (flags : RegionFlags) : Region :=
  let stop := min (base + size) lastAddress
  let lowest := max minOrder (orderOf size)
  let fits order := decide (stop - blockStart base order ≤ blockSize order)
  match (List.range' lowest (addressBits - lowest)).find? fits with
  | some order => ⟨blockStart base order, order, flags⟩
  | none => ⟨0, addressBits, flags⟩

def contains (region : Region) (address : Nat) : Bool :=
  decide (addressBits ≤ region.order) || decide (blockStart address region.order = region.base)

/-- Whether the region is device memory out of reach of lower privilege levels. -/
def isProtected (region : Region) : Bool := decide (region.flags = .protectedMmio)

def text (region : Region) : String :=
  s!"MemRegion \x7b base: {region.base}, order: {region.order}, flags: {region.flags.text} \x7d"

theorem blockStart_le (address order : Nat) : blockStart address order ≤ address :=
  Nat.div_mul_le_self _ _

theorem lt_blockStart_add (address order : Nat) :
    address < blockStart address order + blockSize order := by
  have hpos := blockSize_pos order
  have h := Nat.lt_div_mul_add (a := address) hpos
  simpa [blockStart] using h

theorem dvd_blockStart (address order : Nat) : blockSize order ∣ blockStart address order :=
  Nat.dvd_mul_left _ _

@[simp] theorem flags_covering (base size : Nat) (flags : RegionFlags) :
    (covering base size flags).flags = flags := by
  unfold covering
  dsimp only
  split <;> rfl

end Region
end Interhart
