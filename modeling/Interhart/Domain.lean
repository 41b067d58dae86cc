import Interhart.Log
import Interhart.Region

/-!
# Isolation domains

A domain is a table of at most 64 regions.  Regions are only ever appended, and an
address belongs to the first region that contains it.  A range of device registers is
protected piece by piece: each piece is naturally aligned, and none is larger than a
given power of two.
-/

namespace Interhart

structure Domain where
  regions : List Region := []
deriving DecidableEq

namespace Domain

def capacity : Nat := 64

instance : Inhabited Domain := ⟨{}⟩

/-- Records a region.  One that is recorded already is not recorded again. -/
def record (domain : Domain) (region : Region) : Except Error Domain :=
  if region ∈ domain.regions then .ok domain
  else if domain.regions.length < capacity then .ok ⟨domain.regions ++ [region]⟩
  else .error .tableFull

def find? (domain : Domain) (address : Nat) : Option Region :=
  domain.regions.find? (·.contains address)

def isProtected (domain : Domain) (address : Nat) : Bool :=
  (domain.find? address).any (·.isProtected)

theorem record_eq_ok_iff {domain grown : Domain} {region : Region} :
    domain.record region = .ok grown ↔
      (region ∈ domain.regions ∧ grown = domain) ∨
        (region ∉ domain.regions ∧ domain.regions.length < capacity ∧
          grown = ⟨domain.regions ++ [region]⟩) := by
  unfold record
  by_cases hmem : region ∈ domain.regions
  · simp [hmem, eq_comm]
  · by_cases hlen : domain.regions.length < capacity
    · simp [hmem, hlen, eq_comm]
    · simp [hmem, hlen]

theorem mem_of_record {domain grown : Domain} {region : Region}
    (h : domain.record region = .ok grown) : region ∈ grown.regions := by
  rcases record_eq_ok_iff.mp h with ⟨hmem, rfl⟩ | ⟨_, _, rfl⟩
  · exact hmem
  · exact List.mem_append_right _ (List.mem_singleton_self region)

theorem full_of_record {domain : Domain} {region : Region} {error : Error}
    (h : domain.record region = .error error) :
    error = .tableFull ∧ capacity ≤ domain.regions.length := by
  unfold record at h
  split at h
  · cases h
  · split at h
    · cases h
    · rename_i hfull
      cases h
      exact ⟨rfl, Nat.not_lt.mp hfull⟩

theorem find?_append (regions : List Region) (domain : Domain) (address : Nat) :
    find? ⟨domain.regions ++ regions⟩ address =
      (domain.find? address).or (find? ⟨regions⟩ address) := by
  simp [find?]

/-!
# Protecting a range

The piece at a position that is not a multiple of the largest piece is as large as the
position is aligned; at any other position it is the largest piece, or what is left of
the range.
-/

def pieceSize (position stop order : Nat) : Nat :=
  if position % blockSize order = 0 then min (stop - position) (blockSize order)
  else Nat.gcd position (blockSize order)

theorem pieceSize_pos {position stop : Nat} (order : Nat) (h : position < stop) :
    0 < pieceSize position stop order := by
  have hpos := blockSize_pos order
  unfold pieceSize
  split
  · omega
  · exact Nat.gcd_pos_of_pos_right _ hpos

/-- Records the pieces of a range from `position` on.  A piece that ends at the end of the
address space is the last one, and its end does not fit in a word. -/
def recordPieces {m : Type → Type} [Monad m] [MonadExceptOf Exit m] (record : Region → m Unit)
    (position stop order : Nat) : m Unit :=
  if position < stop then do
    let size := pieceSize position stop order
    record (Region.covering position size .protectedMmio)
    if position + size < blockSize addressBits then
      recordPieces record (position + size) stop order
    else throw (.fault .sumOverflow)
  else pure ()
termination_by stop - position
decreasing_by
  have := pieceSize_pos order ‹position < stop›
  omega

def isPowerOfTwo (n : Nat) : Bool := n != 0 && blockSize n.log2 == n

/-- Records the pieces of the `size` bytes from `base` on, which are cut off at the last
address; no piece is larger than `largest`. -/
def protectWith {m : Type → Type} [Monad m] [MonadExceptOf Exit m] (record : Region → m Unit)
    (base size largest : Nat) : m Unit :=
  if isPowerOfTwo largest then
    recordPieces record base (min (base + size) lastAddress) largest.log2
  else throw (.fault .unevenPiece)

def recordStep (region : Region) : EStateM Exit Domain Unit := fun domain =>
  match domain.record region with
  | .ok domain => .ok () domain
  | .error error => .error (.refused error) domain

def protect (base size largest : Nat) : EStateM Exit Domain Unit :=
  protectWith recordStep base size largest

def addedRecord (region : Region) : LogRecord :=
  { level := .debug
    message := s!"Root domain: region {hexadecimal region.base} order {region.order} " ++
      s!"flags {region.flags.text}" }

end Domain
end Interhart
