import Recon.Random.Word
import Recon.Target.Space

/-!
# Blocks in words

A block whose addresses are words as wide as those of its family, and a list of blocks whose sizes
are added up in words of sixty-four bits.  Each operation is refused where it would go wrong in such
words: an index or a sum that does not fit, a difference below zero.
-/

namespace Recon

namespace Block

/-- An index as it is added to an address of a family. -/
def fittingIndex : Address.Family → Nat → Option Nat
  | .v4, i => fitting UInt32.size i
  | .v6, i => some i

def nth? (b : Block) (i : Nat) : Option (Option Address) := do
  if b.size ≤ i then return none
  let index ← fittingIndex b.first.family i
  let value ← fitting b.first.family.size (b.first.value + index)
  return some (Address.ofValue b.first.family value)

def contains? (b : Block) (a : Address) : Option Bool := do
  if a.family ≠ b.first.family then return false
  if a.value < b.first.value then return false
  let distance ← minus? a.value b.first.value
  return distance < b.size

end Block

def TargetList.size? (t : TargetList) : Option Nat :=
  t.blocks.foldlM (fun n b => fitting UInt64.size (n + b.size)) 0

end Recon
