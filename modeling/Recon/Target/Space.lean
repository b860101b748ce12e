import Recon.Target.Block
import Recon.Text.Split

/-!
# Target lists

A target list is a comma separated list of items, each of which names a block.  The blocks are
kept in the order of the list and may overlap; blank items are skipped.  A list without any item
names nothing and is refused.
-/

namespace Recon

open Recon.Text

structure TargetList where
  blocks : List Block
deriving DecidableEq, Repr, Inhabited

namespace TargetList

def readItems : List (List Char) → Except TargetFault (List Block)
  | [] => .ok []
  | item :: rest =>
    match Block.read item with
    | .error fault => .error fault
    | .ok block => (readItems rest).map (block :: ·)

def read (cs : List Char) : Except TargetFault TargetList :=
  match readItems (items cs) with
  | .error fault => .error fault
  | .ok [] => .error .noTargets
  | .ok blocks => .ok ⟨blocks⟩

def ofString (s : String) : Except TargetFault TargetList := read s.toList

/-- The number of addresses over all blocks, an address in two blocks counting twice. -/
def size (t : TargetList) : Nat := Block.total t.blocks

end TargetList

end Recon
