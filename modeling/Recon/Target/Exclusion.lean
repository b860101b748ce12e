import Std.Data.HashSet
import Recon.Target.Space

/-!
# Excluded addresses

The addresses a task must never probe, given in the syntax of targets.  The addresses of small
blocks are gathered in a set; a block too wide for that is kept as a range.  Either way an address
is excluded exactly when some block contains it.
-/

namespace Recon

open Recon.Text

/-- Excluded addresses: single ones, and the blocks that are too wide to be listed. -/
structure Exclusions where
  listed : Std.HashSet Address
  wide : List Block

namespace Exclusions

def listLimit : Nat := 65536

def empty : Exclusions := ⟨∅, []⟩

def add (e : Exclusions) (b : Block) : Exclusions :=
  if b.size ≤ listLimit then { e with listed := e.listed.insertMany b.addresses }
  else { e with wide := e.wide ++ [b] }

def ofBlocks (blocks : List Block) : Exclusions := blocks.foldl add empty

/-- Reads an exclusion list; a blank one excludes nothing. -/
def read (cs : List Char) : Except TargetFault Exclusions :=
  if (trim cs).isEmpty then .ok empty
  else (TargetList.read cs).map fun t => ofBlocks t.blocks

def ofString (s : String) : Except TargetFault Exclusions := read s.toList

def excludes (e : Exclusions) (a : Address) : Bool :=
  e.listed.contains a || e.wide.any (·.contains a)

def isEmpty (e : Exclusions) : Bool := e.listed.isEmpty && e.wide.isEmpty

def listedCount (e : Exclusions) : Nat := e.listed.size

def wideCount (e : Exclusions) : Nat := e.wide.length

end Exclusions

end Recon
