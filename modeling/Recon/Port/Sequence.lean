import Recon.Port.Order
import Recon.Random.Word

/-!
# Sequences of probes

What a specification expands to: its ports in order with the number of those that come first, and
the ports as they are probed, with the others shuffled.  The shuffle is also given with every slice
and access checked and every number a word.
-/

namespace Recon

def Traversal.order? (t : Traversal) : Option (List Nat) := (List.range t.size).mapM t.get?

namespace PortOrder

variable {σ : Type}

def ordered (spec : String) : Except PortFault (List Port × Nat) :=
  match ofString spec with
  | .error fault => .error fault
  | .ok o => .ok (o.ports, o.head.length)

def expand (d : Draws σ) (s : σ) (spec : String) : Except PortFault (List Port × σ) :=
  match ofString spec with
  | .error fault => .error fault
  | .ok o => .ok (o.shuffled d s)

/-- Ports with those after the first `head` shuffled.  It is refused when there are not so many,
when a number is too large for a word, and when an index is not one of the tail. -/
def shuffle? (d : Draws σ) (s : σ) (ports : List Port) (head : Nat) : Option (List Port × σ) := do
  let tail ← if head ≤ ports.length then some (ports.drop head) else none
  if tail.length < 2 then return (ports, s)
  let size ← fitting Traversal.wordSize tail.length
  let (t, s) ← Traversal.draw? d size s
  let indices ← t.order?
  let shuffled ← indices.mapM fun i => tail[i]?
  return (ports.take head ++ shuffled, s)

def expand? (d : Draws σ) (s : σ) (spec : String) : Option (Except PortFault (List Port × σ)) :=
  match ordered spec with
  | .error fault => some (.error fault)
  | .ok (ports, head) => (shuffle? d s ports head).map .ok

end PortOrder

end Recon
