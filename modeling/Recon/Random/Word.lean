import Recon.Random.Traversal

/-!
# Traversals in words

A traversal whose numbers are words of sixty-four bits, with one product and one sum in twice as
many bits.  Each operation is refused where it would go wrong in such numbers: a result that does
not fit, a difference below zero, a division by zero, a draw from an empty range.
-/

namespace Recon

def fitting (limit n : Nat) : Option Nat := if n < limit then some n else none

def minus? (a b : Nat) : Option Nat := if b ≤ a then some (a - b) else none

def modulo? (a b : Nat) : Option Nat := if b = 0 then none else some (a % b)

def Draws.range? {σ : Type} (d : Draws σ) (s : σ) (lo hi : Nat) : Option (Nat × σ) :=
  if h : lo < hi then some (d.between s lo hi h) else none

namespace Traversal

def wordSize : Nat := UInt64.size

def wideSize : Nat := UInt64.size * UInt64.size

def tryStep? {σ : Type} (d : Draws σ) (size lo hi : Nat) : Nat → σ → Option (Nat × σ)
  | 0, s => do
    let last ← minus? size 1
    return (last, s)
  | tries + 1, s => do
    let (candidate, s) ← d.range? s lo hi
    if Nat.gcd size candidate = 1 then return (candidate, s)
    tryStep? d size lo hi tries s

/-- Draws a step.  There is no choice for a size of one or two. -/
def drawStep? {σ : Type} (d : Draws σ) (size : Nat) (s : σ) : Option (Nat × σ) := do
  if size ≤ 2 then return (1, s)
  let hi ← minus? size (size / 4)
  tryStep? d size (max (size / 4) 1) hi maxTries s

def draw? {σ : Type} (d : Draws σ) (size : Nat) (s : σ) : Option (Traversal × σ) := do
  if size = 0 then return (⟨size, 0, 1⟩, s)
  let (first, s) ← d.range? s 0 size
  let (step, s) ← drawStep? d size s
  return (⟨size, first, step⟩, s)

def get? (t : Traversal) (i : Nat) : Option Nat := do
  if t.size = 0 then return 0
  let way ← fitting wideSize (i * t.step)
  let place ← fitting wideSize (t.first + way)
  let index ← modulo? place t.size
  fitting wordSize index

end Traversal

end Recon
