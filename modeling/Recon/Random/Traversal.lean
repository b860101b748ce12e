import Recon.Random.KeyStream

/-!
# Traversals

A traversal visits every index below a length once, in an order that looks random but needs no
memory: it starts anywhere and goes on by a fixed step that has no common divisor with the length,
starting over at the end.  The step is drawn from the middle half of the length, so that
neighbouring visits lie far apart.
-/

namespace Recon

/-- An order of the indices below `size`: the first one, and the step to the next. -/
structure Traversal where
  size : Nat
  first : Nat
  step : Nat
deriving DecidableEq, Repr, Inhabited

namespace Traversal

/-- How many candidates for the step are drawn before it falls back to `size - 1`. -/
def maxTries : Nat := 10

def lowStep (size : Nat) : Nat := max (size / 4) 1

def highStep (size : Nat) : Nat := size - size / 4

theorem lowStep_lt_highStep {size : Nat} (h : 2 < size) : lowStep size < highStep size := by
  unfold lowStep highStep
  omega

/-- Draws candidates until one has no common divisor with the size; `size - 1` never has one. -/
def drawStep {σ : Type} (d : Draws σ) (size : Nat) (h : 2 < size) : Nat → σ → Nat × σ
  | 0, s => (size - 1, s)
  | tries + 1, s =>
    let (candidate, s) := d.between s (lowStep size) (highStep size) (lowStep_lt_highStep h)
    if Nat.gcd size candidate = 1 then (candidate, s) else drawStep d size h tries s

def draw {σ : Type} (d : Draws σ) (size : Nat) (s : σ) : Traversal × σ :=
  if h : size = 0 then (⟨size, 0, 1⟩, s)
  else
    let (first, s) := d.below s size (by omega)
    if h2 : 2 < size then
      let (step, s) := drawStep d size h2 maxTries s
      (⟨size, first, step⟩, s)
    else (⟨size, first, 1⟩, s)

def ofSeed (size : Nat) (seed : UInt64) : Traversal :=
  (draw KeyStream.draws size (KeyStream.ofSeed seed)).1

/-- Whether a traversal can be one that is drawn: its step has no common divisor with its size,
and is neither a small nor a large part of it unless it is the last resort. -/
def isProper (t : Traversal) : Bool :=
  t.first < t.size && Nat.gcd t.size t.step == 1 &&
    ((lowStep t.size ≤ t.step && t.step < highStep t.size) || t.step == t.size - 1)

def get (t : Traversal) (i : Nat) : Nat :=
  if t.size = 0 then 0 else (t.first + i * t.step) % t.size

def order (t : Traversal) : List Nat := (List.range t.size).map t.get

def visitsAll (t : Traversal) : Bool := t.order.mergeSort (· ≤ ·) == List.range t.size

end Traversal

end Recon
