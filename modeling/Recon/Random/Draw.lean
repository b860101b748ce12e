/-!
# Random draws

A source of draws answers every request for a number below a bound with such a number and a new
state.  What is built from draws is stated for every source, so it holds whatever is drawn.
-/

namespace Recon

/-- A source of numbers: from a state, a number below the bound and the next state. -/
structure Draws (σ : Type) where
  below : σ → (n : Nat) → 0 < n → Fin n × σ

def Draws.between {σ : Type} (d : Draws σ) (s : σ) (lo hi : Nat) (h : lo < hi) : Nat × σ :=
  let (k, s) := d.below s (hi - lo) (by omega)
  (lo + k, s)

theorem Draws.le_between {σ : Type} (d : Draws σ) (s : σ) (lo hi : Nat) (h : lo < hi) :
    lo ≤ (d.between s lo hi h).1 := by
  simp [between]

theorem Draws.between_lt {σ : Type} (d : Draws σ) (s : σ) (lo hi : Nat) (h : lo < hi) :
    (d.between s lo hi h).1 < hi := by
  simp only [between]
  omega

end Recon
