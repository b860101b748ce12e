/-!
# Token buckets

A bucket gives leave for so many events a second.  It fills all the time, up to a tenth of the rate,
and each event takes a token.  Whoever finds it empty takes a token of the future and waits until it
is due, so that leave is given in the order in which it is asked for.

The numbers may be of any kind with the usual operations: rational ones, on which the laws hold
exactly, or doubles.
-/

namespace Recon

/-- A token bucket. -/
structure Bucket (α : Type) where
  rate : Nat
  /-- Tokens at hand; what is owed to the future is negative. -/
  tokens : α
deriving Repr

namespace Bucket

def burstOf (rate : Nat) : Nat := max (rate / 10) 1

variable {α : Type} [Add α] [Sub α] [Mul α] [Div α] [Neg α] [NatCast α] [LE α] [DecidableLE α]

/-- A full bucket; a rate of nothing counts as one. -/
def full (rate : Nat) : Bucket α := ⟨max rate 1, NatCast.natCast (burstOf (max rate 1))⟩

def burst (b : Bucket α) : Nat := burstOf b.rate

def refill (b : Bucket α) (elapsed : α) : Bucket α :=
  let tokens := b.tokens + elapsed * NatCast.natCast b.rate
  let most : α := NatCast.natCast b.burst
  { b with tokens := if tokens ≤ most then tokens else most }

def take? (b : Bucket α) : Option (Bucket α) :=
  if NatCast.natCast 1 ≤ b.tokens then some { b with tokens := b.tokens - NatCast.natCast 1 }
  else none

/-- Takes a token, of the future if need be.  Gives the seconds until it is due. -/
def reserve (b : Bucket α) : α × Bucket α :=
  let tokens := b.tokens - NatCast.natCast 1
  let delay :=
    if NatCast.natCast 0 ≤ tokens then NatCast.natCast 0 else -tokens / NatCast.natCast b.rate
  (delay, { b with tokens })

end Bucket

end Recon
