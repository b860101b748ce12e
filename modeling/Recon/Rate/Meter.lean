import Recon.Rate.Bucket

/-!
# Buckets over time

A bucket that is filled up to the moment whenever something is asked of it.  Moments and tokens may
be numbers of different kinds; what is needed is the time in seconds from one moment to another.
-/

namespace Recon

structure Meter (τ α : Type) where
  bucket : Bucket α
  filled : τ

namespace Meter

inductive Demand where
  | reserve
  | attempt
deriving DecidableEq, Repr

variable {τ α : Type} [Add α] [Sub α] [Mul α] [Div α] [Neg α] [NatCast α] [LE α] [DecidableLE α]

def ofRate (rate : Nat) (now : τ) : Meter τ α := ⟨.full rate, now⟩

variable (elapsed : τ → τ → α)

def refilled (m : Meter τ α) (now : τ) : Meter τ α :=
  ⟨m.bucket.refill (elapsed m.filled now), now⟩

def reserve (m : Meter τ α) (now : τ) : α × Meter τ α :=
  let m := m.refilled elapsed now
  let (delay, bucket) := m.bucket.reserve
  (delay, { m with bucket })

def attempt (m : Meter τ α) (now : τ) : Bool × Meter τ α :=
  let m := m.refilled elapsed now
  match m.bucket.take? with
  | some bucket => (true, { m with bucket })
  | none => (false, m)

def serve (m : Meter τ α) (now : τ) : Demand → Option α × Meter τ α
  | .reserve =>
    let (delay, m) := m.reserve elapsed now
    (some delay, m)
  | .attempt =>
    let (granted, m) := m.attempt elapsed now
    (if granted then some (NatCast.natCast 0) else none, m)

end Meter

end Recon
