import Recon.Number.Double
import Recon.Rate.Meter

/-!
# Rate limiters

A limiter is a bucket in a time that goes on in whole milliseconds.  A delay is rounded to
nanoseconds, a half to the even one, and whoever waits goes on with the next whole millisecond.
-/

namespace Recon

local instance natAsDouble : NatCast Float := ⟨Float.ofNat⟩

structure Limiter where
  meter : Meter Nat Float
  now : Nat

namespace Limiter

def ofRate (rate now : Nat) : Limiter := ⟨.ofRate rate now, now⟩

def bucket (l : Limiter) : Bucket Float := l.meter.bucket

def seconds (start stop : Nat) : Float :=
  let millis := stop - start
  Float.ofNat (millis / 1000) + Float.ofNat (millis % 1000 * 1000000) / 1000000000.0

def millisOf (delay : Float) : Nat := (Double.scaled delay 1000000000 + 999999) / 1000000

def attempt : Nat → Limiter → Nat × Limiter
  | 0, l => (0, l)
  | n + 1, l =>
    let (granted, meter) := l.meter.attempt seconds l.now
    let (count, l) := attempt n { l with meter }
    (if granted then count + 1 else count, l)

def reserve (l : Limiter) : Nat × Limiter :=
  let (delay, meter) := l.meter.reserve seconds l.now
  (l.now + millisOf delay, { l with meter })

def waitUntil (l : Limiter) (due : Nat) : Limiter := { l with now := max l.now due }

/-- Takes some tokens, waiting for each before the next is asked for, and gives when each is due. -/
def acquire : Nat → Limiter → List Nat × Limiter
  | 0, l => ([], l)
  | n + 1, l =>
    let (due, l) := l.reserve
    let (dues, l) := acquire n (l.waitUntil due)
    (due :: dues, l)

def reserveAll : Nat → Limiter → List Nat × Limiter
  | 0, l => ([], l)
  | n + 1, l =>
    let (due, l) := l.reserve
    let (dues, l) := reserveAll n l
    (due :: dues, l)

def acquireAll (n : Nat) (l : Limiter) : List Nat × Limiter :=
  let (dues, l) := reserveAll n l
  (dues, dues.foldl waitUntil l)

end Limiter

end Recon
