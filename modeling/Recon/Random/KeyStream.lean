import Recon.Random.Draw

/-!
# Seeded key streams

A repeatable source of draws: a stream cipher of twelve rounds under an all-zero nonce, whose key
comes from a seed through a congruential generator.  A draw below a bound multiplies a word of
sixty-four bits by the bound and keeps the high half; words whose low half falls into the uneven
rest are passed over, so every number below the bound is equally likely.
-/

namespace Recon.KeyStream

def seedStep (s : UInt64) : UInt64 := s * 6364136223846793005 + 11634580027462260723

def rotateRight (x k : UInt32) : UInt32 := (x >>> k) ||| (x <<< ((32 - k) % 32))

def rotateLeft (x k : UInt32) : UInt32 := (x <<< k) ||| (x >>> (32 - k))

def seedWord (s : UInt64) : UInt32 :=
  rotateRight ((((s >>> 18) ^^^ s) >>> 27).toUInt32) ((s >>> 59).toUInt32)

def seedWords : Nat → UInt64 → List UInt32
  | 0, _ => []
  | n + 1, s =>
    let s := seedStep s
    seedWord s :: seedWords n s

/-- A key stream at a position, counted in words of thirty-two bits. -/
structure State where
  key : List UInt32
  position : Nat
deriving DecidableEq, Repr, Inhabited

def ofSeed (seed : UInt64) : State := ⟨seedWords 8 seed, 0⟩

abbrev Block := Vector UInt32 16

def quarter (b : Block) (i j k l : Fin 16) : Block :=
  let a := b[i] + b[j]
  let d := rotateLeft (b[l] ^^^ a) 16
  let c := b[k] + d
  let e := rotateLeft (b[j] ^^^ c) 12
  let a := a + e
  let d := rotateLeft (d ^^^ a) 8
  let c := c + d
  let e := rotateLeft (e ^^^ c) 7
  (((b.set i a).set j e).set k c).set l d

def doubleRound (b : Block) : Block :=
  let b := quarter b 0 4 8 12
  let b := quarter b 1 5 9 13
  let b := quarter b 2 6 10 14
  let b := quarter b 3 7 11 15
  let b := quarter b 0 5 10 15
  let b := quarter b 1 6 11 12
  let b := quarter b 2 7 8 13
  quarter b 3 4 9 14

/-- The block before its rounds: four constants, the key, the counter and a zero nonce. -/
def initial (key : List UInt32) (counter : UInt64) : Block :=
  let k := fun i => key.getD i 0
  #v[0x61707865, 0x3320646e, 0x79622d32, 0x6b206574,
    k 0, k 1, k 2, k 3, k 4, k 5, k 6, k 7,
    counter.toUInt32, (counter >>> 32).toUInt32, 0, 0]

def block (key : List UInt32) (counter : UInt64) : Block :=
  -- six double rounds make twelve rounds
  let start := initial key counter
  let mixed := Nat.repeat doubleRound 6 start
  Vector.zipWith (· + ·) start mixed

def wordAt (key : List UInt32) (position : Nat) : UInt32 :=
  (block key (UInt64.ofNat (position / 16))).get ⟨position % 16, Nat.mod_lt _ (by decide)⟩

def next (s : State) : Nat × State :=
  let lo := (wordAt s.key s.position).toNat
  let hi := (wordAt s.key (s.position + 1)).toNat
  (hi * UInt32.size + lo, { s with position := s.position + 2 })

def zone (n : Nat) : Nat := n * Nat.pow 2 (63 - Nat.log2 n) - 1

/-- A draw below a bound that gives up after some words; it then takes the last word's share. -/
def belowWithin (s : State) (n : Nat) (h : 0 < n) : Nat → Fin n × State
  | 0 => (⟨(next s).1 % n, Nat.mod_lt _ h⟩, (next s).2)
  | tries + 1 =>
    let (v, s') := next s
    if v * n % UInt64.size ≤ zone n then (⟨v * n / UInt64.size % n, Nat.mod_lt _ h⟩, s')
    else belowWithin s' n h tries

/-- The draws of a seeded stream.  A word is passed over with a chance below one half, so two
hundred of them in a row do not occur. -/
def draws : Draws State := ⟨fun s n h => belowWithin s n h 200⟩

end Recon.KeyStream
