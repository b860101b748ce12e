import Recon.Wire.Echo

/-!
# Reads within bounds

Datagrams that are read with an access to each byte.  An access outside the bytes is refused, and so
is a slice that does not lie inside them.
-/

namespace Recon.Wire

def wordAt? (bs : Bytes) (i : Nat) : Option UInt16 := do
  return wordOf (← bs[i]?) (← bs[i + 1]?)

def doubleWordAt? (bs : Bytes) (i : Nat) : Option UInt32 := do
  return doubleWordOf (← bs[i]?) (← bs[i + 1]?) (← bs[i + 2]?) (← bs[i + 3]?)

def addressAt? (bs : Bytes) (i : Nat) : Option (BitVec 32) := do
  return (← doubleWordAt? bs i).toBitVec

def slice? (bs : Bytes) (start stop : Nat) : Option Bytes :=
  if start ≤ stop ∧ stop ≤ bs.length then some ((bs.drop start).take (stop - start)) else none

/-- The reply in a datagram, by accesses; `some none` if there is no reply. -/
def Reply.read? (bs : Bytes) : Option (Option Reply) := do
  if bs.length < headerLength then return none
  if (← bs[9]?) ≠ protocolTcp then return none
  let offset := ((← bs[0]?) &&& 0x0F).toNat * 4
  if bs.length < offset + headerLength then return none
  let segment ← slice? bs offset bs.length
  if segment.length < headerLength then return none
  return some ⟨← addressAt? bs 12, ← addressAt? bs 16, ← wordAt? segment 0, ← wordAt? segment 2,
    ← segment[13]?, ← doubleWordAt? segment 4, ← doubleWordAt? segment 8⟩

namespace Echo

def payload? (bs : Bytes) : Option Bytes := do
  let words := ((← bs[0]?) &&& 0x0F).toNat
  let start := headerLength + (words - 5) * 4
  let stop := min (start + ((← wordAt? bs 2).toNat - words * 4)) bs.length
  if bs.length ≤ start then return []
  slice? bs start stop

def isAnswer? (e : Echo) (target : BitVec 32) (bs : Bytes) : Option Bool := do
  if bs.length < headerLength then return false
  if (← bs[9]?) ≠ protocolIcmp then return false
  if (← addressAt? bs 12) ≠ target then return false
  let message ← payload? bs
  if message.length < 8 then return false
  if (← message[0]?) ≠ 0 then return false
  if (← wordAt? message 4) ≠ e.identifier then return false
  return (← wordAt? message 6) == e.sequence

end Echo

end Recon.Wire
