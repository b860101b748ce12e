import Recon.Wire.Segment

/-!
# Echo requests

The message that asks a host whether it is there, and which datagrams are its answer.
-/

namespace Recon.Wire

def protocolIcmp : UInt8 := 1

structure Echo where
  identifier : UInt16
  sequence : UInt16
deriving DecidableEq, Repr

namespace Echo

/-- An echo message with its type and checksum; eight bytes without meaning follow its header. -/
def messageWith (e : Echo) (type : UInt8) (sum : UInt16) : Bytes :=
  [type, 0] ++ word sum ++ word e.identifier ++ word e.sequence ++ List.replicate 8 0

def request (e : Echo) : Bytes := e.messageWith 8 (checksum (e.messageWith 8 0))

/-- What a datagram carries behind its header and options: at most as many bytes as its total length
leaves, and none beyond its end. -/
def payload (bs : Bytes) : Bytes :=
  let words := (byteAt bs 0 &&& 0x0F).toNat
  (bs.drop (headerLength + (words - 5) * 4)).take ((wordAt bs 2).toNat - words * 4)

def isAnswer (e : Echo) (target : BitVec 32) (bs : Bytes) : Bool :=
  let message := payload bs
  headerLength ≤ bs.length && byteAt bs 9 == protocolIcmp && addressAt bs 12 == target &&
    8 ≤ message.length && byteAt message 0 == 0 && wordAt message 4 == e.identifier &&
    wordAt message 6 == e.sequence

end Echo

end Recon.Wire
