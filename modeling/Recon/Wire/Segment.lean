import Recon.Port.Table
import Recon.Wire.Bytes

/-!
# Segments of half-open probes

The header of a TCP segment without data, alone or behind the header of its datagram, and what is
read from a reply.  The checksum of a segment also covers the addresses and the length of the
segment.
-/

namespace Recon.Wire

def flagSyn : UInt8 := 0x02

def flagRst : UInt8 := 0x04

def flagAck : UInt8 := 0x10

def protocolTcp : UInt8 := 6

def headerLength : Nat := 20

/-- What a segment says, with the addresses between which it goes and the identification of its
datagram. -/
structure Segment where
  source : BitVec 32
  target : BitVec 32
  sourcePort : Port
  targetPort : Port
  flags : UInt8
  sequence : UInt32
  acknowledgement : UInt32
  window : UInt16
  identification : UInt16
deriving DecidableEq, Repr

namespace Segment

def plain (source target : BitVec 32) (sourcePort targetPort : Port) (sequence : UInt32)
    (identification : UInt16) : Segment :=
  ⟨source, target, sourcePort, targetPort, 0, sequence, 0, 1024, identification⟩

inductive Change where
  | flags (value : UInt8)
  | syn
  | rst
  | sequence (value : UInt32)
  | window (value : UInt16)
deriving DecidableEq, Repr

def change (s : Segment) : Change → Segment
  | .flags f => { s with flags := f }
  | .syn => { s with flags := s.flags ||| flagSyn }
  | .rst => { s with flags := s.flags ||| flagRst }
  | .sequence n => { s with sequence := n }
  | .window n => { s with window := n }

def headerWith (s : Segment) (sum : UInt16) : Bytes :=
  word s.sourcePort ++ word s.targetPort ++ doubleWord s.sequence ++
    doubleWord s.acknowledgement ++ [0x50, s.flags] ++ word s.window ++ word sum ++ word 0

/-- The words that a checksum covers besides the segment: addresses, protocol and length. -/
def pseudoHeader (s : Segment) (length : Nat) : Bytes :=
  address s.source ++ address s.target ++ [0, protocolTcp] ++ word (UInt16.ofNat length)

def sum (s : Segment) : UInt16 := checksum (s.pseudoHeader headerLength ++ s.headerWith 0)

def header (s : Segment) : Bytes := s.headerWith s.sum

/-- The header of the datagram with a checksum.  It forbids fragments and may pass 64 routers. -/
def datagramHeaderWith (s : Segment) (sum : UInt16) : Bytes :=
  [0x45, 0] ++ word 40 ++ word s.identification ++ [0x40, 0, 64, protocolTcp] ++ word sum ++
    address s.source ++ address s.target

def datagramHeader (s : Segment) : Bytes :=
  s.datagramHeaderWith (checksum (s.datagramHeaderWith 0))

def datagram (s : Segment) : Bytes := s.datagramHeader ++ s.header

end Segment

structure Reply where
  source : BitVec 32
  target : BitVec 32
  sourcePort : Port
  targetPort : Port
  flags : UInt8
  sequence : UInt32
  acknowledgement : UInt32
deriving DecidableEq, Repr

namespace Reply

def isSynAck (r : Reply) : Bool := r.flags &&& (flagSyn ||| flagAck) == flagSyn ||| flagAck

def isRst (r : Reply) : Bool := r.flags &&& flagRst != 0

def headerOffset (bs : Bytes) : Nat := (byteAt bs 0 &&& 0x0F).toNat * 4

/-- The reply in a datagram, if the datagram carries TCP and is long enough for a header behind its
own. -/
def ofDatagram? (bs : Bytes) : Option Reply :=
  let offset := headerOffset bs
  if bs.length < headerLength ∨ byteAt bs 9 ≠ protocolTcp ∨
      bs.length < offset + headerLength then none
  else
    some ⟨addressAt bs 12, addressAt bs 16, wordAt bs offset, wordAt bs (offset + 2),
      byteAt bs (offset + 13), doubleWordAt bs (offset + 4), doubleWordAt bs (offset + 8)⟩

end Reply

end Recon.Wire
