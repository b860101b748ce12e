import Recon.Proofs.Wire.Checksum
import Recon.Wire.Segment

/-!
# Segments in datagrams

A segment that is put together by any changes, and sent in a datagram, is read back from that
datagram, and both of its checksums are right.
-/

namespace Recon.Wire

/-! ### Flags -/

def Segment.Change.flagsAfter (f : UInt8) : Segment.Change → UInt8
  | flags value => value
  | syn => f ||| 0x02
  | rst => f ||| 0x04
  | sequence _ => f
  | window _ => f

def Segment.Change.sequenceAfter (n : UInt32) : Segment.Change → UInt32
  | sequence value => value
  | _ => n

namespace Reply

theorem isSynAck_iff (r : Reply) :
    r.isSynAck = true ↔ r.flags.toBitVec.getLsbD 1 = true ∧ r.flags.toBitVec.getLsbD 4 = true := by
  have hbits : ∀ f : BitVec 8,
      f &&& 0x12#8 = 0x12#8 ↔ f.getLsbD 1 = true ∧ f.getLsbD 4 = true := by
    decide
  rw [isSynAck, beq_iff_eq, ← UInt8.toBitVec_inj]
  exact hbits _

theorem isRst_iff (r : Reply) : r.isRst = true ↔ r.flags.toBitVec.getLsbD 2 = true := by
  have hbits : ∀ f : BitVec 8, f &&& 0x04#8 ≠ 0#8 ↔ f.getLsbD 2 = true := by decide
  rw [isRst, bne_iff_ne, ne_eq, ← UInt8.toBitVec_inj]
  exact hbits _

end Reply

namespace Segment

variable (s : Segment)

/-- Changes touch nothing but the flags, the sequence number and the window. -/
theorem exists_foldl_change (cs : List Change) :
    ∃ window, cs.foldl change s =
      { s with
        flags := cs.foldl Change.flagsAfter s.flags
        sequence := cs.foldl Change.sequenceAfter s.sequence
        window } := by
  induction cs generalizing s with
  | nil => exact ⟨s.window, rfl⟩
  | cons c cs ih =>
    obtain ⟨window, h⟩ := ih (s.change c)
    refine ⟨window, h.trans ?_⟩
    cases c <;> rfl

theorem length_datagram : s.datagram.length = 40 := rfl

theorem onesTotal_datagramHeader : onesTotal s.datagramHeader = 0xFFFF := by
  have hparts (sum : UInt16) : s.datagramHeaderWith sum =
      ([0x45, 0] ++ word 40 ++ word s.identification ++ [0x40, 0, 64, protocolTcp]) ++ word sum ++
        (address s.source ++ address s.target) := rfl
  rw [datagramHeader, hparts 0, hparts]
  exact onesTotal_checksum (by simp [word]) _

theorem onesTotal_header :
    onesTotal (s.pseudoHeader headerLength ++ s.header) = 0xFFFF := by
  have hparts (sum : UInt16) : s.pseudoHeader headerLength ++ s.headerWith sum =
      (s.pseudoHeader headerLength ++ word s.sourcePort ++ word s.targetPort ++
        doubleWord s.sequence ++ doubleWord s.acknowledgement ++ [0x50, s.flags] ++
          word s.window) ++ word sum ++ word 0 := rfl
  rw [header, Segment.sum, hparts 0, hparts]
  exact onesTotal_checksum (by simp [pseudoHeader, address, word, doubleWord]) _

/-- What is read from the datagram of a segment is what the segment says. -/
theorem ofDatagram?_datagram : Reply.ofDatagram? s.datagram =
    some ⟨s.source, s.target, s.sourcePort, s.targetPort, s.flags, s.sequence,
      s.acknowledgement⟩ := by
  have hsource : addressAt s.datagram 12 = s.source := congrArg _ (doubleWordOf_doubleWord _)
  have htarget : addressAt s.datagram 16 = s.target := congrArg _ (doubleWordOf_doubleWord _)
  have hsourcePort : wordAt s.datagram 20 = s.sourcePort := wordOf_word _
  have htargetPort : wordAt s.datagram 22 = s.targetPort := wordOf_word _
  have hsequence : doubleWordAt s.datagram 24 = s.sequence := doubleWordOf_doubleWord _
  have hack : doubleWordAt s.datagram 28 = s.acknowledgement := doubleWordOf_doubleWord _
  have hflags : byteAt s.datagram 33 = s.flags := rfl
  have hfirst : byteAt s.datagram 0 = 0x45 := rfl
  have hoffset : Reply.headerOffset s.datagram = 20 := by
    rw [Reply.headerOffset, hfirst]
    rfl
  have hprotocol : byteAt s.datagram 9 = protocolTcp := rfl
  unfold Reply.ofDatagram?
  simp only [hoffset, hprotocol, s.length_datagram, hsource, htarget, hsourcePort, htargetPort,
    hsequence, hack, hflags]
  rfl

/-- Whatever changes are made to a plain segment, the reply in its datagram has its addresses, its
ports, the flags and the sequence number that the changes lead to, and acknowledges nothing.  The
words of the header of the datagram, and those of the segment with the addresses, the protocol and
its length before it, add up to all ones.  On its own the segment is what follows the header. -/
theorem datagram_read_back (source target : BitVec 32) (sourcePort targetPort : Port)
    (sequence : UInt32) (identification : UInt16) (cs : List Change) :
    let s := cs.foldl change (plain source target sourcePort targetPort sequence identification)
    let r : Reply := ⟨source, target, sourcePort, targetPort, cs.foldl Change.flagsAfter 0,
      cs.foldl Change.sequenceAfter sequence, 0⟩
    s.datagram.length = 40 ∧
    Reply.ofDatagram? s.datagram = some r ∧
    (r.isSynAck = true ↔
      r.flags.toBitVec.getLsbD 1 = true ∧ r.flags.toBitVec.getLsbD 4 = true) ∧
    (r.isRst = true ↔ r.flags.toBitVec.getLsbD 2 = true) ∧
    onesTotal (part s.datagram 0 20) = 0xFFFF ∧
    onesTotal (part s.datagram 12 8 ++ [0, 6, 0, 20] ++ part s.datagram 20 20) = 0xFFFF ∧
    s.header = part s.datagram 20 20 := by
  intro s r
  have hread : Reply.ofDatagram? s.datagram = some r := by
    obtain ⟨window, hs⟩ :=
      (plain source target sourcePort targetPort sequence identification).exists_foldl_change cs
    rw [s.ofDatagram?_datagram, show s = _ from hs]
    rfl
  have hpseudo : part s.datagram 12 8 ++ [0, 6, 0, 20] ++ part s.datagram 20 20 =
      s.pseudoHeader headerLength ++ s.header := rfl
  refine ⟨s.length_datagram, hread, r.isSynAck_iff, r.isRst_iff, s.onesTotal_datagramHeader, ?_,
    rfl⟩
  rw [hpseudo, s.onesTotal_header]

end Segment

end Recon.Wire
