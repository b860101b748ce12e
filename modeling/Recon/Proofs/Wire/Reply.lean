import Recon.Proofs.Wire.Access

/-!
# Replies are read where the lengths say

There is a reply in a datagram just if its protocol is TCP and it is long enough for two headers,
the first as long as it says.  Neither the version nor the least length of a header is asked for, so
a datagram that is not of version four may hold a reply, and one whose header is too short for a
header holds a reply that is partly made of that header.
-/

namespace Recon.Wire

/-- A datagram of version four that carries a segment: its header has a length that is possible, and
behind it is the header of the segment. -/
structure CarriesTcp (bs : Bytes) : Prop where
  header : 20 ≤ bs.length
  version : version bs = 4
  words : 5 ≤ headerWords bs
  protocol : bs[9]? = some 6
  segment : 4 * headerWords bs + 20 ≤ bs.length

namespace Reply

/-- A reply whose addresses are those of the datagram, and whose other parts are read from an offset
on. -/
structure IsAt (r : Reply) (bs : Bytes) (offset : ℕ) : Prop where
  source : r.source.toNat = number (part bs 12 4)
  target : r.target.toNat = number (part bs 16 4)
  sourcePort : r.sourcePort.toNat = number (part bs offset 2)
  targetPort : r.targetPort.toNat = number (part bs (offset + 2) 2)
  sequence : r.sequence.toNat = number (part bs (offset + 4) 4)
  acknowledgement : r.acknowledgement.toNat = number (part bs (offset + 8) 4)
  flags : r.flags.toNat = number (part bs (offset + 13) 1)

variable {bs : Bytes} {r : Reply}

theorem headerOffset_eq (bs : Bytes) : headerOffset bs = 4 * headerWords bs := by
  rw [headerOffset, toNat_low_eq_headerWords, Nat.mul_comm]

theorem isSome_ofDatagram?_iff (bs : Bytes) :
    (ofDatagram? bs).isSome = true ↔
      20 ≤ bs.length ∧ bs[9]? = some 6 ∧ 4 * headerWords bs + 20 ≤ bs.length := by
  have hlength : headerLength = 20 := rfl
  have hprotocol : protocolTcp = 6 := rfl
  rw [ofDatagram?, headerOffset_eq, hlength, hprotocol]
  split
  · next h =>
    refine iff_of_false (by simp) fun ⟨hheader, h9, hsegment⟩ => ?_
    have h9 := (byteAt_eq_iff (by omega) 6).mpr h9
    rcases h with h | h | h
    · omega
    · exact h h9
    · omega
  · next h =>
    obtain ⟨hheader, hrest⟩ := not_or.mp h
    obtain ⟨h9, hsegment⟩ := not_or.mp hrest
    exact iff_of_true rfl ⟨Nat.not_lt.mp hheader,
      (byteAt_eq_iff (by omega) 6).mp (not_not.mp h9), Nat.not_lt.mp hsegment⟩

/-- What is read stands in the datagram in network order. -/
theorem isAt_of_ofDatagram? (h : ofDatagram? bs = some r) : r.IsAt bs (4 * headerWords bs) := by
  have hsome : (ofDatagram? bs).isSome = true := by
    rw [h]
    rfl
  obtain ⟨hheader, -, hsegment⟩ := (isSome_ofDatagram?_iff bs).mp hsome
  rw [ofDatagram?, headerOffset_eq] at h
  split at h
  · cases h
  · cases h
    exact {
      source := toNat_addressAt (by omega)
      target := toNat_addressAt (by omega)
      sourcePort := toNat_wordAt (by omega)
      targetPort := toNat_wordAt (by omega)
      sequence := toNat_doubleWordAt (by omega)
      acknowledgement := toNat_doubleWordAt (by omega)
      flags := by
        rw [part_one (by omega)]
        simp [number] }

theorem carriesTcp_iff (bs : Bytes) : CarriesTcp bs ↔
    (ofDatagram? bs).isSome = true ∧ version bs = 4 ∧ 5 ≤ headerWords bs := by
  rw [isSome_ofDatagram?_iff]
  exact ⟨fun h => ⟨⟨h.header, h.protocol, h.segment⟩, h.version, h.words⟩,
    fun ⟨⟨hheader, hprotocol, hsegment⟩, hversion, hwords⟩ =>
      ⟨hheader, hversion, hwords, hprotocol, hsegment⟩⟩

/-- No access is out of bounds.  There is a reply just if the datagram has the length of a header
and the protocol TCP, and the header of a segment fits behind as many words as it gives for its own
header; the reply then is what stands there in network order.  Of the datagrams with a reply, those
of version four with at least five words of header are the ones that carry a segment, and its parts
are read from behind the first twenty bytes. -/
theorem read_by_lengths (bs : Bytes) :
    read? bs = some (ofDatagram? bs) ∧
    ((ofDatagram? bs).isSome = true ↔
      20 ≤ bs.length ∧ bs[9]? = some 6 ∧ 4 * headerWords bs + 20 ≤ bs.length) ∧
    (∀ r, ofDatagram? bs = some r → r.IsAt bs (4 * headerWords bs)) ∧
    (CarriesTcp bs ↔
      (ofDatagram? bs).isSome = true ∧ version bs = 4 ∧ 20 ≤ 4 * headerWords bs) := by
  have hwords : 20 ≤ 4 * headerWords bs ↔ 5 ≤ headerWords bs := by omega
  rw [hwords]
  exact ⟨read?_eq bs, isSome_ofDatagram?_iff bs, fun _ => isAt_of_ofDatagram?, carriesTcp_iff bs⟩

namespace Sample

/-- A datagram of 44 bytes with this first byte, from port 80 of 10.0.0.1 if its header has six
words. -/
def framed (first : UInt8) : Bytes :=
  [first, 0, 0, 44, 0, 1, 0x40, 0, 64, 6, 0, 0, 10, 0, 0, 1, 10, 0, 0, 2, 1, 1, 1, 0,
    0, 80, 0x9C, 0x40, 0, 0, 0, 1, 0, 0, 0, 2, 0x50, 0x12, 4, 0, 0, 0, 0, 0]

/-- With options the segment is behind them. -/
theorem read_by_lengths_of_options : ∃ r, ofDatagram? (framed 0x46) = some r ∧
    CarriesTcp (framed 0x46) ∧ r.IsAt (framed 0x46) 24 ∧ r.sourcePort = 80 ∧ r.isSynAck = true := by
  obtain ⟨-, -, hat, hcarries⟩ := read_by_lengths (framed 0x46)
  exact ⟨_, rfl, hcarries.mpr ⟨rfl, rfl, by decide⟩, hat _ rfl, rfl, rfl⟩

/-- A header of two words, or one of version six, makes a reply of what carries no segment.  The
port of the first is the time to live and the protocol. -/
theorem read_without_segment :
    (∃ r, ofDatagram? (framed 0x42) = some r ∧ version (framed 0x42) = 4 ∧
      r.sourcePort.toNat = number (part (framed 0x42) 8 2)) ∧
    (ofDatagram? (framed 0x65)).isSome = true ∧
    ¬ ∀ bs, (ofDatagram? bs).isSome = true ↔ CarriesTcp bs := by
  refine ⟨⟨_, rfl, rfl, rfl⟩, rfl, fun h => ?_⟩
  have hcarries : CarriesTcp (framed 0x42) := (h _).mp rfl
  have hwords : headerWords (framed 0x42) = 2 := rfl
  have := hcarries.words
  omega

end Sample

end Reply

end Recon.Wire
