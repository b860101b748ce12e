import Recon.Proofs.Wire.Number
import Recon.Wire.Access

/-!
# No read is out of bounds

Where the bytes are long enough, an access gives what is there.
-/

namespace Recon.Wire

variable {bs : Bytes} {i : ℕ}

theorem getElem?_eq_byteAt (h : i < bs.length) : bs[i]? = some (byteAt bs i) := by
  rw [List.getElem?_eq_getElem h, byteAt, List.getD_eq_getElem bs 0 h]

theorem byteAt_eq_iff (h : i < bs.length) (b : UInt8) : byteAt bs i = b ↔ bs[i]? = some b := by
  rw [getElem?_eq_byteAt h, Option.some_inj]

theorem wordAt?_eq (h : i + 2 ≤ bs.length) : wordAt? bs i = some (wordAt bs i) := by
  rw [wordAt?, getElem?_eq_byteAt (by omega), getElem?_eq_byteAt (by omega)]
  rfl

theorem doubleWordAt?_eq (h : i + 4 ≤ bs.length) :
    doubleWordAt? bs i = some (doubleWordAt bs i) := by
  rw [doubleWordAt?, getElem?_eq_byteAt (by omega), getElem?_eq_byteAt (by omega),
    getElem?_eq_byteAt (by omega), getElem?_eq_byteAt (by omega)]
  rfl

theorem addressAt?_eq (h : i + 4 ≤ bs.length) : addressAt? bs i = some (addressAt bs i) := by
  rw [addressAt?, doubleWordAt?_eq h]
  rfl

theorem byteAt_drop (bs : Bytes) (offset i : ℕ) :
    byteAt (bs.drop offset) i = byteAt bs (offset + i) := by
  simp [byteAt, List.getD_eq_getElem?_getD, List.getElem?_drop]

theorem wordAt_drop (bs : Bytes) (offset i : ℕ) :
    wordAt (bs.drop offset) i = wordAt bs (offset + i) := by
  rw [wordAt, byteAt_drop, byteAt_drop]
  rfl

theorem doubleWordAt_drop (bs : Bytes) (offset i : ℕ) :
    doubleWordAt (bs.drop offset) i = doubleWordAt bs (offset + i) := by
  rw [doubleWordAt, byteAt_drop, byteAt_drop, byteAt_drop, byteAt_drop]
  rfl

theorem slice?_length_eq_drop {start : ℕ} (h : start ≤ bs.length) :
    slice? bs start bs.length = some (bs.drop start) := by
  rw [slice?, if_pos ⟨h, Nat.le_refl _⟩, List.take_of_length_le (by simp)]

/-- No access to a datagram that is searched for a reply is out of bounds. -/
theorem Reply.read?_eq (bs : Bytes) : read? bs = some (ofDatagram? bs) := by
  have hoffset : (byteAt bs 0 &&& 0x0F).toNat * 4 = headerOffset bs := rfl
  unfold read? ofDatagram?
  by_cases hheader : bs.length < headerLength
  · rw [if_pos hheader, if_pos (.inl hheader)]
    rfl
  have hlength : 20 ≤ bs.length := Nat.not_lt.mp hheader
  rw [if_neg hheader, getElem?_eq_byteAt (by omega), getElem?_eq_byteAt (by omega)]
  simp only [Option.bind_eq_bind, Option.bind_some, hoffset]
  by_cases hprotocol : byteAt bs 9 ≠ protocolTcp
  · rw [if_pos hprotocol, if_pos (.inr (.inl hprotocol))]
    rfl
  by_cases hroom : bs.length < headerOffset bs + headerLength
  · rw [if_neg hprotocol, if_pos hroom, if_pos (.inr (.inr hroom))]
    rfl
  -- the segment is long enough for a header, so each of its fields is there
  have hend : headerOffset bs + 20 ≤ bs.length := Nat.not_lt.mp hroom
  have hdrop : (bs.drop (headerOffset bs)).length = bs.length - headerOffset bs := List.length_drop
  have hsegment : ¬ (bs.drop (headerOffset bs)).length < headerLength := by
    rw [hdrop, Nat.not_lt]
    exact Nat.le_sub_of_add_le' hend
  rw [if_neg hprotocol, if_neg hroom, if_neg (not_or_intro hheader (not_or_intro hprotocol hroom)),
    slice?_length_eq_drop (by omega), addressAt?_eq (by omega), addressAt?_eq (by omega)]
  simp only [Option.bind_some]
  rw [if_neg hsegment]
  rw [wordAt?_eq (by omega), wordAt?_eq (by omega), getElem?_eq_byteAt (by omega),
    doubleWordAt?_eq (by omega), doubleWordAt?_eq (by omega)]
  simp only [Option.bind_some, wordAt_drop, doubleWordAt_drop, byteAt_drop]
  rfl

namespace Echo

/-- The payload of a datagram lies inside it, however large the lengths that it gives. -/
theorem payload?_eq (h : headerLength ≤ bs.length) : payload? bs = some (payload bs) := by
  have hlength : 20 ≤ bs.length := h
  unfold payload? payload
  rw [getElem?_eq_byteAt (by omega), wordAt?_eq (by omega)]
  simp only [Option.bind_eq_bind, Option.bind_some]
  generalize headerLength + ((byteAt bs 0 &&& 0x0F).toNat - 5) * 4 = start
  generalize (wordAt bs 2).toNat - (byteAt bs 0 &&& 0x0F).toNat * 4 = room
  by_cases hstart : bs.length ≤ start
  · rw [if_pos hstart, List.drop_eq_nil_of_le hstart, List.take_nil]
    rfl
  · rw [if_neg hstart, slice?, if_pos (by omega), Option.some_inj, List.take_eq_take_iff,
      List.length_drop]
    omega

/-- No access to a datagram that may be an answer is out of bounds. -/
theorem isAnswer?_eq (e : Echo) (target : BitVec 32) (bs : Bytes) :
    e.isAnswer? target bs = some (e.isAnswer target bs) := by
  unfold isAnswer? isAnswer
  by_cases hheader : bs.length < headerLength
  · rw [if_pos hheader, decide_eq_false (Nat.not_le.mpr hheader)]
    rfl
  have hlength : 20 ≤ bs.length := Nat.not_lt.mp hheader
  rw [if_neg hheader, getElem?_eq_byteAt (by omega), addressAt?_eq (by omega),
    payload?_eq (by omega), decide_eq_true (Nat.not_lt.mp hheader)]
  simp only [Option.bind_eq_bind, Option.bind_some]
  by_cases hmessage : (payload bs).length < 8
  · simp [hmessage, Nat.not_le.mpr hmessage]
  · rw [if_neg hmessage, getElem?_eq_byteAt (by omega), wordAt?_eq (by omega),
      wordAt?_eq (by omega), decide_eq_true (Nat.not_lt.mp hmessage)]
    simp only [Option.bind_some, pure]
    grind

end Echo

end Recon.Wire
