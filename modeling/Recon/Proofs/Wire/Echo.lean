import Recon.Proofs.Wire.Access
import Recon.Proofs.Wire.Checksum

/-!
# A host answers for its own requests

An echo request carries what tells it apart and a right checksum.  A datagram is the answer to it
just if it comes from the host that was asked and carries an echo reply with what tells the request
apart, so no datagram is the answer to two requests.
-/

namespace Recon.Wire.Echo

variable {e e' : Echo} {target source : BitVec 32} {bs header message tail : Bytes}

/-! ### Requests -/

def answer (e : Echo) : Bytes := e.request.set 0 0

theorem onesTotal_request (e : Echo) : onesTotal e.request = 0xFFFF := by
  have hparts (sum : UInt16) : e.messageWith 8 sum =
      [8, 0] ++ word sum ++ (word e.identifier ++ word e.sequence ++ List.replicate 8 0) := rfl
  rw [request, hparts 0, hparts]
  exact onesTotal_checksum rfl _

theorem wordAt_request_identifier (e : Echo) : wordAt e.request 4 = e.identifier := wordOf_word _

theorem wordAt_request_sequence (e : Echo) : wordAt e.request 6 = e.sequence := wordOf_word _

theorem wordAt_answer_identifier (e : Echo) : wordAt e.answer 4 = e.identifier := wordOf_word _

theorem wordAt_answer_sequence (e : Echo) : wordAt e.answer 6 = e.sequence := wordOf_word _

/-! ### Payloads -/

/-- A payload begins behind the header, and never inside the first twenty bytes. -/
theorem payload_eq_part (bs : Bytes) : payload bs =
    part bs (max 20 (4 * headerWords bs)) ((wordAt bs 2).toNat - 4 * headerWords bs) := by
  have hlength : headerLength = 20 := rfl
  have hstart : headerLength + (headerWords bs - 5) * 4 = max 20 (4 * headerWords bs) := by omega
  rw [payload, toNat_low_eq_headerWords, hstart, Nat.mul_comm (headerWords bs)]
  rfl

/-- Behind a header of at least five words the payload goes on to the end of the datagram, as it is
given or as it is. -/
theorem payload_eq_drop (h : 5 ≤ headerWords bs) :
    payload bs = (bs.take (wordAt bs 2).toNat).drop (4 * headerWords bs) := by
  rw [payload_eq_part, Nat.max_eq_right (by omega), part, List.drop_take]

/-- The header of a datagram of version four from a source, with any options, whose total length
leaves so many bytes to what follows. -/
structure Heads (header : Bytes) (source : BitVec 32) (room : ℕ) : Prop where
  version : version header = 4
  words : 5 ≤ headerWords header
  length : header.length = 4 * headerWords header
  protocol : header[9]? = some 1
  source : number (part header 12 4) = source.toNat
  total : header.length + room ≤ number (part header 2 2)

/-- A message that the total length covers is the first part of the payload. -/
theorem Heads.payload_append (h : Heads header source message.length) (tail : Bytes) :
    ∃ rest, payload (header ++ (message ++ tail)) = message ++ rest := by
  have hwords := h.words
  have hlength := h.length
  have htotal := h.total
  have heq : headerWords (header ++ (message ++ tail)) = headerWords header :=
    headerWords_append (by omega)
  have hnumber : (wordAt (header ++ (message ++ tail)) 2).toNat = number (part header 2 2) := by
    rw [wordAt_append (by omega), toNat_wordAt (by omega)]
  refine ⟨tail.take (number (part header 2 2) - header.length - message.length), ?_⟩
  rw [payload_eq_drop (by omega), heq, hnumber, ← hlength, List.drop_take, List.drop_left,
    List.take_append, List.take_of_length_le (by omega)]

/-! ### Answers -/

theorem isAnswer_eq_true_iff (e : Echo) (target : BitVec 32) (bs : Bytes) :
    e.isAnswer target bs = true ↔ 20 ≤ bs.length ∧ byteAt bs 9 = 1 ∧ addressAt bs 12 = target ∧
      8 ≤ (payload bs).length ∧ byteAt (payload bs) 0 = 0 ∧
        wordAt (payload bs) 4 = e.identifier ∧ wordAt (payload bs) 6 = e.sequence := by
  simp only [isAnswer, Bool.and_eq_true, beq_iff_eq, decide_eq_true_eq, and_assoc]
  exact Iff.rfl

structure Answers (e : Echo) (target : BitVec 32) (bs : Bytes) : Prop where
  header : 20 ≤ bs.length
  protocol : bs[9]? = some 1
  source : number (part bs 12 4) = target.toNat
  message : 8 ≤ (payload bs).length
  type : (payload bs)[0]? = some 0
  identifier : number (part (payload bs) 4 2) = e.identifier.toNat
  sequence : number (part (payload bs) 6 2) = e.sequence.toNat

theorem isAnswer_iff_answers (e : Echo) (target : BitVec 32) (bs : Bytes) :
    e.isAnswer target bs = true ↔ Answers e target bs := by
  rw [isAnswer_eq_true_iff]
  constructor
  · rintro ⟨hheader, hprotocol, hsource, hmessage, htype, hid, hseq⟩
    exact {
      header := hheader
      protocol := (byteAt_eq_iff (by omega) 1).mp hprotocol
      source := by rw [← toNat_addressAt (by omega), hsource]
      message := hmessage
      type := (byteAt_eq_iff (by omega) 0).mp htype
      identifier := by rw [← toNat_wordAt (by omega), hid]
      sequence := by rw [← toNat_wordAt (by omega), hseq] }
  · rintro ⟨hheader, hprotocol, hsource, hmessage, htype, hid, hseq⟩
    rw [← toNat_addressAt (by omega)] at hsource
    rw [← toNat_wordAt (by omega)] at hid hseq
    exact ⟨hheader, (byteAt_eq_iff (by omega) 1).mpr hprotocol, BitVec.eq_of_toNat_eq hsource,
      hmessage, (byteAt_eq_iff (by omega) 0).mpr htype, UInt16.toNat_inj.mp hid,
      UInt16.toNat_inj.mp hseq⟩

/-- Behind a header only the source and the first eight bytes of the message count. -/
theorem isAnswer_append_iff (h : Heads header source message.length) (hlong : 8 ≤ message.length)
    (e : Echo) (target : BitVec 32) (tail : Bytes) :
    e.isAnswer target (header ++ (message ++ tail)) = true ↔
      source = target ∧ byteAt message 0 = 0 ∧ wordAt message 4 = e.identifier ∧
        wordAt message 6 = e.sequence := by
  have hwords := h.words
  have hlength := h.length
  have hprotocol : byteAt header 9 = 1 := (byteAt_eq_iff (by omega) 1).mpr h.protocol
  have hsource : addressAt header 12 = source :=
    BitVec.eq_of_toNat_eq ((toNat_addressAt (by omega)).trans h.source)
  have hheader : 20 ≤ (header ++ (message ++ tail)).length := by
    rw [List.length_append]
    omega
  obtain ⟨rest, hpayload⟩ := h.payload_append tail
  have hmessage : 8 ≤ (message ++ rest).length := by
    rw [List.length_append]
    omega
  rw [isAnswer_eq_true_iff, hpayload, byteAt_append (by omega), addressAt_append (by omega),
    byteAt_append (by omega), wordAt_append (by omega), wordAt_append (by omega), hprotocol,
    hsource]
  exact ⟨fun ⟨_, _, hs, _, hrest⟩ => ⟨hs, hrest⟩,
    fun ⟨hs, hrest⟩ => ⟨hheader, rfl, hs, hmessage, hrest⟩⟩

/-- The answer to a request of a host is the answer to no other one. -/
theorem isAnswer_answer_iff (h : Heads header source 16) (e e' : Echo) (target : BitVec 32)
    (tail : Bytes) :
    e.isAnswer target (header ++ (e'.answer ++ tail)) = true ↔ source = target ∧ e' = e := by
  have htype : byteAt e'.answer 0 = 0 := rfl
  have hlength : e'.answer.length = 16 := rfl
  rw [isAnswer_append_iff (by rwa [hlength]) (by omega), wordAt_answer_identifier,
    wordAt_answer_sequence]
  obtain ⟨identifier, sequence⟩ := e
  obtain ⟨identifier', sequence'⟩ := e'
  simp only [htype, true_and, Echo.mk.injEq]

/-- A request is no answer. -/
theorem isAnswer_request (h : Heads header source 16) (e e' : Echo) (target : BitVec 32)
    (tail : Bytes) : e.isAnswer target (header ++ (e'.request ++ tail)) = false := by
  have htype : byteAt e'.request 0 = 8 := rfl
  have hlength : e'.request.length = 16 := rfl
  rw [← Bool.not_eq_true, isAnswer_append_iff (by rwa [hlength]) (by omega), htype]
  simp

structure Correspondence (e : Echo) : Prop where
  /-- A request is a message of sixteen bytes with what tells it apart and a sum of all ones. -/
  request : e.request.length = 16 ∧ e.request[0]? = some 8 ∧ e.request[1]? = some 0 ∧
    number (part e.request 4 2) = e.identifier.toNat ∧
    number (part e.request 6 2) = e.sequence.toNat ∧ onesTotal e.request = 0xFFFF
  /-- No access to a datagram is out of bounds, whatever lengths it gives. -/
  accesses : ∀ target bs, e.isAnswer? target bs = some (e.isAnswer target bs)
  answers : ∀ target bs, e.isAnswer target bs = true ↔ Answers e target bs
  payload_eq : ∀ bs, payload bs =
    part bs (max 20 (4 * headerWords bs)) ((wordAt bs 2).toNat - 4 * headerWords bs)
  /-- A payload begins behind the first twenty bytes and all options. -/
  payload_behind : ∀ bs, 5 ≤ headerWords bs →
    payload bs = (bs.take (wordAt bs 2).toNat).drop (4 * headerWords bs)
  /-- Behind any options and before anything else, the reply to a request is the answer to that
  request of that host and to no other, and a request is the answer to none. -/
  own : ∀ target source header, Heads header source 16 → ∀ e' tail,
    (e.isAnswer target (header ++ (e'.answer ++ tail)) = true ↔ source = target ∧ e' = e) ∧
      e.isAnswer target (header ++ (e'.request ++ tail)) = false
  bare : ∀ target (e' : Echo), e.isAnswer target e'.request = false

/-- A request is answered by its own reply and by nothing else that is sent. -/
theorem answered_by_own (e : Echo) : Correspondence e where
  request := by
    have hid : number (part e.request 4 2) = e.identifier.toNat := by
      rw [← wordAt_request_identifier, toNat_wordAt (show 6 ≤ 16 by decide)]
    have hseq : number (part e.request 6 2) = e.sequence.toNat := by
      rw [← wordAt_request_sequence, toNat_wordAt (show 8 ≤ 16 by decide)]
    exact ⟨rfl, rfl, rfl, hid, hseq, e.onesTotal_request⟩
  accesses := e.isAnswer?_eq
  answers := e.isAnswer_iff_answers
  payload_eq := payload_eq_part
  payload_behind _ := payload_eq_drop
  own target source header h e' tail :=
    ⟨isAnswer_answer_iff h e e' target tail, isAnswer_request h e e' target tail⟩
  bare target e' := by
    have hlength : e'.request.length = 16 := rfl
    rw [← Bool.not_eq_true, isAnswer_eq_true_iff, hlength]
    omega

namespace Sample

def optioned : Bytes :=
  [0x46, 0, 0, 48, 0, 1, 0, 0, 64, 1, 0, 0, 10, 0, 0, 9, 10, 0, 0, 1, 1, 1, 1, 0]

theorem heads_optioned : Heads optioned 167772169 16 :=
  ⟨rfl, by decide, rfl, rfl, rfl, by decide⟩

/-- Behind four bytes of options, and before eight that are padding, a reply answers the one of two
requests that it is for. -/
theorem answered_by_own_of_two :
    Echo.isAnswer ⟨7, 3⟩ 167772169 (optioned ++ (answer ⟨7, 3⟩ ++ List.replicate 8 0)) = true ∧
      Echo.isAnswer ⟨7, 4⟩ 167772169 (optioned ++ (answer ⟨7, 3⟩ ++ List.replicate 8 0)) =
        false := by
  obtain ⟨hown, -⟩ := (answered_by_own ⟨7, 3⟩).own 167772169 167772169 optioned heads_optioned
    ⟨7, 3⟩ (List.replicate 8 0)
  obtain ⟨hother, -⟩ := (answered_by_own ⟨7, 4⟩).own 167772169 167772169 optioned heads_optioned
    ⟨7, 3⟩ (List.replicate 8 0)
  refine ⟨hown.mpr ⟨rfl, rfl⟩, Bool.eq_false_iff.mpr fun h => ?_⟩
  have hne : (⟨7, 3⟩ : Echo) ≠ ⟨7, 4⟩ := by decide
  exact hne (hother.mp h).2

end Sample

end Recon.Wire.Echo
