import Mathlib.Data.List.Perm.Basic
import Recon.Network.Inquiry
import Recon.Proofs.Wire.Echo

/-!
# Any answer shows a host

Whether a host is up depends on what it answers, and not on the order in which its answers come.  Of
attempts to connect that go on side by side one that shows the host is enough, whichever ends first,
and of all that is read while an echo reply is waited for only that reply counts.
-/

namespace Recon

/-! ### Attempts to connect -/

/-- An attempt shows the host within a limit: by then the connection is accepted, or it is refused,
which is the fault of that number. -/
def Dial.Shows (limit : ℕ) (d : Dial) : Prop :=
  ∃ after ≤ limit, d = .accepted after ∨ d = .failed ⟨111⟩ after

namespace Race

variable {attempts : List Connection} {r r' : Race} {ended i : ℕ} {order : List ℕ} {isUp : Bool}

/-- After so many of some attempts have ended, the host is shown by those that are left just if it
is by all of them. -/
def Traces (attempts : List Connection) (ended : ℕ) : Race → Prop
  | .running rest => rest ≠ [] ∧ rest.length + ended = attempts.length ∧
      rest.any Connection.showsHost = attempts.any Connection.showsHost
  | .decided isUp => isUp = attempts.any Connection.showsHost

theorem traces_awaiting {rest : List Connection} (hlength : rest.length + ended = attempts.length)
    (hany : rest.any Connection.showsHost = attempts.any Connection.showsHost) :
    Traces attempts ended (awaiting rest) := by
  cases rest with
  | nil => exact hany
  | cons c rest => exact ⟨by simp, hlength, hany⟩

theorem any_eraseIdx (h : i < attempts.length) :
    attempts.any Connection.showsHost =
      (attempts[i].showsHost || (attempts.eraseIdx i).any Connection.showsHost) := by
  rw [← List.any_cons]
  exact (List.getElem_cons_eraseIdx_perm h).symm.any_eq

/-- An attempt that shows the host decides the race, and one that does not is not missed. -/
theorem Traces.finish? (h : Traces attempts ended r) (hstep : r.finish? i = some r') :
    Traces attempts (ended + 1) r' := by
  cases r with
  | decided isUp => cases hstep
  | running rest =>
    obtain ⟨-, hlength, hany⟩ := h
    obtain ⟨c, hc, rfl⟩ := Option.map_eq_some_iff.mp hstep
    obtain ⟨hi, rfl⟩ := List.getElem?_eq_some_iff.mp hc
    rw [any_eraseIdx hi] at hany
    -- an attempt that does not show the host is no loss to those that are left
    cases hshows : rest[i].showsHost with
    | true =>
      rw [hshows, Bool.true_or] at hany
      exact hany
    | false =>
      rw [hshows, Bool.false_or] at hany
      refine traces_awaiting ?_ hany
      rw [List.length_eraseIdx_of_lt hi]
      omega

theorem Traces.follow? (h : Traces attempts ended r) (hrun : r.follow? order = some r') :
    Traces attempts (ended + order.length) r' := by
  induction order generalizing r ended with
  | nil =>
    cases hrun
    exact h
  | cons i rest ih =>
    obtain ⟨next, hstep, hrest⟩ := Option.bind_eq_some_iff.mp hrun
    have hnext := ih (h.finish? hstep) hrest
    rwa [List.length_cons, Nat.add_comm rest.length, ← Nat.add_assoc]

end Race

/-! ### Waiting for the answer to an echo request -/

namespace Wire.Echo

variable {e : Echo} {target : BitVec 32} {deadline : ℕ} {t : Turn} {turns : List Turn} {bs : Bytes}

/-- In a turn the wait goes on, for there is nothing to read in time or it is no answer. -/
def Turn.Idle (e : Echo) (target : BitVec 32) (deadline : ℕ) (t : Turn) : Prop :=
  t.now < deadline ∧
    (t.read deadline = .ok none ∨ ∃ bs, t.read deadline = .ok (some bs) ∧ ¬ Answers e target bs)

def Turn.Sound (deadline : ℕ) (t : Turn) : Prop :=
  t.now < deadline ∧ ∀ f, t.read deadline ≠ .error f

/-- The answer is heard: it is there by the deadline in some turn, and up to that turn all begin in
time and nothing fails. -/
def Heard (e : Echo) (target : BitVec 32) (deadline : ℕ) (turns : List Turn) : Prop :=
  ∃ before t after bs, turns = before ++ t :: after ∧ (∀ u ∈ before ++ [t], u.Sound deadline) ∧
    t.receipt = .datagram bs ∧ t.now + t.after ≤ deadline ∧ Answers e target bs

theorem Turn.read_eq_some_iff :
    t.read deadline = .ok (some bs) ↔ t.limitFault = none ∧ t.now + t.after ≤ deadline ∧
      ∃ whole, t.receipt = .datagram whole ∧ bs = whole.take room := by
  obtain ⟨now, limitFault, after, receipt⟩ := t
  cases limitFault with
  | some f => simp [Turn.read]
  | none =>
    by_cases hin : now + after ≤ deadline
    · cases receipt with
      | datagram whole => simp [Turn.read, hin, Receipt.read, Except.map, eq_comm]
      | strange => simp [Turn.read, hin, Receipt.read, Except.map]
      | failed f => cases hf : f.isPatience <;> simp [Turn.read, hin, Receipt.read, Except.map, hf]
    · simp [Turn.read, hin]

theorem Turn.Idle.sound (h : t.Idle e target deadline) : t.Sound deadline := by
  obtain ⟨hnow, hread⟩ := h
  refine ⟨hnow, fun f hf => ?_⟩
  rcases hread with hread | ⟨bs, hread, -⟩ <;> rw [hread] at hf <;> cases hf

end Wire.Echo

/-! ### Inquiries -/

namespace Inquiry

variable {n : Inquiry} {a : Address} {ports : List Port}

/-- An echo request to an address is answered in the time that is given to it. -/
def Answered (n : Inquiry) (target : BitVec 32) : Prop :=
  ∃ now turns, n.exchange = .sent now turns ∧ n.echo.Heard target (now + n.limit) turns

end Inquiry

namespace Prober

variable {p : Prober} {n : Inquiry} {a : Address} {order : List ℕ} {heard isUp : Bool}

end Prober

/-! ### Machines -/

namespace Prober

variable {p : Prober} {n : Inquiry} {m : Machine} {earlier : List Address} {a : Address}
  {order : List ℕ} {isUp : Bool}

namespace Sample

/-- An inquiry about it: a datagram that has nothing to do with it, a read that times out, and the
deadline, while the refusal takes a while. -/
def inquiry : Inquiry where
  limit := 10
  echo := ⟨identifier, 0⟩
  exchange := .sent 0 ([⟨0, none, 2, .datagram [0x45, 0, 0, 20]⟩, ⟨2, none, 8, .failed ⟨11⟩⟩] ++
    [⟨10, none, 0, .strange⟩])
  dial _ e := if e.port = 443 then .failed ⟨111⟩ 9 else .silent

end Sample

end Prober

end Recon
