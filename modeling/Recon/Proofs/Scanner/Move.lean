import Recon.Scanner.HalfOpen

/-!
# Moves of the half-open scanner

The steps of the scanner and of its callers as a relation, with one rule for each thing that can
happen.  Every step is a move, so an invariant is proved by going through the rules once.  The loop
removes pending probes in three places, always in the same way: what it removes, it hands off.
-/

namespace Recon.HalfOpen

/-- The loop goes to another phase and hands off the pending probes that satisfy a condition. -/
def take (s : HalfOpen) (loop : LoopPhase) (isTaken : PendingProbe → Bool)
    (outcome : PendingProbe → Option Endpoint) : HalfOpen :=
  { s with
    loop
    pending := s.pending.filter fun p => !isTaken p
    handOffs := s.handOffs ++ (s.pending.filter isTaken).map fun p => ⟨p.call, outcome p, false⟩ }

inductive Move : HalfOpen → ScannerAction → HalfOpen → Prop
  -- the calls
  | called {s e} : Move s (.call e) { s with calls := s.calls ++ [⟨e, .entering⟩] }
  | refused {s i now isSent e} (hi : s.calls[i]? = some ⟨e, .entering⟩) (hc : s.closed = true) :
      Move s (.proceed i now isSent) (s.put i .refused)
  | entered {s i now isSent e} (hi : s.calls[i]? = some ⟨e, .entering⟩) (hc : s.closed = false) :
      Move s (.proceed i now isSent) (s.put i .counting)
  | counted {s i now isSent e} (hi : s.calls[i]? = some ⟨e, .counting⟩) :
      Move s (.proceed i now isSent) ({ s with inFlight := s.inFlight + 1 }.put i .registering)
  | skipped {s i now isSent e} (hi : s.calls[i]? = some ⟨e, .registering⟩)
      (hk : keyOf? e = none) : Move s (.proceed i now isSent) (s.put i (.reporting i))
  | doubled {s i now isSent e key} (hi : s.calls[i]? = some ⟨e, .registering⟩)
      (hk : keyOf? e = some key) (hp : s.isPending key = true) :
      Move s (.proceed i now isSent) (s.put i (.reporting i))
  | registered {s i now isSent e key} (hi : s.calls[i]? = some ⟨e, .registering⟩)
      (hk : keyOf? e = some key) (hp : s.isPending key = false) :
      Move s (.proceed i now isSent)
        ({ s with pending := s.pending ++ [PendingProbe.mk i key (now + s.timeout)] }.put i
          .sending)
  | sent {s i now e} (hi : s.calls[i]? = some ⟨e, .sending⟩) :
      Move s (.proceed i now true) (s.put i .returned)
  | unsent {s i now e} (hi : s.calls[i]? = some ⟨e, .sending⟩) :
      Move s (.proceed i now false) (s.put i .retracting)
  | retracted {s i now isSent e key p} (hi : s.calls[i]? = some ⟨e, .retracting⟩)
      (hk : keyOf? e = some key) (hp : s.pending.find? (fun p => p.key == key) = some p) :
      Move s (.proceed i now isSent)
        ({ s with pending := s.pending.filter fun p => p.key != key }.put i (.reporting p.call))
  | forestalled {s i now isSent e key} (hi : s.calls[i]? = some ⟨e, .retracting⟩)
      (hk : keyOf? e = some key) (hp : s.pending.find? (fun p => p.key == key) = none) :
      Move s (.proceed i now isSent) (s.put i .returned)
  | reported {s i now isSent e k} (hi : s.calls[i]? = some ⟨e, .reporting k⟩) :
      Move s (.proceed i now isSent)
        ({ s with reports := s.reports ++ [(k, none)] }.put i (.settling k))
  | settled {s i now isSent e k} (hi : s.calls[i]? = some ⟨e, .settling k⟩) :
      Move s (.proceed i now isSent) (s.countDown.put i .returned)
  -- the loop
  | checked {s} (hl : s.loop = .checking) :
      Move s .check { s with loop := if s.closed then .clearing else .receiving }
  | heardNothing {s r} (hl : s.loop = .receiving)
      (hr : ∀ bs, r = some (.datagram bs) → verdict? s.port bs = none) :
      Move s (.receive r) { s with loop := .sweeping }
  | heard {s bs key isOpen} (hl : s.loop = .receiving)
      (hv : verdict? s.port bs = some (key, isOpen)) :
      Move s (.receive (some (.datagram bs)))
        (s.take .sweeping (fun p => p.key == key)
          fun p => if isOpen then some (endpointOf p.key) else none)
  | swept {s now} (hl : s.loop = .sweeping) :
      Move s (.sweep now) (s.take .checking (fun p => p.deadline ≤ now) fun _ => none)
  | cleared {s} (hl : s.loop = .clearing) :
      Move s .clear (s.take .ended (fun _ => true) fun _ => none)
  -- the reports that are handed off
  | delivered {s i h} (hi : s.handOffs[i]? = some h) (hd : h.delivered = false) :
      Move s (.deliver i)
        { s with
          handOffs := s.handOffs.set i { h with delivered := true }
          reports := s.reports ++ [(h.call, h.outcome)] }
  | finished {s i h} (hi : s.handOffs[i]? = some h) (hd : h.delivered = true) :
      Move s (.finish i) { s.countDown with handOffs := s.handOffs.eraseIdx i }
  | closed {s} : Move s .close { s with closed := true }

variable {s s' : HalfOpen} {a : ScannerAction}

theorem move_of_proceed {i now : Nat} {isSent : Bool} (h : s.proceed i now isSent = some s') :
    Move s (.proceed i now isSent) s' := by
  unfold proceed at h
  split at h
  · cases h
  · next c hi =>
    obtain ⟨e, phase⟩ := c
    dsimp only at h
    split at h
    · cases h
      split
      · next hc => exact .refused hi hc
      · next hc => exact .entered hi (eq_false_of_ne_true hc)
    · cases h
      exact .counted hi
    · split at h
      · next hk =>
        cases h
        exact .skipped hi hk
      · next key hk =>
        split at h
        · next hp =>
          cases h
          exact .doubled hi hk hp
        · next hp =>
          cases h
          exact .registered hi hk (eq_false_of_ne_true hp)
    · cases h
      cases isSent
      · exact .unsent hi
      · exact .sent hi
    · split at h
      · cases h
      · next key hk =>
        split at h
        · next hp =>
          cases h
          exact .forestalled hi hk hp
        · next p hp =>
          cases h
          exact .retracted hi hk hp
    · cases h
      exact .reported hi
    · cases h
      exact .settled hi
    · cases h
    · cases h

theorem move_of_receive {r : Option Receipt} (h : s.step (.receive r) = some s') :
    Move s (.receive r) s' := by
  unfold step at h
  dsimp only at h
  split at h
  · next hl =>
    split at h
    · next bs =>
      cases h
      unfold hear
      split
      · next hv =>
        refine .heardNothing hl ?_
        intro bs' hbs
        cases hbs
        exact hv
      · next key isOpen hv => exact .heard hl hv
    · next hr =>
      cases h
      exact .heardNothing hl fun bs hbs => absurd hbs (hr bs)
  · cases h

/-- Every step is a move. -/
theorem move_of_step (h : s.step a = some s') : Move s a s' := by
  cases a with
  | call e =>
    cases h
    exact .called
  | proceed i now isSent => exact move_of_proceed h
  | check =>
    simp only [step] at h
    split at h
    · next hl =>
      cases h
      exact .checked hl
    · cases h
  | receive r => exact move_of_receive h
  | sweep now =>
    simp only [step] at h
    split at h
    · next hl =>
      cases h
      exact .swept hl
    · cases h
  | clear =>
    simp only [step] at h
    split at h
    · next hl =>
      cases h
      exact .cleared hl
    · cases h
  | deliver i =>
    simp only [step] at h
    split at h
    · next hi =>
      split at h
      · cases h
      · next hd =>
        cases h
        exact .delivered hi (eq_false_of_ne_true hd)
    · cases h
  | finish i =>
    simp only [step] at h
    split at h
    · next hi =>
      split at h
      · next hd =>
        cases h
        exact .finished hi hd
      · cases h
    · cases h
  | close =>
    cases h
    exact .closed

end Recon.HalfOpen
