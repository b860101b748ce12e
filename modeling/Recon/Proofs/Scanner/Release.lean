import Recon.Proofs.Scanner.Reports

/-!
# What a release leaves behind

A call looks whether the scanner is closed before its probe is counted and registered, and the loop
clears the pending probes just once.  A call that has looked before the release and registers its
probe when the loop is gone leaves an entry that nobody takes: its probe stays in flight and is
never reported.  No other report is lost.
-/

namespace Recon

namespace CallPhase

def isLate : CallPhase → Bool
  | .counting | .registering => true
  | _ => false

def isOver : CallPhase → Bool
  | .returned | .refused => true
  | _ => false

end CallPhase

namespace HalfOpen

variable {s s' : HalfOpen} {a : ScannerAction} {done : List ℕ} {i : ℕ} {c : ProbeCall}

/-- The number of calls that may register a probe without another look. -/
def late (s : HalfOpen) : ℕ := (s.calls.map fun c => c.phase.isLate.toNat).sum

theorem late_put (s₀ : HalfOpen) (hi : s.calls[i]? = some c) (hc : s₀.calls = s.calls)
    (phase : CallPhase) :
    (s₀.put i phase).late + c.phase.isLate.toNat = s.late + phase.isLate.toNat := by
  obtain ⟨m, h0, hset, _⟩ := sum_map_split (fun c : ProbeCall => c.phase.isLate.toNat) hi
  rw [late, late, calls_put (hc ▸ hi), hc, h0, hset]
  dsimp only
  omega

theorem late_put_le {s₀ : HalfOpen} {phase : CallPhase} (hi : s.calls[i]? = some c)
    (hc : s₀.calls = s.calls) (hphase : phase.isLate = true → c.phase.isLate = true) :
    (s₀.put i phase).late ≤ s.late := by
  have hl := late_put s₀ hi hc phase
  have hle := Bool.toNat_le_toNat hphase
  omega

/-- The scanner is released and its loop has ended. -/
structure Deserted (s : HalfOpen) : Prop where
  closed : s.closed = true
  loop : s.loop = .ended

theorem Move.closed_of_loop (hm : Move s a s')
    (h : s.loop = .clearing ∨ s.loop = .ended → s.closed = true) :
    s'.loop = .clearing ∨ s'.loop = .ended → s'.closed = true := by
  cases hm
  case checked hl =>
    -- the loop gives up only when it finds the scanner closed
    cases hc : s.closed <;> simp
  case heardNothing => simp
  case heard => simp [take]
  case swept => simp [take]
  case cleared hl => exact fun _ => h (.inl hl)
  case closed => exact fun _ => rfl
  all_goals exact h

/-- Without the loop, a probe is pending only if its call was late. -/
theorem Move.deserted (hm : Move s a s') (hd : Deserted s) :
    Deserted s' ∧ s'.pending.length + s'.late ≤ s.pending.length + s.late := by
  obtain ⟨hclosed, hloop⟩ := hd
  cases hm
  -- the loop has no more moves
  case checked hl => simp [hloop] at hl
  case heardNothing hl _ => simp [hloop] at hl
  case heard hl _ => simp [hloop] at hl
  case swept hl => simp [hloop] at hl
  case cleared hl => simp [hloop] at hl
  -- nobody is let in, and a call that registers its probe is late no more
  case entered hc => simp [hclosed] at hc
  case called => exact ⟨⟨hclosed, hloop⟩, by simp [late, CallPhase.isLate]⟩
  case registered i now _ _ key hi _ _ =>
    refine ⟨⟨hclosed, hloop⟩, ?_⟩
    have hl := late_put { s with pending := s.pending ++ [⟨i, key, now + s.timeout⟩] } hi rfl
      .sending
    simp only [CallPhase.isLate, Bool.toNat_true, Bool.toNat_false] at hl
    change (s.pending ++ [_]).length + _ ≤ _
    rw [List.length_append, List.length_singleton]
    omega
  case retracted key p hi _ _ =>
    refine ⟨⟨hclosed, hloop⟩, ?_⟩
    have hl := late_put { s with pending := s.pending.filter fun p => p.key != key } hi rfl
      (.reporting p.call)
    simp only [CallPhase.isLate, Bool.toNat_false] at hl
    have hle := List.length_filter_le (fun p => p.key != key) s.pending
    change (s.pending.filter fun p => p.key != key).length + _ ≤ _
    omega
  case delivered => exact ⟨⟨hclosed, hloop⟩, le_rfl⟩
  case finished => exact ⟨⟨hclosed, hloop⟩, le_rfl⟩
  case closed => exact ⟨⟨rfl, hloop⟩, le_rfl⟩
  -- no other step of a call makes it late
  all_goals
    refine ⟨⟨hclosed, hloop⟩, Nat.add_le_add_left ?_ _⟩
    refine late_put_le ‹s.calls[_]? = _› rfl ?_
    simp [CallPhase.isLate]

theorem deserted_of_follow (as : List ScannerAction) {done' : List ℕ} (hd : Deserted s)
    (hf : follow done s as = some (done', s')) :
    Deserted s' ∧ s'.pending.length + s'.late ≤ s.pending.length + s.late := by
  induction as generalizing done s with
  | nil =>
    cases hf
    exact ⟨hd, le_rfl⟩
  | cons a as ih =>
    obtain ⟨s₁, hs, hf⟩ := Option.bind_eq_some_iff.mp hf
    obtain ⟨hd₁, hle₁⟩ := (move_of_step hs).deserted hd
    obtain ⟨hd', hle⟩ := ih hd₁ hf
    exact ⟨hd', hle.trans hle₁⟩

namespace Reached

variable {port : Port} {timeout : ℕ}

theorem closed_of_loop (hr : Reached port timeout done s) :
    s.loop = .clearing ∨ s.loop = .ended → s.closed = true := by
  induction hr with
  | start => simp [HalfOpen.start]
  | step _ hs ih => exact (move_of_step hs).closed_of_loop ih

/-- The loop ends with nothing pending, so what is pending later was late when it ended. -/
theorem pending_le_late (hr : Reached port timeout done s) {s₁ : HalfOpen}
    (hs : s.step .clear = some s₁) (as : List ScannerAction) {done₁ done' : List ℕ}
    (hf : HalfOpen.follow done₁ s₁ as = some (done', s')) : s'.pending.length ≤ s.late := by
  have hm := move_of_step hs
  -- of all moves, only the clearing has this action
  generalize ha : ScannerAction.clear = a at hm
  cases hm <;> cases ha
  case cleared hl =>
    have hd : Deserted (s.take .ended (fun _ => true) fun _ => none) :=
      ⟨hr.closed_of_loop (.inl hl), rfl⟩
    obtain ⟨_, hle⟩ := deserted_of_follow as hd hf
    have hnone : (s.take .ended (fun _ => true) fun _ => none).pending = [] := by
      simp [take]
    have hlate : (s.take .ended (fun _ => true) fun _ => none).late = s.late := rfl
    rw [hnone, List.length_nil, hlate] at hle
    omega

theorem calls_over (hover : ∀ c ∈ s.calls, c.phase.isOver = true) :
    s.callsOwe = 0 ∧ s.callsSettle = 0 := by
  have hzero {f : ℕ → CallPhase → Multiset ℕ}
      (hf : ∀ i phase, phase.isOver = true → f i phase = 0) :
      (s.calls.mapIdx fun i c => f i c.phase).sum = 0 := by
    apply List.sum_eq_zero
    intro x hx
    obtain ⟨i, hi, rfl⟩ := List.mem_mapIdx.mp hx
    exact hf i _ (hover _ (List.getElem_mem hi))
  constructor
  · apply hzero
    intro i phase h
    cases phase <;> cases h <;> rfl
  · apply hzero (f := fun _ => CallPhase.settles)
    intro i phase h
    cases phase <;> cases h <;> rfl

/-- When the release and all calls are over, the probes in flight are those that are pending.  The
probe of a call that was let in has been reported once, or is pending and has not been reported; the
probe of a call that was refused is neither. -/
theorem left_by_release (hr : Reached port timeout done s) (hs : s.isReleased = true)
    (hover : ∀ c ∈ s.calls, c.phase.isOver = true) :
    s.inFlight = s.pending.length ∧
      (∀ k c, s.calls[k]? = some c → c.phase = .returned →
        (s.reports.map Prod.fst).count k + (s.pending.map PendingProbe.call).count k = 1) ∧
      (∀ k c, s.calls[k]? = some c → c.phase = .refused →
        k ∉ s.reports.map Prod.fst ∧ k ∉ s.pending.map PendingProbe.call) := by
  obtain ⟨hbalance, _⟩ := hr.balanced
  rw [isReleased, Bool.and_eq_true, Bool.and_eq_true] at hs
  have hnone : s.handOffs = [] := List.isEmpty_iff.mp hs.2
  obtain ⟨howe, hsettle⟩ := calls_over hover
  have howed : s.accounts.owed = s.pendingCalls := by
    simp only [accounts, howe, handOffsOwe, hnone, List.map_nil, List.sum_nil, zero_add, add_zero]
  have hsettling : s.accounts.settling = 0 := by
    simp only [accounts, hsettle, handOffsSettle, hnone, List.map_nil, List.sum_nil, add_zero]
  -- so a probe that has begun is pending or reported
  have hbegun : s.accounts.begun = s.pendingCalls + s.accounts.reported := by
    rw [hbalance.begun_eq, howed]
  refine ⟨?_, ?_, ?_⟩
  · have hflight : s.inFlight = _ := hbalance.inFlight_eq
    rw [hflight, howed, hsettling, pendingCalls, Multiset.coe_card, List.length_map,
      Multiset.card_zero, add_zero]
  · intro k c hc hphase
    have hk : k ∈ s.accounts.begun := mem_begun.mpr ⟨c, hc, by rw [hphase]; rfl⟩
    have hone : s.accounts.begun.count k = 1 :=
      Multiset.count_eq_one_of_mem (nodup_indices _ _) hk
    rw [hbegun, Multiset.count_add, add_comm] at hone
    simpa only [accounts, pendingCalls, Multiset.coe_count] using hone
  · intro k c hc hphase
    have hk : k ∉ s.accounts.begun := by
      intro hk
      obtain ⟨c', hc', hb⟩ := mem_begun.mp hk
      rw [hc] at hc'
      cases hc'
      rw [hphase] at hb
      cases hb
    rw [hbegun, Multiset.mem_add, not_or] at hk
    exact ⟨hk.2, hk.1⟩

/-- No more probes are left in flight than there were late calls when the loop ended. -/
theorem inFlight_le_late (hr : Reached port timeout done s) {s₁ : HalfOpen}
    (hs : s.step .clear = some s₁) (as : List ScannerAction) {done' : List ℕ}
    (hf : HalfOpen.follow (done ++ (s.completion? .clear).toList) s₁ as = some (done', s'))
    (hrel : s'.isReleased = true) (hover : ∀ c ∈ s'.calls, c.phase.isOver = true) :
    s'.inFlight ≤ s.late := by
  obtain ⟨hflight, _⟩ := ((hr.step hs).follow as hf).left_by_release hrel hover
  rw [hflight]
  exact hr.pending_le_late hs as hf

end Reached

namespace Sample

def stranded : HalfOpen :=
  { HalfOpen.start 40000 5 with
    calls := [⟨target, .returned⟩]
    pending := [⟨0, (167772162, 80), 5⟩]
    inFlight := 1
    closed := true
    loop := .ended }

/-- Its call has succeeded and the release is over, but its probe stays in flight for good and has
not been reported. -/
theorem unreported_at_release :
    Reached 40000 5 [] stranded ∧ stranded.isReleased = true ∧
      (∀ c ∈ stranded.calls, c.phase = .returned) ∧ stranded.reports = [] ∧
      stranded.inFlight = 1 := by
  refine ⟨?_, rfl, by decide, rfl, rfl⟩
  exact Reached.start.follow
    [.call target, .proceed 0 0 true, .close, .check, .clear, .proceed 0 0 true,
      .proceed 0 0 true, .proceed 0 0 true] rfl

end Sample

end HalfOpen

end Recon
