import Recon.Proofs.Scanner.Reports

/-!
# What decides a report

Of all that happens after a probe has been registered, the first event that concerns it decides its
report: a reply from its endpoint to the port of the scanner that opens or resets a connection, a
sweep after its deadline, a segment that was not sent, or the end of a release.  Nothing that
happens later changes the outcome, and a datagram that decides nothing leaves everything as it is.
-/

namespace Recon.HalfOpen

/-- The outcome that a reply decides on for a key, if it comes from there to the port. -/
def answer? (port : Port) (key : ProbeKey) (r : Wire.Reply) : Option (Option Endpoint) :=
  if (r.source, r.sourcePort) = key ∧ r.targetPort = port then
    if r.isSynAck then some (some (endpointOf key))
    else if r.isRst then some none
    else none
  else none

def decision? (s : HalfOpen) (p : PendingProbe) : ScannerAction → Option (Option Endpoint)
  | .receive (some (.datagram bs)) => (Wire.Reply.ofDatagram? bs).bind (answer? s.port p.key)
  | .sweep now => if p.deadline ≤ now then some none else none
  | .proceed j _ _ =>
    -- a call for the endpoint takes back what is registered, as its segment was not sent
    s.calls[j]?.bind fun c =>
      if c.phase = .retracting ∧ keyOf? c.endpoint = some p.key then some none else none
  | .clear => some none
  | _ => none

/-- The outcome that the first of some actions decides on, of those that concern a probe. -/
def firstDecision? (p : PendingProbe) : HalfOpen → List ScannerAction → Option (Option Endpoint)
  | _, [] => none
  | s, a :: as => (s.decision? p a).or ((s.step a).bind fun s' => firstDecision? p s' as)

/-- The next step of its call registers a probe. -/
def Registers (s : HalfOpen) (p : PendingProbe) (s₁ : HalfOpen) : Prop :=
  ∃ e now isSent, s.calls[p.call]? = some ⟨e, .registering⟩ ∧ keyOf? e = some p.key ∧
    s.isPending p.key = false ∧ p.deadline = now + s.timeout ∧
    s.step (.proceed p.call now isSent) = some s₁

def Concluded (s : HalfOpen) (k : ℕ) (o : Option Endpoint) : Prop :=
  (k, o) ∈ s.reports ∨ ⟨k, o, false⟩ ∈ s.handOffs ∨
    o = none ∧ ∃ c ∈ s.calls, c.phase = .reporting k

variable {s s' s₁ : HalfOpen} {a : ScannerAction} {p : PendingProbe} {done done' : List ℕ}
  {i k : ℕ} {c : ProbeCall} {o : Option Endpoint} {bs : Wire.Bytes} {port : Port} {timeout : ℕ}

theorem decision?_datagram (s : HalfOpen) (p : PendingProbe) (bs : Wire.Bytes) :
    s.decision? p (.receive (some (.datagram bs))) =
      (verdict? s.port bs).bind fun v =>
        if v.1 = p.key then some (if v.2 then some (endpointOf p.key) else none) else none := by
  have hreply (r : Wire.Reply) : answer? s.port p.key r =
      (if r.targetPort == s.port && (r.isSynAck || r.isRst) then
        some ((r.source, r.sourcePort), r.isSynAck) else none).bind fun v =>
          if v.1 = p.key then some (if v.2 then some (endpointOf p.key) else none) else none := by
    unfold answer?
    by_cases hport : r.targetPort = s.port
    · cases r.isSynAck <;> cases r.isRst <;> simp [hport]
    · simp [hport]
  rw [decision?, verdict?, Option.bind_assoc]
  exact congrArg _ (funext hreply)

theorem decision?_receive_eq_none {r : Option Receipt}
    (h : ∀ bs, r = some (.datagram bs) → verdict? s.port bs = none) :
    s.decision? p (.receive r) = none := by
  rcases r with _ | bs | _ | _
  · rfl
  · rw [decision?_datagram, h bs rfl, Option.bind_none]
  · rfl
  · rfl

theorem decision?_proceed {now : ℕ} {isSent : Bool} (hi : s.calls[i]? = some c)
    (hc : c.phase ≠ .retracting) : s.decision? p (.proceed i now isSent) = none := by
  simp [decision?, hi, hc]

theorem decision?_retracting {now : ℕ} {isSent : Bool} {e : Endpoint} {key : ProbeKey}
    (hi : s.calls[i]? = some ⟨e, .retracting⟩) (hk : keyOf? e = some key) :
    s.decision? p (.proceed i now isSent) = if key = p.key then some none else none := by
  simp [decision?, hi, hk]

/-! ### One step -/

/-- A probe stays pending unless something is decided for it. -/
theorem Move.pending (hm : Move s a s') (hp : p ∈ s.pending) (hd : s.decision? p a = none) :
    p ∈ s'.pending := by
  -- four rules drop pending probes, each of them only those that it decides on
  cases hm
  case registered => exact List.mem_append_left _ hp
  case retracted key q hi hk _ =>
    have hne : p.key ≠ key := by
      rintro rfl
      simp [decision?_retracting hi hk] at hd
    exact List.mem_filter.mpr ⟨hp, by simpa using hne⟩
  case heard key isOpen _ hv =>
    have hne : p.key ≠ key := by
      rintro rfl
      simp [decision?_datagram, hv] at hd
    exact List.mem_filter.mpr ⟨hp, by simpa using hne⟩
  case swept now _ =>
    have hlate : ¬p.deadline ≤ now := by
      intro hle
      simp [decision?, hle] at hd
    exact List.mem_filter.mpr ⟨hp, by simpa using hlate⟩
  case cleared => cases hd
  all_goals exact hp

theorem concluded_take (hp : p ∈ s.pending) {f : PendingProbe → Bool} (hf : f p = true)
    (loop : LoopPhase) (outcome : PendingProbe → Option Endpoint) :
    Concluded (s.take loop f outcome) p.call (outcome p) := by
  have hmem : p ∈ s.pending.filter f := List.mem_filter.mpr ⟨hp, hf⟩
  refine .inr (.inl (List.mem_append_right _ ?_))
  exact List.mem_map_of_mem (f := fun p => HandOff.mk p.call (outcome p) false) hmem

/-- Whatever decides on a probe takes over its report. -/
theorem Move.concluded_of_decision (hm : Move s a s') (hp : p ∈ s.pending)
    (hn : (s.pending.map PendingProbe.key).Nodup) (hd : s.decision? p a = some o) :
    Concluded s' p.call o := by
  cases hm
  case retracted i _ _ endpoint key q hi hk hq =>
    rw [decision?_retracting hi hk] at hd
    split at hd
    · next hkey =>
      cases hd
      -- the entry of the key is that of the probe
      have hpq : p ∈ [q] := by
        rw [← filter_key hn hq]
        exact List.mem_filter.mpr ⟨hp, by simp [hkey]⟩
      rw [List.mem_singleton.mp hpq]
      have hcalls := calls_put (s := { s with pending := s.pending.filter fun p => p.key != key })
        hi (.reporting q.call)
      have hlt := (List.getElem?_eq_some_iff.mp hi).1
      refine .inr (.inr ⟨rfl, ⟨endpoint, .reporting q.call⟩, ?_, rfl⟩)
      rw [hcalls]
      exact List.mem_set hlt _
    · cases hd
  case forestalled key hi hk hq =>
    rw [decision?_retracting hi hk] at hd
    split at hd
    · next hkey =>
      have hno := List.find?_eq_none.mp hq p hp
      simp [hkey] at hno
    · cases hd
  case heard key isOpen _ hv =>
    rw [decision?_datagram, hv, Option.bind_some] at hd
    split at hd
    · next hkey =>
      cases hd
      have hp' : (p.key == key) = true := beq_iff_eq.mpr hkey.symm
      exact concluded_take (f := fun p => p.key == key) hp hp' _
        fun p => if isOpen then some (endpointOf p.key) else none
    · cases hd
  case swept now _ =>
    rw [decision?] at hd
    split at hd
    · next hle =>
      cases hd
      exact concluded_take hp (by simpa using hle) _ fun _ => none
    · cases hd
  case cleared =>
    cases hd
    exact concluded_take hp rfl _ fun _ => none
  case heardNothing hr =>
    rw [decision?_receive_eq_none hr] at hd
    cases hd
  -- the other steps of a call concern no probe that is pending, and the other actions none at all
  all_goals first
    | cases hd
    | rw [decision?_proceed ‹s.calls[_]? = _› (by simp)] at hd; cases hd

/-- Reports are never taken back. -/
theorem Move.reports (hm : Move s a s') {x : ℕ × Option Endpoint} (hx : x ∈ s.reports) :
    x ∈ s'.reports := by
  cases hm
  case reported => exact List.mem_append_left _ hx
  case delivered => exact List.mem_append_left _ hx
  all_goals exact hx

/-- A call whose next step is another one keeps its phase. -/
theorem mem_calls_put {d : ProbeCall} (hi : s.calls[i]? = some c) (hd : d ∈ s.calls)
    (hne : d.phase ≠ c.phase) (phase : CallPhase) : d ∈ (s.put i phase).calls := by
  obtain ⟨j, hj⟩ := List.mem_iff_getElem?.mp hd
  have hij : i ≠ j := by
    rintro rfl
    rw [hi] at hj
    cases hj
    exact hne rfl
  rw [calls_put hi]
  exact List.mem_of_getElem? ((List.getElem?_set_ne hij).trans hj)

theorem Move.concluded (hm : Move s a s') (h : Concluded s k o) : Concluded s' k o := by
  rcases h with h | h | ⟨rfl, d, hd, hphase⟩
  · exact .inl (hm.reports h)
  · -- a report that is handed off stays so until it is delivered
    obtain ⟨j, hj⟩ := List.mem_iff_getElem?.mp h
    cases hm
    case heard => exact .inr (.inl (List.mem_append_left _ h))
    case swept => exact .inr (.inl (List.mem_append_left _ h))
    case cleared => exact .inr (.inl (List.mem_append_left _ h))
    case delivered i x hi hx =>
      by_cases hij : i = j
      · subst hij
        rw [hi] at hj
        cases hj
        exact .inl (List.mem_append_right _ (List.mem_singleton_self _))
      · exact .inr (.inl (List.mem_of_getElem? ((List.getElem?_set_ne hij).trans hj)))
    case finished i x hi hx =>
      have hij : j ≠ i := by
        rintro rfl
        rw [hi] at hj
        cases hj
        cases hx
      exact .inr (.inl (List.mem_eraseIdx_iff_getElem?.mpr ⟨j, hij, hj⟩))
    all_goals exact .inr (.inl h)
  · -- a call that is to report does so in its next step
    cases hm
    case called => exact .inr (.inr ⟨rfl, d, List.mem_append_left _ hd, hphase⟩)
    case reported k' hi =>
      by_cases hk : k' = k
      · subst hk
        exact .inl (List.mem_append_right _ (List.mem_singleton_self _))
      · refine .inr (.inr ⟨rfl, d, mem_calls_put hi hd ?_ _, hphase⟩)
        rw [hphase]
        simpa using Ne.symm hk
    all_goals
      refine .inr (.inr ⟨rfl, d, ?_, hphase⟩)
      first
        | exact hd
        | exact mem_calls_put (c := ⟨_, _⟩) ‹s.calls[_]? = _› hd (by simp [hphase]) _

def IsUnderway (phase : CallPhase) : Prop := phase = .sending ∨ phase = .retracting

/-- While a probe is pending no call for its endpoint begins to send. -/
theorem Move.underway (hm : Move s a s') (hp : p ∈ s.pending) {j : ℕ}
    (hj : s'.calls[j]? = some c) (hk : keyOf? c.endpoint = some p.key)
    (hu : IsUnderway c.phase) :
    ∃ d, s.calls[j]? = some d ∧ d.endpoint = c.endpoint ∧ IsUnderway d.phase := by
  have hput {s₀ : HalfOpen} {b : ProbeCall} {phase : CallPhase} {i : ℕ}
      (hi : s.calls[i]? = some b) (hc : s₀.calls = s.calls)
      (hb : IsUnderway phase → keyOf? b.endpoint = some p.key → IsUnderway b.phase)
      (hj : (s₀.put i phase).calls[j]? = some c) :
      ∃ d, s.calls[j]? = some d ∧ d.endpoint = c.endpoint ∧ IsUnderway d.phase := by
    rw [calls_put (hc ▸ hi), hc] at hj
    by_cases hij : i = j
    · subst hij
      have hlt := (List.getElem?_eq_some_iff.mp hi).1
      rw [List.getElem?_set_self hlt] at hj
      cases hj
      exact ⟨b, hi, rfl, hb hu hk⟩
    · rw [List.getElem?_set_ne hij] at hj
      exact ⟨c, hj, rfl, hu⟩
  cases hm
  case called e =>
    rw [List.getElem?_append] at hj
    split at hj
    · exact ⟨c, hj, rfl, hu⟩
    · rw [List.mem_singleton.mp (List.mem_of_getElem? hj)] at hu
      rcases hu with hu | hu <;> cases hu
  case registered i now _ e key hi hk' hfree =>
    refine hput hi rfl ?_ hj
    intro _ hkey
    -- a registration finds the key free, which it is not while the probe is pending
    rw [hk', Option.some_inj] at hkey
    have hno := List.any_eq_false.mp hfree p hp
    simp [hkey] at hno
  case unsent hi => exact hput hi rfl (fun _ _ => .inl rfl) hj
  all_goals first
    | exact ⟨c, hj, rfl, hu⟩
    | exact hput ‹s.calls[_]? = _› rfl (by simp [IsUnderway]) hj

/-- A datagram that decides nothing leaves everything but the loop as it is. -/
theorem Move.receive_unchanged {r : Option Receipt} (hm : Move s (.receive r) s')
    (h : ∀ p ∈ s.pending, s.decision? p (.receive r) = none) :
    s' = { s with loop := .sweeping } := by
  -- of all moves, only the two of a receipt have this action
  generalize ha : ScannerAction.receive r = a at hm h
  cases hm <;> cases ha
  case heardNothing => rfl
  case heard bs key isOpen _ hv =>
    have hother : ∀ p ∈ s.pending, p.key ≠ key := by
      rintro p hp rfl
      have hd := h p hp
      simp [decision?_datagram, hv] at hd
    have hkept : s.pending.filter (fun p => !(p.key == key)) = s.pending :=
      List.filter_eq_self.mpr (by simpa using hother)
    have hnone : s.pending.filter (fun p => p.key == key) = [] :=
      List.filter_eq_nil_iff.mpr (by simpa using hother)
    rw [take, hkept, hnone, List.map_nil, List.append_nil]

/-! ### Registrations -/

theorem Registers.eq (h : Registers s p s₁) :
    s₁ = { s with pending := s.pending ++ [p] }.put p.call .sending := by
  obtain ⟨e, now, isSent, hi, hk, hfree, hdeadline, hs⟩ := h
  rw [step, proceed, hi] at hs
  simp only [hk, hfree, Bool.false_eq_true, if_false, Option.some_inj, ← hdeadline] at hs
  exact hs.symm

theorem Registers.mem_pending (h : Registers s p s₁) : p ∈ s₁.pending := by
  rw [h.eq]
  exact List.mem_append_right _ (List.mem_singleton_self p)

/-- A registration changes the phase of its own call only. -/
theorem Registers.calls_eq (h : Registers s p s₁) {j : ℕ} (hj : j ≠ p.call) :
    s₁.calls[j]? = s.calls[j]? := by
  have heq := h.eq
  obtain ⟨e, -, -, hi, -⟩ := h
  have hcalls := calls_put (s := { s with pending := s.pending ++ [p] }) hi .sending
  rw [heq, hcalls, List.getElem?_set_ne hj.symm]

theorem Registers.reached (h : Registers s p s₁) (hr : Reached port timeout done s) :
    Reached port timeout done s₁ := by
  obtain ⟨e, now, isSent, hi, -, -, -, hs⟩ := h
  -- no probe is counted down by it
  have hcompletion : s.completion? (.proceed p.call now isSent) = none := by
    rw [completion?, hi]
  have hstep := hr.step hs
  rwa [hcompletion, Option.toList_none, List.append_nil] at hstep

/-! ### Runs -/

theorem follow_append (done : List ℕ) (s : HalfOpen) (as bs : List ScannerAction) :
    follow done s (as ++ bs) = (follow done s as).bind fun x => follow x.1 x.2 bs := by
  induction as generalizing done s with
  | nil => rfl
  | cons a as ih =>
    rw [List.cons_append, follow, follow, Option.bind_assoc]
    exact congrArg _ (funext fun s' => ih _ s')

namespace Reached

theorem port_eq (hr : Reached port timeout done s) : s.port = port := by
  induction hr with
  | start => rfl
  | step _ hs ih =>
    have hm := move_of_step hs
    rw [← ih]
    cases hm <;> rfl

theorem owed_nodup (hr : Reached port timeout done s) : s.accounts.owed.Nodup := by
  have hn : s.accounts.begun.Nodup := nodup_indices _ _
  rw [hr.balanced.1.begun_eq] at hn
  exact Multiset.nodup_of_le (Multiset.le_add_right _ _) hn

/-- What is concluded and not yet reported is owed, and not by the pending probes. -/
theorem owed_of_concluded (hr : Reached port timeout done s) (h : Concluded s k o) :
    (k, o) ∈ s.reports ∨ k ∈ s.accounts.owed ∧ k ∉ s.pendingCalls := by
  -- nothing is owed twice, so the three kinds of debtors have no probe in common
  have hn : (s.callsOwe + (s.pendingCalls + s.handOffsOwe)).Nodup := hr.owed_nodup
  obtain ⟨-, hn', hcalls⟩ := Multiset.nodup_add.mp hn
  rcases h with h | h | ⟨-, c, hc, hphase⟩
  · exact .inl h
  · right
    obtain ⟨i, hi⟩ := List.mem_iff_getElem?.mp h
    obtain ⟨m, hm, -⟩ := sum_map_split HandOff.owes hi
    have hk : k ∈ s.handOffsOwe := by
      rw [handOffsOwe, hm]
      exact Multiset.mem_add.mpr (.inl (Multiset.mem_singleton_self k))
    obtain ⟨-, -, hdisjoint⟩ := Multiset.nodup_add.mp hn'
    exact ⟨Multiset.mem_add.mpr (.inr (Multiset.mem_add.mpr (.inr hk))),
      fun hp => Multiset.disjoint_left.mp hdisjoint hp hk⟩
  · right
    obtain ⟨i, hi⟩ := List.mem_iff_getElem?.mp hc
    obtain ⟨m, hm, -⟩ := sum_mapIdx_split (fun i (c : ProbeCall) => c.phase.owes i) hi
    have hk : k ∈ s.callsOwe := by
      rw [callsOwe, hm, hphase]
      exact Multiset.mem_add.mpr (.inl (Multiset.mem_singleton_self k))
    exact ⟨Multiset.mem_add.mpr (.inl hk), fun hp =>
      Multiset.disjoint_left.mp hcalls hk (Multiset.mem_add.mpr (.inl hp))⟩

/-- A concluded probe has no report but that of its outcome. -/
theorem eq_of_concluded (hr : Reached port timeout done s) (h : Concluded s k o)
    {o' : Option Endpoint} (ho' : (k, o') ∈ s.reports) : o' = o := by
  have hk : k ∈ s.accounts.reported := Multiset.mem_coe.mpr (List.mem_map_of_mem ho')
  rcases hr.owed_of_concluded h with ho | ⟨howed, -⟩
  · exact congrArg Prod.snd (List.inj_on_of_nodup_map hr.reported_nodup ho' ho rfl)
  · exact absurd hk (hr.not_reported howed)

theorem notMem_pending_of_concluded (hr : Reached port timeout done s)
    (h : Concluded s p.call o) : p ∉ s.pending := by
  intro hp
  rcases hr.owed_of_concluded h with ho | ⟨-, hk⟩
  · exact (hr.pending_open hp).2.1 (List.mem_map_of_mem ho)
  · exact hk (Multiset.mem_coe.mpr (List.mem_map_of_mem hp))

theorem mem_reports_of_idle (hr : Reached port timeout done s) (h : Concluded s k o)
    (hs : s.isIdle = true) : (k, o) ∈ s.reports := by
  rcases hr.owed_of_concluded h with ho | ⟨howed, -⟩
  · exact ho
  · have hreported := hr.begun_eq_of_idle hs
    rw [hr.balanced.1.begun_eq, add_eq_right] at hreported
    rw [hreported] at howed
    exact absurd howed (Multiset.notMem_zero k)

end Reached

theorem concluded_of_follow (as : List ScannerAction) (hf : follow done s as = some (done', s'))
    (h : Concluded s k o) : Concluded s' k o := by
  induction as generalizing done s with
  | nil =>
    cases hf
    exact h
  | cons a as ih =>
    obtain ⟨s₁, hs, hf⟩ := Option.bind_eq_some_iff.mp hf
    exact ih hf ((move_of_step hs).concluded h)

/-- A pending probe stays so until the first decision, and this one is for good. -/
theorem Reached.first (hr : Reached port timeout done s) (hp : p ∈ s.pending)
    (as : List ScannerAction) (hf : HalfOpen.follow done s as = some (done', s')) :
    (firstDecision? p s as = none → p ∈ s'.pending ∧
      ∀ (j : ℕ) c, s'.calls[j]? = some c → keyOf? c.endpoint = some p.key → IsUnderway c.phase →
        ∃ d, s.calls[j]? = some d ∧ d.endpoint = c.endpoint ∧ IsUnderway d.phase) ∧
    ∀ o, firstDecision? p s as = some o → Concluded s' p.call o := by
  induction as generalizing done s with
  | nil =>
    cases hf
    refine ⟨fun _ => ⟨hp, fun j c hj _ hu => ⟨c, hj, rfl, hu⟩⟩, ?_⟩
    rintro o ⟨⟩
  | cons a as ih =>
    obtain ⟨s₁, hs, hf⟩ := Option.bind_eq_some_iff.mp hf
    have hm := move_of_step hs
    rw [firstDecision?, hs, Option.bind_some]
    -- the probe waits on, or this is the decision and all later steps keep to it
    cases hd : s.decision? p a with
    | none =>
      obtain ⟨hnone, hsome⟩ := ih (hr.step hs) (hm.pending hp hd) hf
      rw [Option.none_or]
      refine ⟨fun h => ⟨(hnone h).1, ?_⟩, hsome⟩
      intro j c hj hk hu
      obtain ⟨d, hd, he, hu'⟩ := (hnone h).2 j c hj hk hu
      obtain ⟨b, hb, he', hub⟩ := hm.underway hp hd (he ▸ hk) hu'
      exact ⟨b, hb, he'.trans he, hub⟩
    | some o =>
      rw [Option.some_or]
      refine ⟨nofun, ?_⟩
      rintro _ ⟨⟩
      have hconcluded := hm.concluded_of_decision hp hr.balanced.2 hd
      exact concluded_of_follow as hf hconcluded

/-! ### Endpoints that are reported open -/

/-- Only a reply decides that an endpoint is open. -/
theorem eq_of_decision?_eq_open {e : Endpoint} (hd : s.decision? p a = some (some e)) :
    ∃ bs r, a = .receive (some (.datagram bs)) ∧ Wire.Reply.ofDatagram? bs = some r ∧
      (r.source, r.sourcePort) = p.key ∧ r.targetPort = s.port ∧ r.isSynAck = true ∧
      e = endpointOf p.key := by
  unfold decision? at hd
  split at hd
  · next bs =>
    obtain ⟨r, hr, ha⟩ := Option.bind_eq_some_iff.mp hd
    unfold answer? at ha
    split at ha
    · next hmatch =>
      split at ha
      · next hopen =>
        cases ha
        exact ⟨bs, r, rfl, hr, hmatch.1, hmatch.2, hopen, rfl⟩
      · split at ha <;> cases ha
    · cases ha
  · split at hd <;> cases hd
  · obtain ⟨c, -, hc⟩ := Option.bind_eq_some_iff.mp hd
    split at hc <;> cases hc
  · cases hd
  · cases hd

structure Opens (s : HalfOpen) (P : ℕ → Endpoint → Prop) : Prop where
  handOffs : ∀ h ∈ s.handOffs, ∀ e, h.outcome = some e → P h.call e
  reports : ∀ x ∈ s.reports, ∀ e, x.2 = some e → P x.1 e

theorem Opens.mono {P Q : ℕ → Endpoint → Prop} (h : Opens s P) (hpq : ∀ k e, P k e → Q k e) :
    Opens s Q :=
  ⟨fun x hx e he => hpq _ _ (h.handOffs x hx e he), fun x hx e he => hpq _ _ (h.reports x hx e he)⟩

theorem Opens.take {P : ℕ → Endpoint → Prop} (h : Opens s P) (loop : LoopPhase)
    (f : PendingProbe → Bool) {outcome : PendingProbe → Option Endpoint}
    (ho : ∀ p ∈ s.pending, f p = true → ∀ e, outcome p = some e → P p.call e) :
    Opens (s.take loop f outcome) P := by
  refine ⟨?_, h.reports⟩
  intro x hx
  rcases List.mem_append.mp hx with hx | hx
  · exact h.handOffs x hx
  · obtain ⟨p, hp, rfl⟩ := List.mem_map.mp hx
    obtain ⟨hp, hf⟩ := List.mem_filter.mp hp
    exact ho p hp hf

/-- An endpoint is reported open only for a probe for which that is decided. -/
theorem Move.opens {P : ℕ → Endpoint → Prop} (hm : Move s a s') (h : Opens s P)
    (hnew : ∀ p ∈ s.pending, ∀ e, s.decision? p a = some (some e) → P p.call e) : Opens s' P := by
  cases hm
  case reported =>
    refine ⟨h.handOffs, ?_⟩
    intro x hx
    rcases List.mem_append.mp hx with hx | hx
    · exact h.reports x hx
    · rw [List.mem_singleton.mp hx]
      exact fun e he => nomatch he
  -- of all moves only a reply can decide that an endpoint is open
  case heard key isOpen _ hv =>
    apply h.take
    intro p hp hkey e he
    apply hnew p hp e
    rw [decision?_datagram, hv, Option.bind_some, if_pos (beq_iff_eq.mp hkey).symm, ← he]
  case swept => exact h.take _ _ fun _ _ _ _ he => nomatch he
  case cleared => exact h.take _ _ fun _ _ _ _ he => nomatch he
  case delivered i x hi _ =>
    have hx := h.handOffs x (List.mem_of_getElem? hi)
    constructor
    · intro y hy
      rcases List.mem_or_eq_of_mem_set hy with hy | rfl
      · exact h.handOffs y hy
      · exact hx
    · intro y hy
      rcases List.mem_append.mp hy with hy | hy
      · exact h.reports y hy
      · rw [List.mem_singleton.mp hy]
        exact hx
  case finished => exact ⟨fun x hx => h.handOffs x (List.mem_of_mem_eraseIdx hx), h.reports⟩
  all_goals exact ⟨h.handOffs, h.reports⟩

/-- Among some actions from the start is a reply that opens a connection to the port, from an
endpoint that the probe of a call was pending for when the reply came. -/
def Answered (port : Port) (timeout : ℕ) (as : List ScannerAction) (k : ℕ) (e : Endpoint) : Prop :=
  ∃ before bs after done₀ s₀ p r, as = before ++ .receive (some (.datagram bs)) :: after ∧
    follow [] (.start port timeout) before = some (done₀, s₀) ∧
    p ∈ s₀.pending ∧ p.call = k ∧ endpointOf p.key = e ∧
    Wire.Reply.ofDatagram? bs = some r ∧ (r.source, r.sourcePort) = p.key ∧
    r.targetPort = port ∧ r.isSynAck = true

theorem opens_of_follow (as : List ScannerAction)
    (hf : follow [] (.start port timeout) as = some (done, s)) :
    Opens s (Answered port timeout as) := by
  induction as using List.reverseRecOn generalizing done s with
  | nil =>
    cases hf
    constructor <;> simp [HalfOpen.start]
  | append_singleton as a ih =>
    rw [follow_append] at hf
    obtain ⟨⟨done₀, s₀⟩, hf₀, hf⟩ := Option.bind_eq_some_iff.mp hf
    obtain ⟨s₁, hs, hf⟩ := Option.bind_eq_some_iff.mp hf
    cases hf
    -- what came among fewer actions came among more
    have hlater : ∀ k e, Answered port timeout as k e → Answered port timeout (as ++ [a]) k e := by
      rintro k e ⟨before, bs, after, done', s', p, r, rfl, h⟩
      exact ⟨before, bs, after ++ [a], done', s', p, r, by simp, h⟩
    refine (move_of_step hs).opens ((ih hf₀).mono hlater) ?_
    intro p hp e hd
    obtain ⟨bs, r, rfl, hr, hkey, hport, hopen, rfl⟩ := eq_of_decision?_eq_open hd
    rw [(Reached.start.follow as hf₀).port_eq] at hport
    exact ⟨as, bs, [], done₀, s₀, p, r, rfl, hf₀, hp, rfl, rfl, hr, hkey, hport, hopen⟩

/-! ### Decisions -/

/-- The first event that concerns a probe decides its report.  The events are those of `decision?`.
Until one comes the probe is pending and not reported; from then on it has no report but that of its
outcome, and has it when nothing is in flight.  A segment that was not sent is that of its own call,
or of one for the same endpoint that was already about to send when the probe was registered.  Any
other datagram leaves everything that is pending, in flight, handed off or reported as it is.  An
endpoint is reported open only for a probe that was pending for it when a reply from it came. -/
theorem decided_by_first {as : List ScannerAction}
    (h : follow [] (.start port timeout) as = some (done, s)) :
    (∀ p s₁ bs done' s', Registers s p s₁ → follow done s₁ bs = some (done', s') →
      (firstDecision? p s₁ bs = none →
        p ∈ s'.pending ∧ p.call ∉ s'.reports.map Prod.fst ∧
          ∀ (j : ℕ) c, j ≠ p.call → s'.calls[j]? = some c → keyOf? c.endpoint = some p.key →
            c.phase = .retracting → ∃ d, s.calls[j]? = some d ∧ IsUnderway d.phase) ∧
      ∀ o, firstDecision? p s₁ bs = some o →
        Concluded s' p.call o ∧ p ∉ s'.pending ∧ (∀ o', (p.call, o') ∈ s'.reports → o' = o) ∧
          (s'.isIdle = true → (p.call, o) ∈ s'.reports)) ∧
    (∀ r s', s.step (.receive r) = some s' →
      (∀ p ∈ s.pending, s.decision? p (.receive r) = none) →
      s'.pending = s.pending ∧ s'.inFlight = s.inFlight ∧ s'.handOffs = s.handOffs ∧
        s'.reports = s.reports) ∧
    ∀ k e, (k, some e) ∈ s.reports → Answered port timeout as k e := by
  have hr : Reached port timeout done s := Reached.start.follow as h
  refine ⟨?_, ?_, ?_⟩
  · intro p s₁ bs done' s' hreg hf
    have hr₁ : Reached port timeout done s₁ := hreg.reached hr
    have hr' : Reached port timeout done' s' := hr₁.follow bs hf
    obtain ⟨hnone, hsome⟩ := hr₁.first hreg.mem_pending bs hf
    constructor
    · intro hd
      obtain ⟨hp', hunderway⟩ := hnone hd
      refine ⟨hp', (hr'.pending_open hp').2.1, ?_⟩
      intro j c hj hc hkey hphase
      obtain ⟨d, hd, -, hu⟩ := hunderway j c hc hkey (.inr hphase)
      exact ⟨d, hreg.calls_eq hj ▸ hd, hu⟩
    · intro o hd
      have hconcluded := hsome o hd
      exact ⟨hconcluded, hr'.notMem_pending_of_concluded hconcluded,
        fun o' ho' => hr'.eq_of_concluded hconcluded ho',
        fun hidle => hr'.mem_reports_of_idle hconcluded hidle⟩
  · intro r s' hs hnone
    rw [(move_of_step hs).receive_unchanged hnone]
    exact ⟨rfl, rfl, rfl, rfl⟩
  · exact fun k e hx => (opens_of_follow as h).reports _ hx e rfl

namespace Sample

def opening : Wire.Bytes :=
  (Wire.Segment.change (.plain 167772162 167772161 80 40000 0 0)
    (.flags (Wire.flagSyn ||| Wire.flagAck))).datagram

def approach : List ScannerAction := [.call target, .proceed 0 0 true, .proceed 0 0 true]

def answered : List ScannerAction :=
  [.proceed 0 0 true, .check, .receive (some (.datagram opening)), .sweep 9, .deliver 0, .finish 0]

def atRegistration : HalfOpen :=
  { HalfOpen.start 40000 5 with calls := [⟨target, .registering⟩], inFlight := 1 }

def registered : HalfOpen :=
  { HalfOpen.start 40000 5 with
    calls := [⟨target, .sending⟩]
    pending := [⟨0, (167772162, 80), 5⟩]
    inFlight := 1 }

def afterAnswer : HalfOpen :=
  { HalfOpen.start 40000 5 with
    calls := [⟨target, .returned⟩]
    finished := 1
    reports := [(0, some target)] }

/-- The target is reported open, and only that, because its answer was the first event. -/
theorem decided_by_first_of_answer :
    follow [] atRegistration (.proceed 0 0 true :: answered) = some ([0], afterAnswer) ∧
      (∀ o, (0, o) ∈ afterAnswer.reports → o = some target) ∧
      Answered 40000 5 (approach ++ .proceed 0 0 true :: answered) 0 target := by
  have hregisters : Registers atRegistration ⟨0, (167772162, 80), 5⟩ registered :=
    ⟨target, 0, true, rfl, rfl, rfl, rfl, rfl⟩
  have hbefore : follow [] (.start 40000 5) approach = some ([], atRegistration) := rfl
  have hafter : follow [] registered answered = some ([0], afterAnswer) := rfl
  obtain ⟨hfirst, -, -⟩ := decided_by_first hbefore
  obtain ⟨-, hdecided⟩ := hfirst _ _ answered _ _ hregisters hafter
  have hwhole : follow [] (.start 40000 5) (approach ++ .proceed 0 0 true :: answered) =
      some ([0], afterAnswer) := rfl
  obtain ⟨-, -, hopen⟩ := decided_by_first hwhole
  exact ⟨rfl, (hdecided (some target) rfl).2.2.1, hopen 0 target (List.mem_singleton_self _)⟩

end Sample

end Recon.HalfOpen
