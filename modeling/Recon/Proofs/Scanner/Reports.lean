import Mathlib.Tactic.Abel
import Recon.Proofs.List.Sum
import Recon.Proofs.Scanner.Move

/-!
# Reports of the half-open scanner

Every probe that has begun is in exactly one place: with its own call before it is registered,
pending, handed off, with a call that is to report it, or reported.  Whatever removes a pending
probe takes over its report, so no place is left without a successor and none is entered twice.
The scanner counts a probe down only after its report, so nothing is unreported when the count is
at zero.
-/

namespace Recon

namespace CallPhase

def hasBegun : CallPhase → Bool
  | .entering | .counting | .refused => false
  | _ => true

def owes (i : ℕ) : CallPhase → Multiset ℕ
  | .registering => {i}
  | .reporting call => {call}
  | _ => 0

def settles : CallPhase → Multiset ℕ
  | .settling call => {call}
  | _ => 0

end CallPhase

namespace HandOff

def owes (h : HandOff) : Multiset ℕ := if h.delivered then 0 else {h.call}

def settles (h : HandOff) : Multiset ℕ := if h.delivered then {h.call} else 0

end HandOff

namespace HalfOpen

def callsOwe (s : HalfOpen) : Multiset ℕ := (s.calls.mapIdx fun i c => c.phase.owes i).sum

def callsSettle (s : HalfOpen) : Multiset ℕ := (s.calls.mapIdx fun _ c => c.phase.settles).sum

def handOffsOwe (s : HalfOpen) : Multiset ℕ := (s.handOffs.map HandOff.owes).sum

def handOffsSettle (s : HalfOpen) : Multiset ℕ := (s.handOffs.map HandOff.settles).sum

def pendingCalls (s : HalfOpen) : Multiset ℕ := (s.pending.map PendingProbe.call : List ℕ)

structure Accounts where
  begun : Multiset ℕ
  owed : Multiset ℕ
  settling : Multiset ℕ
  reported : Multiset ℕ
  inFlight : ℕ
  finished : ℕ

def accounts (s : HalfOpen) : Accounts where
  begun := indices (fun c => c.phase.hasBegun) s.calls
  owed := s.callsOwe + (s.pendingCalls + s.handOffsOwe)
  settling := s.callsSettle + s.handOffsSettle
  reported := (s.reports.map Prod.fst : List ℕ)
  inFlight := s.inFlight
  finished := s.finished

inductive Entry : Accounts → Option ℕ → Accounts → Prop
  | keep {x} : Entry x none x
  | begin {b o e r n f} (k : ℕ) :
      Entry ⟨b, o, e, r, n, f⟩ none ⟨{k} + b, {k} + o, e, r, n + 1, f⟩
  | report {b o e r n f} (k : ℕ) :
      Entry ⟨b, {k} + o, e, r, n, f⟩ none ⟨b, o, {k} + e, {k} + r, n, f⟩
  | finish {b o e r n f} (k : ℕ) :
      Entry ⟨b, o, {k} + e, r, n, f⟩ (some k) ⟨b, o, e, r, n - 1, f + 1⟩

theorem Entry.of_eq {x y : Accounts} (h : x = y) : Entry x none y := h ▸ .keep

def completion? (s : HalfOpen) : ScannerAction → Option ℕ
  | .proceed i _ _ =>
    match s.calls[i]? with
    | some ⟨_, .settling call⟩ => some call
    | _ => none
  | .finish i =>
    match s.handOffs[i]? with
    | some h => if h.delivered then some h.call else none
    | none => none
  | _ => none

/-- The states that a scanner reaches, and the probes that have been counted down on the way. -/
inductive Reached (port : Port) (timeout : ℕ) : List ℕ → HalfOpen → Prop
  | start : Reached port timeout [] (.start port timeout)
  | step {done s a s'} (hr : Reached port timeout done s) (hs : s.step a = some s') :
      Reached port timeout (done ++ (s.completion? a).toList) s'

variable {s s' : HalfOpen} {a : ScannerAction} {done : List ℕ} {i : ℕ} {c : ProbeCall}

theorem calls_put (hi : s.calls[i]? = some c) (phase : CallPhase) :
    (s.put i phase).calls = s.calls.set i ⟨c.endpoint, phase⟩ := by
  apply List.ext_getElem?
  intro k
  rw [put, List.getElem?_modify, List.getElem?_set]
  by_cases hik : i = k
  · subst hik
    obtain ⟨hlt, rfl⟩ := List.getElem?_eq_some_iff.mp hi
    simp [hlt]
  · simp [hik]

/-- A call has its own part in the accounts.  A move that puts it into another phase makes an entry
if the entry is right for this part, whatever the other calls have. -/
theorem entry_put {s₀ : HalfOpen} {phase : CallPhase} {d : Option ℕ} (hi : s.calls[i]? = some c)
    (hc : s₀.calls = s.calls)
    (h : ∀ b o e : Multiset ℕ, Entry
      ⟨(if c.phase.hasBegun then {i} else 0) + b,
        c.phase.owes i + (o + (s.pendingCalls + s.handOffsOwe)),
        c.phase.settles + (e + s.handOffsSettle), (s.reports.map Prod.fst : List ℕ),
        s.inFlight, s.finished⟩ d
      ⟨(if phase.hasBegun then {i} else 0) + b,
        phase.owes i + (o + (s₀.pendingCalls + s₀.handOffsOwe)),
        phase.settles + (e + s₀.handOffsSettle), (s₀.reports.map Prod.fst : List ℕ),
        s₀.inFlight, s₀.finished⟩) :
    Entry s.accounts d (s₀.put i phase).accounts := by
  -- the shares of the other calls are the same before and after
  obtain ⟨b, hb, hb'⟩ := sum_mapIdx_split
    (fun i (c : ProbeCall) => if c.phase.hasBegun then ({i} : Multiset ℕ) else 0) hi
  obtain ⟨o, ho, ho'⟩ := sum_mapIdx_split (fun i (c : ProbeCall) => c.phase.owes i) hi
  obtain ⟨e, he, he'⟩ := sum_mapIdx_split (fun _ (c : ProbeCall) => c.phase.settles) hi
  have hcalls : (s₀.put i phase).calls = s.calls.set i ⟨c.endpoint, phase⟩ := by
    rw [calls_put (hc ▸ hi), hc]
  have h0 : s.accounts = ⟨(if c.phase.hasBegun then {i} else 0) + b,
      c.phase.owes i + (o + (s.pendingCalls + s.handOffsOwe)),
      c.phase.settles + (e + s.handOffsSettle), (s.reports.map Prod.fst : List ℕ),
      s.inFlight, s.finished⟩ := by
    rw [accounts, indices, callsOwe, callsSettle, hb, ho, he, add_assoc, add_assoc]
  have h1 : (s₀.put i phase).accounts = ⟨(if phase.hasBegun then {i} else 0) + b,
      phase.owes i + (o + (s₀.pendingCalls + s₀.handOffsOwe)),
      phase.settles + (e + s₀.handOffsSettle), (s₀.reports.map Prod.fst : List ℕ),
      s₀.inFlight, s₀.finished⟩ := by
    rw [accounts, indices, callsOwe, callsSettle, hcalls, hb', ho', he', add_assoc, add_assoc]
    rfl
  rw [h0, h1]
  exact h b o e

theorem pendingCalls_filter (s : HalfOpen) (f : PendingProbe → Bool) :
    s.pendingCalls = ((s.pending.filter f).map PendingProbe.call : List ℕ) +
      ((s.pending.filter fun p => !f p).map PendingProbe.call : List ℕ) := by
  rw [pendingCalls, Multiset.coe_add, ← List.map_append]
  exact Multiset.coe_eq_coe.mpr ((List.filter_append_perm f s.pending).symm.map _)

/-- What the loop takes from the pending probes, it hands off. -/
theorem accounts_take (s : HalfOpen) (loop : LoopPhase) (f : PendingProbe → Bool)
    (outcome : PendingProbe → Option Endpoint) :
    (s.take loop f outcome).accounts = s.accounts := by
  -- what is handed off is owed as it was while it was pending
  have howe : ((s.pending.filter f).map fun p => HandOff.owes ⟨p.call, outcome p, false⟩).sum =
      ((s.pending.filter f).map PendingProbe.call : List ℕ) := by
    induction s.pending.filter f with
    | nil => rfl
    | cons p ps ih => rw [List.map_cons, List.sum_cons, ih]; rfl
  have hsettle : ((s.pending.filter f).map fun p =>
      HandOff.settles ⟨p.call, outcome p, false⟩).sum = 0 := by
    simp [HandOff.settles]
  have hp := s.pendingCalls_filter f
  simp only [accounts, take, pendingCalls, callsOwe, callsSettle, handOffsOwe, handOffsSettle,
    List.map_append, List.map_map, List.sum_append, Function.comp_def, howe, hsettle, add_zero]
  rw [pendingCalls] at hp
  rw [hp]
  congr 2
  abel

theorem filter_key {ps : List PendingProbe} {key : ProbeKey} {p : PendingProbe}
    (hk : (ps.map PendingProbe.key).Nodup) (hp : ps.find? (fun p => p.key == key) = some p) :
    ps.filter (fun p => p.key == key) = [p] := by
  induction ps with
  | nil => cases hp
  | cons q ps ih =>
    obtain ⟨hq, hk⟩ := List.nodup_cons.mp hk
    by_cases hqk : (q.key == key) = true
    · rw [List.find?_cons, hqk] at hp
      cases hp
      rw [List.filter_cons, if_pos hqk]
      congr 1
      -- any other entry of this key would be a second one
      apply List.filter_eq_nil_iff.mpr
      intro p hp hpk
      refine hq (List.mem_map.mpr ⟨p, hp, ?_⟩)
      rw [beq_iff_eq.mp hpk, beq_iff_eq.mp hqk]
    · rw [List.find?_cons, eq_false_of_ne_true hqk] at hp
      rw [List.filter_cons, if_neg hqk]
      exact ih hk hp

theorem coe_map_concat {α : Type} (l : List (ℕ × α)) (k : ℕ) (a : α) :
    (((l ++ [(k, a)]).map Prod.fst : List ℕ) : Multiset ℕ) = {k} + (l.map Prod.fst : List ℕ) := by
  rw [List.map_append, ← Multiset.coe_add, add_comm]
  rfl

theorem pendingCalls_concat (s : HalfOpen) (p : PendingProbe) :
    pendingCalls { s with pending := s.pending ++ [p] } = {p.call} + s.pendingCalls := by
  simp [pendingCalls, ← Multiset.coe_add, add_comm]

/-- A key that is pending once is retracted with its one probe. -/
theorem pendingCalls_retract {key : ProbeKey} {p : PendingProbe}
    (hk : (s.pending.map PendingProbe.key).Nodup)
    (hp : s.pending.find? (fun p => p.key == key) = some p) :
    s.pendingCalls =
      {p.call} + pendingCalls { s with pending := s.pending.filter fun p => p.key != key } := by
  rw [s.pendingCalls_filter fun p => p.key == key, filter_key hk hp]
  rfl

/-- A report that is handed off has its own part in the accounts, which goes to what the report
becomes, or with it. -/
theorem accounts_split_handOff {h : HandOff} (hi : s.handOffs[i]? = some h) :
    ∃ o e : Multiset ℕ,
      s.accounts = ⟨indices (fun c => c.phase.hasBegun) s.calls, h.owes + o, h.settles + e,
        (s.reports.map Prod.fst : List ℕ), s.inFlight, s.finished⟩ ∧
      (∀ h' rs, accounts { s with handOffs := s.handOffs.set i h', reports := rs } =
        ⟨indices (fun c => c.phase.hasBegun) s.calls, h'.owes + o, h'.settles + e,
          (rs.map Prod.fst : List ℕ), s.inFlight, s.finished⟩) ∧
      accounts { s.countDown with handOffs := s.handOffs.eraseIdx i } =
        ⟨indices (fun c => c.phase.hasBegun) s.calls, o, e,
          (s.reports.map Prod.fst : List ℕ), s.inFlight - 1, s.finished + 1⟩ := by
  obtain ⟨o, ho, hos, hoe⟩ := sum_map_split HandOff.owes hi
  obtain ⟨e, he, hes, hee⟩ := sum_map_split HandOff.settles hi
  have howed (m : Multiset ℕ) : s.callsOwe + (s.pendingCalls + (m + o)) =
      m + (s.callsOwe + (s.pendingCalls + o)) := by abel
  have hsettled (m : Multiset ℕ) : s.callsSettle + (m + e) = m + (s.callsSettle + e) := by abel
  refine ⟨s.callsOwe + (s.pendingCalls + o), s.callsSettle + e, ?_, fun h' rs => ?_, ?_⟩
  · rw [accounts, handOffsOwe, handOffsSettle, ho, he, howed, hsettled]
  · rw [accounts, handOffsOwe, handOffsSettle, hos, hes, ← howed, ← hsettled]
    rfl
  · rw [accounts, handOffsOwe, handOffsSettle, hoe, hee]
    rfl

attribute [local simp] CallPhase.hasBegun CallPhase.owes CallPhase.settles countDown

/-- A step of a call begins a probe, reports one, counts one down or leaves the accounts alone. -/
theorem Move.entry_proceed {now : ℕ} {isSent : Bool} (hm : Move s (.proceed i now isSent) s')
    (hk : (s.pending.map PendingProbe.key).Nodup) :
    Entry s.accounts (s.completion? (.proceed i now isSent)) s'.accounts := by
  cases hm
  case counted hi =>
    rw [completion?, hi]
    refine entry_put hi rfl ?_
    intro b o e
    simp [-Multiset.singleton_add]
    exact .begin _
  case registered key _ hp hi =>
    rw [completion?, hi]
    refine entry_put hi rfl fun b o e => .of_eq ?_
    rw [pendingCalls_concat]
    congr 1
    simp only [CallPhase.owes, zero_add]
    change _ = o + ({i} + s.pendingCalls + s.handOffsOwe)
    abel
  case retracted p _ hp hi =>
    rw [completion?, hi]
    refine entry_put hi rfl fun b o e => .of_eq ?_
    rw [pendingCalls_retract hk hp]
    congr 1
    simp only [CallPhase.owes, zero_add]
    change o + ({p.call} + pendingCalls _ + s.handOffsOwe) =
      {p.call} + (o + (pendingCalls _ + s.handOffsOwe))
    abel
  case reported k hi =>
    have hr := coe_map_concat s.reports k none
    rw [completion?, hi]
    refine entry_put hi rfl ?_
    intro b o e
    rw [hr]
    simp [-Multiset.singleton_add]
    exact .report _
  case settled hi =>
    rw [completion?, hi]
    refine entry_put hi rfl ?_
    intro b o e
    simp [-Multiset.singleton_add]
    exact .finish _
  -- the other steps of a call change only its phase
  all_goals
    rw [completion?, ‹s.calls[_]? = _›]
    refine entry_put ‹s.calls[_]? = _› rfl ?_
    intro b o e
    simp
    exact .keep

theorem entry_deliver {h : HandOff} (hi : s.handOffs[i]? = some h) (hd : h.delivered = false) :
    Entry s.accounts none (accounts { s with
      handOffs := s.handOffs.set i { h with delivered := true }
      reports := s.reports ++ [(h.call, h.outcome)] }) := by
  obtain ⟨o, e, h0, hs, -⟩ := accounts_split_handOff hi
  have howes : h.owes = {h.call} := by simp [HandOff.owes, hd]
  have hsettles : h.settles = 0 := by simp [HandOff.settles, hd]
  rw [h0, hs, coe_map_concat, howes, hsettles, zero_add]
  change Entry _ none ⟨_, 0 + o, {h.call} + e, _, _, _⟩
  rw [zero_add]
  exact .report _

theorem entry_finish {h : HandOff} (hi : s.handOffs[i]? = some h) (hd : h.delivered = true) :
    Entry s.accounts (some h.call)
      (accounts { s.countDown with handOffs := s.handOffs.eraseIdx i }) := by
  obtain ⟨o, e, h0, -, he⟩ := accounts_split_handOff hi
  have howes : h.owes = 0 := by simp [HandOff.owes, hd]
  have hsettles : h.settles = {h.call} := by simp [HandOff.settles, hd]
  rw [h0, he, howes, hsettles, zero_add]
  exact .finish _

/-- A call that has not begun its probe has no part in the accounts. -/
theorem accounts_called (e : Endpoint) :
    accounts { s with calls := s.calls ++ [⟨e, .entering⟩] } = s.accounts := by
  simp [accounts, callsOwe, callsSettle, indices_concat, List.mapIdx_concat]
  exact ⟨rfl, rfl⟩

theorem Move.entry (hm : Move s a s') (hk : (s.pending.map PendingProbe.key).Nodup) :
    Entry s.accounts (s.completion? a) s'.accounts := by
  cases a
  case proceed i now isSent => exact hm.entry_proceed hk
  case call =>
    cases hm
    rw [accounts_called]
    exact .keep
  case deliver i =>
    cases hm
    case delivered hd hi => exact entry_deliver hi hd
  case finish i =>
    cases hm
    case finished h hd hi =>
      have hcompletion : s.completion? (.finish i) = some h.call := by simp [completion?, hi, hd]
      rw [hcompletion]
      exact entry_finish hi hd
  -- what the loop does leaves the accounts alone
  all_goals
    cases hm
    all_goals first | exact .keep | exact .of_eq (accounts_take _ _ _ _).symm

/-- A key is pending once at most. -/
theorem Move.keys_nodup (hm : Move s a s') (hk : (s.pending.map PendingProbe.key).Nodup) :
    (s'.pending.map PendingProbe.key).Nodup := by
  have filtered (f : PendingProbe → Bool) : ((s.pending.filter f).map PendingProbe.key).Nodup :=
    hk.sublist ((List.filter_sublist).map _)
  cases hm
  case registered i now _ _ key _ _ hp =>
    change ((s.pending ++ [PendingProbe.mk i key (now + s.timeout)]).map PendingProbe.key).Nodup
    rw [List.map_append, List.nodup_append]
    refine ⟨hk, List.nodup_singleton _, ?_⟩
    intro k hk' k' hk'' hkk
    obtain ⟨p, hp', rfl⟩ := List.mem_map.mp hk'
    rw [List.map_singleton, List.mem_singleton] at hk''
    have hn := List.any_eq_false.mp hp p hp'
    simp [hkk, hk''] at hn
  case retracted => exact filtered _
  case heard => exact filtered _
  case swept => exact filtered _
  case cleared => exact filtered _
  all_goals exact hk

structure Accounts.Balanced (x : Accounts) (done : List ℕ) : Prop where
  begun_eq : x.begun = x.owed + x.reported
  reported_eq : x.reported = x.settling + done
  inFlight_eq : x.inFlight = x.owed.card + x.settling.card
  finished_eq : x.finished = done.length

/-- Every entry keeps the balance. -/
theorem Entry.balanced {x y : Accounts} {d : Option ℕ} (he : Entry x d y) (hb : x.Balanced done) :
    y.Balanced (done ++ d.toList) := by
  obtain ⟨hbegun, hreported, hflight, hfinished⟩ := hb
  cases he
  case keep => exact ⟨hbegun, by simpa using hreported, hflight, by simpa using hfinished⟩
  case begin k =>
    refine ⟨?_, by simpa using hreported, ?_, by simpa using hfinished⟩
    · dsimp only at hbegun ⊢
      rw [hbegun, add_assoc]
    · dsimp only at hflight ⊢
      rw [hflight, Multiset.card_add, Multiset.card_singleton]
      omega
  case report k =>
    refine ⟨?_, ?_, ?_, by simpa using hfinished⟩
    · dsimp only at hbegun ⊢
      rw [hbegun]
      abel
    · dsimp only at hreported ⊢
      rw [hreported, Option.toList_none, List.append_nil, add_assoc]
    · dsimp only at hflight ⊢
      rw [hflight, Multiset.card_add, Multiset.card_add, Multiset.card_singleton]
      omega
  case finish k =>
    refine ⟨hbegun, ?_, ?_, ?_⟩
    · dsimp only at hreported ⊢
      rw [hreported, Option.toList_some, ← Multiset.coe_add, Multiset.coe_singleton]
      abel
    · dsimp only at hflight ⊢
      rw [hflight, Multiset.card_add, Multiset.card_singleton]
      omega
    · dsimp only at hfinished ⊢
      rw [hfinished, Option.toList_some, List.length_append, List.length_singleton]

theorem Reached.balanced {port : Port} {timeout : ℕ} (hr : Reached port timeout done s) :
    s.accounts.Balanced done ∧ (s.pending.map PendingProbe.key).Nodup := by
  induction hr with
  | start => exact ⟨⟨rfl, rfl, rfl, rfl⟩, List.nodup_nil⟩
  | step hr hs ih =>
    have hm := move_of_step hs
    exact ⟨(hm.entry ih.2).balanced ih.1, hm.keys_nodup ih.2⟩

/-- A count goes down by one, for a probe that has just one report and has not been counted down. -/
theorem Entry.completed {x y : Accounts} {d : Option ℕ} (he : Entry x d y) (hb : x.Balanced done)
    (hn : x.reported.Nodup) (hlt : y.inFlight < x.inFlight) :
    x.inFlight = y.inFlight + 1 ∧ y.finished = x.finished + 1 ∧
      ∃ k, d = some k ∧ k ∉ done ∧ x.reported.count k = 1 := by
  have hreported := hb.reported_eq
  cases he
  case keep => exact absurd hlt (lt_irrefl _)
  case begin => exact absurd hlt (Nat.not_lt_of_le (Nat.le_succ _))
  case report => exact absurd hlt (lt_irrefl _)
  case finish k =>
    dsimp only at hlt hreported hn ⊢
    -- the probe is settling, and no report is both settling and done
    refine ⟨by omega, rfl, k, rfl, ?_, ?_⟩
    · rw [hreported, add_assoc, Multiset.singleton_add] at hn
      intro hk
      exact (Multiset.nodup_cons.mp hn).1 (Multiset.mem_add.mpr (.inr (Multiset.mem_coe.mpr hk)))
    · apply Multiset.count_eq_one_of_mem hn
      rw [hreported, add_assoc, Multiset.singleton_add]
      exact Multiset.mem_cons_self k _

/-! ### What the reports say -/

def asked? (s : HalfOpen) (k : ℕ) : Option Endpoint := s.calls[k]?.map ProbeCall.endpoint

theorem asked?_put (s : HalfOpen) (i k : ℕ) (phase : CallPhase) :
    (s.put i phase).asked? k = s.asked? k := by
  rw [asked?, asked?, put, List.getElem?_modify]
  cases s.calls[k]? with
  | none => rfl
  | some c =>
    by_cases hik : i = k
    · simp [hik]
    · simp [hik]

theorem eq_endpointOf {e : Endpoint} {key : ProbeKey} (h : keyOf? e = some key) :
    e = endpointOf key := by
  obtain ⟨address, port⟩ := e
  cases address <;> cases h
  rfl

structure Attributed (s : HalfOpen) : Prop where
  pending : ∀ p ∈ s.pending, s.asked? p.call = some (endpointOf p.key)
  handOffs : ∀ h ∈ s.handOffs, ∀ e, h.outcome = some e → s.asked? h.call = some e
  reports : ∀ x ∈ s.reports, ∀ e, x.2 = some e → s.asked? x.1 = some e

theorem Move.asked (hm : Move s a s') {k : ℕ} {e : Endpoint} (hk : s.asked? k = some e) :
    s'.asked? k = some e := by
  cases hm
  case called =>
    obtain ⟨c, hc, rfl⟩ := Option.map_eq_some_iff.mp hk
    have hlt := (List.getElem?_eq_some_iff.mp hc).1
    rw [asked?, List.getElem?_append_left hlt, hc]
    rfl
  all_goals first | exact hk | exact (asked?_put _ _ _ _).trans hk

theorem Attributed.mono (h : Attributed s)
    (hasked : ∀ k e, s.asked? k = some e → s'.asked? k = some e)
    (hp : ∀ p ∈ s'.pending, p ∈ s.pending ∨ s'.asked? p.call = some (endpointOf p.key))
    (hh : ∀ x ∈ s'.handOffs, x ∈ s.handOffs ∨
      ∀ e, x.outcome = some e → s'.asked? x.call = some e)
    (hr : ∀ x ∈ s'.reports, x ∈ s.reports ∨ ∀ e, x.2 = some e → s'.asked? x.1 = some e) :
    Attributed s' := by
  refine ⟨?_, ?_, ?_⟩
  · intro p hm
    rcases hp p hm with hm | ha
    · exact hasked _ _ (h.pending p hm)
    · exact ha
  · intro x hm e he
    rcases hh x hm with hm | ha
    · exact hasked _ _ (h.handOffs x hm e he)
    · exact ha e he
  · intro x hm e he
    rcases hr x hm with hm | ha
    · exact hasked _ _ (h.reports x hm e he)
    · exact ha e he

theorem Attributed.take (h : Attributed s) (loop : LoopPhase) (f : PendingProbe → Bool)
    {outcome : PendingProbe → Option Endpoint}
    (ho : ∀ p e, outcome p = some e → e = endpointOf p.key) :
    Attributed (s.take loop f outcome) := by
  refine h.mono (fun _ _ hk => hk) ?_ ?_ fun _ hx => .inl hx
  · intro p hp
    exact .inl (List.mem_of_mem_filter hp)
  · intro x hx
    rcases List.mem_append.mp hx with hx | hx
    · exact .inl hx
    · obtain ⟨p, hp, rfl⟩ := List.mem_map.mp hx
      right
      intro e he
      rw [ho p e he]
      exact h.pending p (List.mem_of_mem_filter hp)

theorem Move.attributed (hm : Move s a s') (h : Attributed s) : Attributed s' := by
  have hasked : ∀ k e, s.asked? k = some e → s'.asked? k = some e := fun _ _ => hm.asked
  cases hm
  case registered i now _ endpoint key hi hkey _ =>
    refine h.mono hasked ?_ (fun _ hx => .inl hx) fun _ hx => .inl hx
    intro p hp
    rcases List.mem_append.mp hp with hp | hp
    · exact .inl hp
    -- the new entry is for what its call has asked for
    · rw [List.mem_singleton.mp hp, ← eq_endpointOf hkey]
      refine .inr (hasked _ _ ?_)
      rw [asked?, hi]
      rfl
  case retracted =>
    refine h.mono hasked ?_ (fun _ hx => .inl hx) fun _ hx => .inl hx
    intro p hp
    exact .inl (List.mem_of_mem_filter hp)
  case reported =>
    apply h.mono hasked (fun _ hx => .inl hx) (fun _ hx => .inl hx)
    intro x hx
    rcases List.mem_append.mp hx with hx | hx
    · exact .inl hx
    · rw [List.mem_singleton.mp hx]
      exact .inr (by simp)
  case heard =>
    apply h.take _ _
    intro p e he
    split at he <;> cases he
    rfl
  case swept => exact h.take _ _ (by simp)
  case cleared => exact h.take _ _ (by simp)
  -- the report moves on as it is
  case delivered i x hi _ =>
    have hx := h.handOffs x (List.mem_of_getElem? hi)
    refine h.mono hasked (fun _ hx => .inl hx) ?_ ?_
    · intro y hy
      rcases List.mem_or_eq_of_mem_set hy with hy | rfl
      · exact .inl hy
      · exact .inr hx
    · intro y hy
      rcases List.mem_append.mp hy with hy | hy
      · exact .inl hy
      · rw [List.mem_singleton.mp hy]
        exact .inr hx
  case finished =>
    refine h.mono hasked (fun _ hx => .inl hx) ?_ fun _ hx => .inl hx
    intro x hx
    exact .inl (List.mem_of_mem_eraseIdx hx)
  all_goals exact h.mono hasked (fun _ hx => .inl hx) (fun _ hx => .inl hx) fun _ hx => .inl hx

/-- The state that some actions lead to, taken one after the other, and what they count down. -/
def follow (done : List ℕ) (s : HalfOpen) : List ScannerAction → Option (List ℕ × HalfOpen)
  | [] => some (done, s)
  | a :: as => (s.step a).bind fun s' => follow (done ++ (s.completion? a).toList) s' as

namespace Reached

variable {port : Port} {timeout : ℕ}

theorem follow (hr : Reached port timeout done s) (as : List ScannerAction) {done' : List ℕ}
    (hf : HalfOpen.follow done s as = some (done', s')) : Reached port timeout done' s' := by
  induction as generalizing done s with
  | nil =>
    cases hf
    exact hr
  | cons a as ih =>
    obtain ⟨s₁, hs, hf⟩ := Option.bind_eq_some_iff.mp hf
    exact ih (hr.step hs) hf

theorem attributed (hr : Reached port timeout done s) : Attributed s := by
  induction hr with
  | start => constructor <;> simp [HalfOpen.start]
  | step _ hs ih => exact (move_of_step hs).attributed ih

theorem reported_nodup (hr : Reached port timeout done s) : (s.reports.map Prod.fst).Nodup := by
  have hb := hr.balanced.1.begun_eq
  have hn : s.accounts.begun.Nodup := nodup_indices _ _
  rw [hb] at hn
  exact Multiset.coe_nodup.mp (Multiset.nodup_of_le (Multiset.le_add_left _ _) hn)

theorem mem_begun {k : ℕ} :
    k ∈ s.accounts.begun ↔ ∃ c, s.calls[k]? = some c ∧ c.phase.hasBegun = true :=
  mem_indices _ _

theorem begun_of_reported (hr : Reached port timeout done s) {x : ℕ × Option Endpoint}
    (hx : x ∈ s.reports) : ∃ c, s.calls[x.1]? = some c ∧ c.phase.hasBegun = true ∧
      ∀ e, x.2 = some e → c.endpoint = e := by
  have hk : x.1 ∈ s.accounts.begun := by
    rw [hr.balanced.1.begun_eq]
    exact Multiset.mem_add.mpr (.inr (Multiset.mem_coe.mpr (List.mem_map_of_mem hx)))
  obtain ⟨c, hc, hbegun⟩ := mem_begun.mp hk
  refine ⟨c, hc, hbegun, ?_⟩
  intro e he
  have ha := hr.attributed.reports x hx e he
  rw [asked?, hc] at ha
  exact Option.some.inj ha

theorem done_le (hr : Reached port timeout done s) : (done : Multiset ℕ) ≤ s.accounts.reported := by
  rw [hr.balanced.1.reported_eq]
  exact Multiset.le_add_left _ _

/-- What is owed is not reported yet. -/
theorem not_reported (hr : Reached port timeout done s) {k : ℕ} (hk : k ∈ s.accounts.owed) :
    k ∉ s.accounts.reported := by
  have hn : s.accounts.begun.Nodup := nodup_indices _ _
  rw [hr.balanced.1.begun_eq, Multiset.nodup_add] at hn
  exact Multiset.disjoint_left.mp hn.2.2 hk

theorem pendingCalls_le (s : HalfOpen) : s.pendingCalls ≤ s.accounts.owed :=
  (Multiset.le_add_right _ _).trans (Multiset.le_add_left _ _)

/-- A pending probe has begun and is neither reported nor counted down. -/
theorem pending_open (hr : Reached port timeout done s) {p : PendingProbe} (hp : p ∈ s.pending) :
    p.call ∉ done ∧ p.call ∉ s.reports.map Prod.fst ∧
      ∃ c, s.calls[p.call]? = some c ∧ c.phase.hasBegun = true ∧
        c.endpoint = endpointOf p.key := by
  have howed : p.call ∈ s.accounts.owed :=
    Multiset.mem_of_le (pendingCalls_le s) (Multiset.mem_coe.mpr (List.mem_map_of_mem hp))
  have hn := hr.not_reported howed
  have hbegun : p.call ∈ s.accounts.begun := by
    rw [hr.balanced.1.begun_eq]
    exact Multiset.mem_add.mpr (.inl howed)
  obtain ⟨c, hc, hb⟩ := mem_begun.mp hbegun
  have ha := hr.attributed.pending p hp
  rw [asked?, hc] at ha
  refine ⟨fun hd => hn ?_, fun hm => hn (Multiset.mem_coe.mpr hm), c, hc, hb, Option.some.inj ha⟩
  exact Multiset.mem_of_le hr.done_le (Multiset.mem_coe.mpr hd)

theorem pending_le (hr : Reached port timeout done s) : s.pending.length ≤ s.inFlight := by
  have hflight : s.inFlight = _ := hr.balanced.1.inFlight_eq
  have hle := Multiset.card_le_card (pendingCalls_le s)
  rw [pendingCalls, Multiset.coe_card, List.length_map] at hle
  omega

theorem begun_eq_of_idle (hr : Reached port timeout done s) (hs : s.isIdle = true) :
    s.accounts.begun = s.accounts.reported := by
  have hflight : s.inFlight = _ := hr.balanced.1.inFlight_eq
  rw [beq_iff_eq.mp hs] at hflight
  have howed : s.accounts.owed = 0 := Multiset.card_eq_zero.mp (by omega)
  rw [hr.balanced.1.begun_eq, howed, zero_add]

/-- At every moment, the probes that have begun are those that are counted down and those in
flight.  A probe is counted down after its only report, a pending one is in flight, and once
nothing is in flight every probe that has begun has been reported just once. -/
theorem reported_once (hr : Reached port timeout done s) :
    (s.calls.countP fun c => c.phase.hasBegun) = s.finished + s.inFlight ∧
      (s.finished = done.length ∧ done.Nodup) ∧
      (∀ a s', s.step a = some s' → s'.inFlight < s.inFlight →
        s.inFlight = s'.inFlight + 1 ∧ s'.finished = s.finished + 1 ∧
          ∃ k, s.completion? a = some k ∧ k ∉ done ∧ (s.reports.map Prod.fst).count k = 1) ∧
      ((s.reports.map Prod.fst).Nodup ∧ ∀ x ∈ s.reports, ∃ c, s.calls[x.1]? = some c ∧
        c.phase.hasBegun = true ∧ ∀ e, x.2 = some e → c.endpoint = e) ∧
      ((s.pending.map PendingProbe.key).Nodup ∧ s.pending.length ≤ s.inFlight ∧
        ∀ p ∈ s.pending, p.call ∉ done ∧ p.call ∉ s.reports.map Prod.fst ∧
          ∃ c, s.calls[p.call]? = some c ∧ c.phase.hasBegun = true ∧
            c.endpoint = endpointOf p.key) ∧
      (s.isIdle = true → s.pending = [] ∧ ∀ k c, s.calls[k]? = some c →
        c.phase.hasBegun = true → (s.reports.map Prod.fst).count k = 1) := by
  obtain ⟨hb, hkeys⟩ := hr.balanced
  have hn := hr.reported_nodup
  refine ⟨?_, ⟨hb.finished_eq, ?_⟩, ?_, ⟨hn, fun x hx => hr.begun_of_reported hx⟩,
    ⟨hkeys, hr.pending_le, fun p hp => hr.pending_open hp⟩, ?_⟩
  · rw [← card_indices]
    change s.accounts.begun.card = s.accounts.finished + s.accounts.inFlight
    rw [hb.begun_eq, hb.reported_eq, hb.inFlight_eq, hb.finished_eq]
    simp only [Multiset.card_add, Multiset.coe_card]
    omega
  · have hle := Multiset.le_add_left (done : Multiset ℕ) s.accounts.settling
    rw [← hb.reported_eq] at hle
    exact Multiset.coe_nodup.mp (Multiset.nodup_of_le hle (Multiset.coe_nodup.mpr hn))
  · intro a s' hs hlt
    have he := (move_of_step hs).entry hkeys
    obtain ⟨hflight, hfinished, k, hk, hd, hc⟩ := he.completed hb (Multiset.coe_nodup.mpr hn) hlt
    rw [accounts, Multiset.coe_count] at hc
    exact ⟨hflight, hfinished, k, hk, hd, hc⟩
  · intro hs
    refine ⟨List.length_eq_zero_iff.mp ?_, ?_⟩
    · have hle := hr.pending_le
      rw [beq_iff_eq.mp hs] at hle
      exact Nat.le_zero.mp hle
    · intro k c hc hbegun
      have hk := mem_begun.mpr ⟨c, hc, hbegun⟩
      rw [hr.begun_eq_of_idle hs] at hk
      exact List.count_eq_one_of_mem hn (Multiset.mem_coe.mp hk)

end Reached

namespace Sample

def target : Endpoint := ⟨.v4 167772162, 80⟩

def longTarget : Endpoint := ⟨.v6 1, 80⟩

/-- A scanner that has been asked for a target twice and for one with a long address, when nothing
is in flight any more. -/
def drained : HalfOpen :=
  { HalfOpen.start 40000 5 with
    calls := [⟨target, .returned⟩, ⟨target, .returned⟩, ⟨longTarget, .returned⟩]
    finished := 3
    reports := [(1, none), (2, none), (0, none)] }

theorem reached_drained : Reached 40000 5 [1, 2, 0] drained :=
  Reached.start.follow
    [.call target, .call target, .call longTarget, .proceed 0 0 true, .proceed 0 0 true,
      .proceed 0 0 true, .proceed 1 0 true, .proceed 1 0 true, .proceed 1 0 true,
      .proceed 2 0 true, .proceed 2 0 true, .proceed 2 0 true, .proceed 0 0 true,
      .proceed 1 0 true, .proceed 1 0 true, .proceed 2 0 true, .proceed 2 0 true, .check,
      .receive none, .sweep 5, .deliver 0, .finish 0] rfl

/-- Every probe of the sample is reported once. -/
theorem reported_once_of_drained : drained.isIdle = true ∧
    ∀ k c, drained.calls[k]? = some c → c.phase.hasBegun = true →
      (drained.reports.map Prod.fst).count k = 1 := by
  obtain ⟨_, _, _, _, _, hidle⟩ := reached_drained.reported_once
  exact ⟨rfl, (hidle rfl).2⟩

end Sample

end HalfOpen

end Recon
