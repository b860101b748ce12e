import Recon.Proofs.Task.Fate

/-!
# Cancellation

A cancellation may come at any point of a run.  From then on the walk hands on no host: it gives up
the one in its hand or in line, and does not come to those ahead.  What has been handed on before
comes to its end as ever and is accounted for.  So the run succeeds, and its counter tells how many
addresses have been left out or handed on.
-/

namespace Recon

namespace TaskState

variable {t : Task} {s s' : TaskState} {a : Action} {es : List Event}

attribute [local simp] goto fail finish complete completeHost
attribute [local simp] Stage.handedOn_eq_zero Stage.hand Stage.lined

theorem Move.cancelled_mono (hm : Move t s a s' es) (hc : s.cancelled = true) :
    s'.cancelled = true := by
  cases hm
  case cancelled => rfl
  all_goals exact hc

/-- A cancelled task hands on no host. -/
theorem Move.handedOn_of_cancelled (hm : Move t s a s' es) (ho : Orderly t s)
    (hc : s.cancelled = true) : s.stage.handedOn s'.stage = 0 := by
  cases hm
  case scanAdmittedForRun ha hc' hi hs =>
    -- the run waits for the scanning pool only where nobody is asked
    have hp := ho.ping_of_no_asker ha hi
    simp [hp, hc] at hc'
  all_goals simp_all

/-- A host that the walk hands on becomes a job of its pool, at the gate. -/
theorem Move.job_of_handedOn (hm : Move t s a s' es) (ho : Orderly t s) {host : Address}
    (hh : host ∈ s.stage.handedOn s'.stage) :
    if t.settings.ping then s'.asks.jobs = s.asks.jobs ++ [⟨host, .gate⟩]
    else s'.scans.jobs = s.scans.jobs ++ [⟨host, .gate⟩] := by
  have hline := ho.asks_line
  cases hm
  case offeredToAsks answer _ hs _ hp ha =>
    cases answer
    · obtain ⟨_, hj, _⟩ := Pool.submit_accepted ha
      simp_all [afterOffer]
    · simp [afterOffer] at hh
    · simp [afterOffer] at hh
  case offeredToScans answer _ hs _ hp ha =>
    cases answer
    · obtain ⟨_, hj, _⟩ := Pool.submit_accepted ha
      simp_all [afterOffer]
    · simp [afterOffer] at hh
    · simp [afterOffer] at hh
  case askAdmitted hs ha _ =>
    -- the only host in line is that of the walk
    obtain ⟨rest, hw, _, hj, _⟩ := Pool.admit?_eq_some ha
    cases hp : t.settings.ping <;> simp_all
  case scanAdmittedForRun ha _ hi hs =>
    have hp := ho.ping_of_no_asker ha hi
    have hw' := ho.scans_waiting_eq hp
    obtain ⟨rest, hw, _, hj, _⟩ := Pool.admit?_eq_some ha
    simp_all
  all_goals simp_all

/-- The walk stops only where the task is cancelled, and leaves no trace of what it gives up. -/
theorem Move.forsaken (hm : Move t s a s' es) (ho : Orderly t s) {hand ahead : List Address}
    (hd : s.deed? a s' = some (.forsaken hand ahead)) (ha : ∀ e, a ≠ .open (some e)) :
    s.cancelled = true ∧ s'.completed = s.completed ∧ s'.asks.jobs = s.asks.jobs ∧
      s'.scans.jobs = s.scans.jobs ∧ s'.flying = s.flying ∧ es = [] := by
  have hw : s.cancelled = true ∨ ∃ e, a = .open (some e) := hm.warranted ho _ hd
  have hc : s.cancelled = true := hw.resolve_right (by simpa using ha)
  refine ⟨hc, ?_⟩
  cases hm
  case openFailed e _ => exact absurd rfl (ha e)
  all_goals simp_all [deed?]

end TaskState

/-- The books of a run none of whose jobs has broken off: which pairs have been counted, and what
has become of every address. -/
structure Reckoning (ports : List Port) (addresses : Multiset Address) (h : List Turn)
    (completed : ℕ) : Prop where
  completed_eq : completed = ports.length * ((tally Deed.leftOut h).card + (handedOn h).card)
  card_settled : (tally (Deed.settled ports) h).card = completed
  settled_eq : tally (Deed.settled ports) h =
    (tally Deed.leftOut h + tally Deed.dead h + tally Deed.dropped h).bind (pairs ports) + probes h
  handedOn_eq : handedOn h = tally Deed.scans h + tally Deed.dead h + tally Deed.dropped h
  probes_eq : (probes h : Multiset Endpoint) = (tally Deed.scans h).bind (pairs ports)
  addresses_eq : addresses =
    tally Deed.leftOut h + handedOn h + (tally Deed.abandoned h + tally Deed.unreached h)

namespace Reckoning

variable {ports ports' : List Port} {addresses : Multiset Address} {h : List Turn} {completed : ℕ}

theorem perm (hc : Reckoning ports addresses h completed) (hp : ports.Perm ports') :
    Reckoning ports' addresses h completed := by
  -- no count looks at the order of the ports
  have hpairs := pairs_perm hp
  have hsettled := Deed.settled_perm hp
  refine ⟨?_, ?_, ?_, hc.handedOn_eq, ?_, hc.addresses_eq⟩
  · rw [← hp.length_eq, hc.completed_eq]
  · rw [← hsettled, hc.card_settled]
  · rw [← hsettled, ← hpairs, hc.settled_eq]
  · rw [← hpairs, hc.probes_eq]

theorem settled_eq_bind (hc : Reckoning ports addresses h completed) :
    tally (Deed.settled ports) h = (tally Deed.leftOut h + handedOn h).bind (pairs ports) := by
  rw [hc.settled_eq, hc.probes_eq, hc.handedOn_eq]
  simp only [Multiset.add_bind]
  abel

theorem probes_le (hc : Reckoning ports addresses h completed) :
    (probes h : Multiset Endpoint) ≤ tally (Deed.settled ports) h := by
  rw [hc.settled_eq]
  exact Multiset.le_add_left _ _

/-- An address that the walk gives up is neither probed nor counted, unless it occurs again. -/
theorem untouched (hc : Reckoning ports addresses h completed) {host : Address}
    (hg : host ∈ tally Deed.abandoned h) (hn : addresses.count host = 1) {e : Endpoint}
    (he : e ∈ probes h ∨ e ∈ tally (Deed.settled ports) h) : e.address ≠ host := by
  rintro rfl
  -- its only occurrence is the one that is given up
  have hout : e.address ∉ tally Deed.leftOut h + handedOn h := by
    intro hm
    have hm := Multiset.one_le_count_iff_mem.mpr hm
    have hg := Multiset.one_le_count_iff_mem.mpr hg
    rw [hc.addresses_eq, Multiset.count_add, Multiset.count_add _ (tally Deed.abandoned h)] at hn
    omega
  have hs : e ∈ tally (Deed.settled ports) h := by
    rcases he with he | he
    · exact Multiset.mem_of_le hc.probes_le (Multiset.mem_coe.mpr he)
    · exact he
  rw [hc.settled_eq_bind] at hs
  obtain ⟨host, hh, hs⟩ := Multiset.mem_bind.mp hs
  obtain ⟨rfl, _⟩ := mem_pairs.mp hs
  exact hout hh

end Reckoning

namespace Run

variable {t : Task} {h : List Turn} {s : TaskState}

theorem handedOn_of_cancelled (hr : Run t h s) {pre post : List Turn} {x : Turn}
    (hx : h = pre ++ x :: post) (hc : x.before.cancelled = true) : handedOn (x :: post) = 0 := by
  obtain ⟨_, hpost⟩ := hr.persists (P := fun s => s.cancelled = true)
    (fun hm hc => hm.cancelled_mono hc) hx hc
  -- the task is cancelled before each of these turns
  apply List.sum_eq_zero
  intro m hm
  obtain ⟨y, hy, rfl⟩ := List.mem_map.mp hm
  have hyh : y ∈ h := by
    rw [hx]
    exact List.mem_append_right _ hy
  obtain ⟨⟨_, hb⟩, hmove⟩ := hr.of_mem hyh
  exact hmove.handedOn_of_cancelled hb.orderly (hpost y hy)

theorem reckoning (hr : Run t h s) (hb : Unbroken h) (hf : Faithful h) (hk : 9 ≤ s.stage.rank) :
    Reckoning s.plan.ports (s.plan.blocks.flatMap Block.addresses) h s.completed := by
  have hn : (probes h : Multiset Endpoint) = tally Deed.probes h := hr.noticed.2
  obtain ⟨hprobes, hscans⟩ := hr.probes_eq_scans hb.scans hf hk
  have hends := hr.handedOn_eq (by omega)
  have hsettled := hr.settled_add_silenced hb.scans hf hk
  have hcompleted := hr.completed_eq
  -- with jobs that do not break off, there are three ends for a host
  rw [hr.homeless_eq_zero, hr.silenced_eq_zero hb, hr.cutShort_eq_zero hb.scans] at hends
  rw [hr.silenced_eq_zero hb, Multiset.zero_bind, add_zero] at hsettled
  rw [strays_eq hf, add_zero] at hcompleted
  refine ⟨?_, hcompleted.symm, ?_, ?_, ?_, ?_⟩
  · rw [hcompleted, hsettled, card_bind_pairs, Multiset.card_add, mul_comm]
  · rw [hn, hprobes, settled_eq, accounted, hr.homeless_eq_zero]
    simp only [Multiset.add_bind, add_zero]
    abel
  · simpa using hends
  · rw [hn, hscans]
  · exact hr.addresses_eq (by omega)

/-- Whenever a task is cancelled, its run returns nothing but a success, with all ports counted of
each address that has been left out or handed on, and of no other.  From the cancellation on no host
is handed on; a host that is handed on becomes a job, and is scanned, found down or dropped; and one
that is given up is neither probed nor counted. -/
theorem cancelled_accounted {ports : PortOrder} {targets : TargetList} {excluded : Exclusions}
    (hp : Plan.parts t.settings = .ok (ports, targets, excluded))
    (hn : targets.size * ports.ports.length < 2 ^ 64) (hr : Run t h s) (ho : Opened h)
    (hb : Unbroken h) (hf : Faithful h) :
    (∀ pre x post, h = pre ++ x :: post → x.before.cancelled = true → handedOn (x :: post) = 0) ∧
      (∀ x ∈ h, ∀ host ∈ x.before.stage.handedOn x.after.stage,
        if t.settings.ping then x.after.asks.jobs = x.before.asks.jobs ++ [⟨host, .gate⟩]
        else x.after.scans.jobs = x.before.scans.jobs ++ [⟨host, .gate⟩]) ∧
      (∀ x ∈ h, ∀ hand ahead,
        x.before.deed? x.action x.after = some (.forsaken hand ahead) →
          x.before.cancelled = true ∧ x.after.completed = x.before.completed ∧
            x.after.asks.jobs = x.before.asks.jobs ∧ x.after.scans.jobs = x.before.scans.jobs ∧
            x.after.flying = x.before.flying ∧ x.events = []) ∧
      s.completed ≤ s.total ∧
      ∀ outcome, s.stage = .returned outcome →
        outcome = .success ∧
          Reckoning ports.ports (targets.blocks.flatMap Block.addresses) h s.completed ∧
          ∀ host ∈ tally Deed.abandoned h,
            (targets.blocks.flatMap Block.addresses).count host = 1 →
            ∀ e, e ∈ probes h ∨ e ∈ tally (Deed.settled ports.ports) h → e.address ≠ host := by
  refine ⟨?_, ?_, ?_, ?_, ?_⟩
  · intro pre x post hx hc
    exact hr.handedOn_of_cancelled hx hc
  · intro x hx host hh
    obtain ⟨⟨_, hbefore⟩, hm⟩ := hr.of_mem hx
    exact hm.job_of_handedOn hbefore.orderly hh
  · intro x hx hand ahead hd
    obtain ⟨⟨_, hbefore⟩, hm⟩ := hr.of_mem hx
    exact hm.forsaken hbefore.orderly hd (ho x hx)
  · rw [hr.total_eq_mul hp hn]
    exact hr.completed_le hf
  · intro outcome hs
    obtain ⟨rfl, _⟩ := hr.outcome_eq_success hp ho hs
    obtain ⟨hports, hblocks, _⟩ := (hr.plans_of_success hs).eq hp
    -- the plan has the ports of the settings in another order
    have hc := (hr.reckoning hb hf (by simp [hs, Stage.rank])).perm hports
    rw [hblocks] at hc
    refine ⟨rfl, hc, ?_⟩
    intro host hg hone e he
    exact hc.untouched hg (by rwa [Multiset.coe_count]) he

end Run

namespace Sample

def third : Address := .v4 167772163

def row : Block := ⟨"10.0.0.1-10.0.0.3", first, 3⟩

/-- A task of three addresses, the first of which is excluded, that asks one host at a time. -/
def narrow : Task :=
  { task with
    settings :=
      { task.settings with
        target := "10.0.0.1-10.0.0.3"
        pool := ⟨1, 10, 50⟩ } }

theorem parts_narrow : Plan.parts narrow.settings = .ok (⟨[], [port]⟩, ⟨[row]⟩, excluded) := by
  have hv : narrow.settings.validate = .ok () := rfl
  have ht : TargetList.ofString narrow.settings.target = .ok ⟨[row]⟩ := by rfl
  have he : Exclusions.ofString narrow.settings.excluded = .ok excluded := by rfl
  exact Plan.parts_eq hv ports_task ht he

theorem excludes_third : excluded.excludes third = false := by
  rw [excluded, Exclusions.excludes_ofBlocks _ (by simpa using Block.fits_single _ first)]
  decide +kernel

def narrowPlanned : TaskState :=
  { TaskState.initial narrow with
    stage := .opening
    plan := ⟨[port], [row], excluded⟩
    total := 3
    started := true }

def narrowVisiting (index completed : ℕ) (asks : Pool AskJob) : TaskState :=
  { narrowPlanned with
    status := .running
    stage := .visiting ⟨row, ⟨3, 0, 1⟩, index, []⟩
    completed
    asks }

def gated : Pool AskJob := ⟨1, [⟨second, .gate⟩], [], 1, 0, 0, false⟩

def narrowDone : TaskState :=
  { narrowPlanned with
    status := .success
    cancelled := true
    stage := .returned .success
    completed := 2
    ended := true
    asks := ⟨1, [], [], 1, 1, 0, true⟩
    scans := (Pool.ofSize 10).close
    handovers := (Pool.ofSize 50).close }

/-- The narrow task has a run that is cancelled in a pause, with the second address at its gate and
the third in line. -/
theorem exists_cancelled_run : ∃ h, Run narrow h narrowDone ∧
    h.map Turn.action =
      [.call, .plan ⟨0, 0, 0⟩, .open none, .run, .schedule noon, .enter ⟨3, 0, 1⟩, .run, .run,
        .run, .run, .run, .run, .run, .run, .run, .run, .run, .pause, .cancel, .run, .ask 0 .skip,
        .run, .run, .run, .run, .run, .run, .run, .run, .run] := by
  have r₁ := Run.start.turn (TaskState.step_of_move (t := narrow) (.called rfl))
  have m₂ : TaskState.Move narrow
      { TaskState.initial narrow with stage := .planning, started := true } (.plan ⟨0, 0, 0⟩)
      narrowPlanned [] := .planned rfl parts_narrow (.inl (by decide))
  have r₂ := r₁.turn (TaskState.step_of_move m₂)
  -- the first address is left out
  obtain ⟨h₃, r₃, a₃⟩ := r₂.follow
    [.open none, .run, .schedule noon, .enter ⟨3, 0, 1⟩, .run, .run]
    (narrowVisiting 0 0 (.ofSize 1)) rfl
  have r₄ := r₃.turn (TaskState.step_of_move (.visitedExcluded rfl rfl excludes_first))
  -- the second address is handed on
  obtain ⟨h₅, r₅, a₅⟩ := r₄.follow [.run, .run] (narrowVisiting 1 1 (.ofSize 1)) rfl
  have r₆ := r₅.turn (TaskState.step_of_move (.visited rfl rfl excludes_second))
  obtain ⟨h₇, r₇, a₇⟩ := r₆.follow [.run, .run, .run] (narrowVisiting 2 1 gated) rfl
  -- the third address gets in line, and is given up
  have r₈ := r₇.turn (TaskState.step_of_move (.visited rfl rfl excludes_third))
  obtain ⟨h₉, r₉, a₉⟩ := r₈.follow
    [.run, .pause, .cancel, .run, .ask 0 .skip, .run, .run, .run, .run, .run, .run, .run, .run,
      .run] narrowDone rfl
  refine ⟨_, r₉, ?_⟩
  simp [a₃, a₅, a₇, a₉]

/-- The cancelled run counts two of the three addresses, and has given up the third. -/
theorem cancelled_accounted_of_run : ∃ h, Run narrow h narrowDone ∧
    (tally Deed.leftOut h).card + (handedOn h).card = 2 ∧
    (tally Deed.abandoned h + tally Deed.unreached h).card = 1 ∧
    (tally (Deed.settled [port]) h).card = 2 ∧ narrowDone.total = 3 := by
  obtain ⟨h, hr, ha⟩ := exists_cancelled_run
  have ho : Opened h := forall_action (P := fun a => ∀ e, a ≠ .open (some e)) ha (by simp)
  have hb : Unbroken h :=
    forall_action (P := fun a => ∀ i, a ≠ .ask i .panic ∧ a ≠ .scan i .panic) ha (by simp)
  have hf : Faithful h :=
    forall_action (P := fun a => (∀ e, a ≠ .lose e) ∧ ∀ o, a ≠ .stray o) ha (by simp)
  obtain ⟨_, _, _, _, hdone⟩ := hr.cancelled_accounted parts_narrow (by decide) ho hb hf
  obtain ⟨_, hc, _⟩ := hdone .success rfl
  have hcount : (tally Deed.leftOut h).card + (handedOn h).card = 2 := by
    simpa [narrowDone, PortOrder.ports] using hc.completed_eq.symm
  have hall : ([row].flatMap Block.addresses).length = 3 := by decide +kernel
  have hsum := congrArg Multiset.card hc.addresses_eq
  rw [Multiset.coe_card, hall, Multiset.card_add, Multiset.card_add] at hsum
  exact ⟨h, hr, hcount, by omega, hc.card_settled, rfl⟩

end Sample

end Recon
