import Recon.Proofs.Task.Fate

/-!
# Questions that break off

A question may break off without an answer.  The pool takes that for the end of the job, and the run
goes on and succeeds; but nobody accounts for the ports of the host.  So the counter of a run that
nothing else disturbs falls short of the total by all ports of every host whose question broke off,
and by nothing else.
-/

namespace Recon

def Action.isSilence : Action → Bool
  | .ask _ .panic => true
  | _ => false

def silences (h : List Turn) : ℕ := h.countP fun x => x.action.isSilence

theorem silences_concat (h : List Turn) (x : Turn) :
    silences (h ++ [x]) = silences h + if x.action.isSilence then 1 else 0 := by
  rw [silences, silences, List.countP_append, List.countP_singleton]

namespace TaskState

variable {t : Task} {s s' : TaskState} {a : Action} {es : List Event}

attribute [local simp] goto fail finish complete completeHost deed?
attribute [local simp] Deed.silenced Action.isSilence

theorem Move.silenced_eq (hm : Move t s a s' es) :
    (s.yield Deed.silenced a s').card = if a.isSilence then 1 else 0 := by
  unfold yield
  cases hm
  case visitedExcluded hs hn he => simp [hs, hn, he]
  case offeredToAsks answer _ hs _ _ _ => cases answer <;> simp [hs, afterOffer]
  case offeredToScans answer _ hs _ _ _ => cases answer <;> simp [hs, afterOffer]
  case handedOn hj ha => simp [hj, Pool.open_of_submit ha]
  case linedUp hj ha => simp [hj, Pool.open_of_submit ha]
  case unplaced hj ha => simp [hj, Pool.submit_refused ha]
  all_goals simp [*]

end TaskState

namespace Run

variable {t : Task} {h : List Turn} {s : TaskState}

/-- Each question that breaks off silences one host. -/
theorem silences_eq (hr : Run t h s) : silences h = (tally Deed.silenced h).card := by
  induction hr with
  | start => rfl
  | turn hr hs ih =>
    have hm := TaskState.move_of_step hs
    rw [silences_concat, tally_concat, Multiset.card_add, hm.silenced_eq, ih]

theorem cancelled_before (hr : Run t h s) (hu : Uncancelled h) {x : Turn} (hx : x ∈ h) :
    x.before.cancelled = false := by
  obtain ⟨pre, post, rfl⟩ := List.append_of_mem hx
  obtain ⟨hb, _⟩ := hr.split rfl
  exact hb.cancelled_eq fun y hy => hu y (List.mem_append_left _ hy)

/-- The walk of a run that nobody cancels comes to every address and gives none up. -/
theorem forsaken_eq_zero (hr : Run t h s) (hu : Uncancelled h) (ho : Opened h) :
    tally Deed.abandoned h + tally Deed.unreached h = 0 := by
  rw [← tally_add]
  apply hr.tally_eq_zero_of_warranted
  intro d x hx hw
  cases d
  case forsaken hand ahead =>
    rcases hw with hc | ⟨e, he⟩
    · rw [hr.cancelled_before hu hx] at hc
      cases hc
    · exact absurd he (ho x hx e)
  all_goals rfl

/-- However many questions break off, a run that nothing else disturbs returns a success and tells
its receiver the end once.  All pairs are counted except those of the hosts whose questions broke
off, none of which is. -/
theorem short_by_silences {ports : PortOrder} {targets : TargetList} {excluded : Exclusions}
    (hp : Plan.parts t.settings = .ok (ports, targets, excluded))
    (hn : targets.size * ports.ports.length < 2 ^ 64) (hr : Run t h s) (hu : Uncancelled h)
    (ho : Opened h) (hb : ScansUnbroken h) (hf : Faithful h) {outcome : Status}
    (hs : s.stage = .returned outcome) :
    outcome = .success ∧ (∃ status, closings h = [.ended status]) ∧
      s.completed + silences h * ports.ports.length = s.total ∧
      s.total = targets.size * ports.ports.length ∧
      tally (Deed.settled ports.ports) h + (tally Deed.silenced h).bind (pairs ports.ports) =
        (targets.blocks.flatMap Block.addresses : Multiset Address).bind (pairs ports.ports) := by
  obtain ⟨rfl, hends⟩ := hr.outcome_eq_success hp ho hs
  obtain ⟨hports, hblocks, _⟩ := (hr.plans_of_success hs).eq hp
  have hk : s.stage.rank = 15 := by simp [hs, Stage.rank]
  have hsettled := hr.settled_add_silenced hb hf (by omega)
  -- every address is left out or handed on
  have hall : tally Deed.leftOut h + handedOn h =
      (targets.blocks.flatMap Block.addresses : Multiset Address) := by
    rw [← hblocks, hr.addresses_eq (by omega), hr.forsaken_eq_zero hu ho, add_zero]
  have hcompleted := hr.completed_eq
  rw [hall, pairs_perm hports, Deed.settled_perm hports] at hsettled
  rw [Deed.settled_perm hports, strays_eq hf, add_zero] at hcompleted
  have hsize : s.total = targets.size * ports.ports.length := by
    rw [hr.total_eq_mul hp hn, hports.length_eq, hblocks]
    rfl
  -- what is settled and what is silenced make up all pairs, so their numbers do
  have hcount : s.completed + silences h * ports.ports.length = s.total := by
    have hcard := congrArg Multiset.card hsettled
    rw [Multiset.card_add, card_bind_pairs, card_bind_pairs, ← hr.silences_eq, Multiset.coe_card,
      ← Block.total_eq_length] at hcard
    rw [hcompleted, hcard, hsize]
    rfl
  exact ⟨rfl, hends, hcount, hsize, hsettled⟩

end Run

namespace Sample

def silentDone : TaskState :=
  { planned with
    status := .success
    stage := .returned .success
    completed := 1
    ended := true
    asks := ⟨10, [], [], 1, 1, 1, true⟩
    scans := (Pool.ofSize 10).close
    handovers := (Pool.ofSize 50).close }

/-- The sample has a run in which the question to its second address breaks off. -/
theorem exists_silent_run : ∃ h, Run task h silentDone ∧
    h.map Turn.action =
      [.call, .plan ⟨0, 0, 0⟩, .open none, .run, .schedule noon, .enter ⟨2, 0, 1⟩, .run, .run,
        .run, .run, .run, .run, .run, .run, .run, .ask 0 .pass, .ask 0 .ask, .ask 0 .panic, .run,
        .run, .run, .run, .run, .run, .run, .run, .run] := by
  obtain ⟨h, hr, ha⟩ := exists_approach
  obtain ⟨h', hr', ha'⟩ := hr.follow
    [.run, .run, .run, .ask 0 .pass, .ask 0 .ask, .ask 0 .panic, .run, .run, .run, .run, .run,
      .run, .run, .run, .run] silentDone rfl
  refine ⟨_, hr', ?_⟩
  rw [List.map_append, ha, ha']
  rfl

/-- The silent run counts one pair less than it has. -/
theorem short_by_silences_of_run : ∃ h, Run task h silentDone ∧
    silentDone.completed + silences h * 1 = silentDone.total ∧
    ∃ status, closings h = [.ended status] := by
  obtain ⟨h, hr, ha⟩ := exists_silent_run
  have hu : Uncancelled h := forall_action (P := fun a => a ≠ .cancel) ha (by simp)
  have ho : Opened h := forall_action (P := fun a => ∀ e, a ≠ .open (some e)) ha (by simp)
  have hb : ScansUnbroken h := forall_action (P := fun a => ∀ i, a ≠ .scan i .panic) ha (by simp)
  have hf : Faithful h :=
    forall_action (P := fun a => (∀ e, a ≠ .lose e) ∧ ∀ o, a ≠ .stray o) ha (by simp)
  have hs : silentDone.stage = .returned .success := rfl
  obtain ⟨_, hends, hcount, _⟩ := hr.short_by_silences parts_task (by decide) hu ho hb hf hs
  exact ⟨h, hr, hcount, hends⟩

/-- So a run that succeeds need not have counted all that it has. -/
theorem success_short_of_total : ∃ h s, Run task h s ∧ Uncancelled h ∧ Opened h ∧
    ScansUnbroken h ∧ Faithful h ∧ task.settings.ping = true ∧ s.stage = .returned .success ∧
    s.completed < s.total := by
  obtain ⟨h, hr, ha⟩ := exists_silent_run
  refine ⟨h, silentDone, hr, ?_, ?_, ?_, ?_, rfl, rfl, by decide⟩
  · exact forall_action (P := fun a => a ≠ .cancel) ha (by simp)
  · exact forall_action (P := fun a => ∀ e, a ≠ .open (some e)) ha (by simp)
  · exact forall_action (P := fun a => ∀ i, a ≠ .scan i .panic) ha (by simp)
  · exact forall_action (P := fun a => (∀ e, a ≠ .lose e) ∧ ∀ o, a ≠ .stray o) ha (by simp)

end Sample

end Recon
