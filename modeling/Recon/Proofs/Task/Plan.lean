import Recon.Proofs.Random.Traversal
import Recon.Proofs.Task.Run

/-!
# The plan of a run

A run makes its plan once, before anything else, and keeps it.  A run without a plan has not got
beyond the planning, or has failed.
-/

namespace Recon

/-- What the parts of a plan are read from. -/
theorem Plan.parts_eq_ok {s : Settings} {ports : PortOrder} {targets : TargetList}
    {excluded : Exclusions} (h : Plan.parts s = .ok (ports, targets, excluded)) :
    PortOrder.ofString s.ports = .ok ports ∧ TargetList.ofString s.target = .ok targets ∧
      Exclusions.ofString s.excluded = .ok excluded := by
  unfold Plan.parts at h
  split at h
  · cases h
  · split at h
    · cases h
    · next hp =>
      split at h
      · cases h
      · next ht =>
        split at h
        · cases h
        · next he =>
          cases h
          exact ⟨hp, ht, he⟩

/-- The parts of a plan, where every text of the settings can be read. -/
theorem Plan.parts_eq {s : Settings} {ports : PortOrder} {targets : TargetList}
    {excluded : Exclusions} (hv : s.validate = .ok ()) (hp : PortOrder.ofString s.ports = .ok ports)
    (ht : TargetList.ofString s.target = .ok targets)
    (he : Exclusions.ofString s.excluded = .ok excluded) :
    Plan.parts s = .ok (ports, targets, excluded) := by
  rw [Plan.parts, hv, hp, ht, he]

/-- A plan that the settings of a task give, with the tail of the ports in some order. -/
def Task.Plans (t : Task) (p : Plan) : Prop :=
  ∃ ports targets excluded tail, Plan.parts t.settings = .ok (ports, targets, excluded) ∧
    (ports.tail.length < 2 ∨ tail.covers ports.tail.length = true) ∧
    p = ⟨ports.along tail, targets.blocks, excluded⟩

/-- What a plan takes over from the parts of the settings. -/
theorem Task.Plans.eq {t : Task} {p : Plan} (h : t.Plans p) {ports : PortOrder}
    {targets : TargetList} {excluded : Exclusions}
    (hp : Plan.parts t.settings = .ok (ports, targets, excluded)) :
    p.ports.Perm ports.ports ∧ p.blocks = targets.blocks ∧ p.excluded = excluded := by
  obtain ⟨ports', targets', excluded', tail, hp', ht, rfl⟩ := h
  rw [hp'] at hp
  cases hp
  exact ⟨ports.along_perm tail ht, rfl, rfl⟩

def Stage.hasFailed : Stage → Bool
  | .failing _ | .ending .error | .publishing .error | .returned .error | .collapsed => true
  | _ => false

namespace TaskState

variable {t : Task} {s s' : TaskState} {a : Action} {es : List Event}

attribute [local simp] goto fail finish complete completeHost

@[simp] theorem hasFailed_afterOffer (w : Walk) (host : Address) (answer : Pool.Answer) :
    (afterOffer w host answer).hasFailed = false := by
  cases answer <;> rfl

/-- Only the move that makes the plan changes it. -/
theorem Move.plan_eq_or (hm : Move t s a s' es) :
    (s'.plan = s.plan ∧ s'.total = s.total) ∨
      (s.stage = .planning ∧ s'.stage = .opening ∧ t.Plans s'.plan ∧ s'.total = s'.plan.total) := by
  cases hm
  case planned ports targets excluded hs hp ht =>
    exact .inr ⟨hs, rfl, ⟨ports, targets, excluded, _, hp, ht, rfl⟩, rfl⟩
  all_goals exact .inl ⟨rfl, rfl⟩

theorem Move.plan_eq (hm : Move t s a s' es)
    (hk : ¬ (s.stage = .planning ∧ s'.stage = .opening)) : s'.plan = s.plan := by
  rcases hm.plan_eq_or with ⟨hp, _⟩ | ⟨hs, hs', _⟩
  · exact hp
  · exact absurd ⟨hs, hs'⟩ hk

/-- A run that has failed does not recover. -/
theorem Move.hasFailed (hm : Move t s a s' es) (h : s.stage.hasFailed = true) :
    s'.stage.hasFailed = true := by
  cases hm
  case endTold outcome hs => cases outcome <;> simp_all [Stage.hasFailed]
  case published outcome hs => cases outcome <;> simp_all [Stage.hasFailed]
  all_goals simp_all [Stage.hasFailed]

/-- The plan is still to be made, or cannot be. -/
def Unplanned (s : TaskState) : Prop :=
  s.plan = .empty ∧ (s.stage.rank ≤ 1 ∨ s.stage.hasFailed = true)

theorem Move.unplanned_stage (hm : Move t s a s' es)
    (hk : ¬ (s.stage = .planning ∧ s'.stage = .opening))
    (h : s.stage.rank ≤ 1 ∨ s.stage.hasFailed = true) :
    s'.stage.rank ≤ 1 ∨ s'.stage.hasFailed = true := by
  rcases h with h | h
  · cases hm
    all_goals simp_all [Stage.rank, Stage.hasFailed]
  · exact .inr (hm.hasFailed h)

theorem Move.planned_or (hm : Move t s a s' es) (h : s.Unplanned ∨ t.Plans s.plan) :
    s'.Unplanned ∨ t.Plans s'.plan := by
  by_cases hk : s.stage = .planning ∧ s'.stage = .opening
  · obtain ⟨hs, hs'⟩ := hk
    cases hm
    case planned ports targets excluded _ hp ht =>
      exact .inr ⟨ports, targets, excluded, _, hp, ht, rfl⟩
    all_goals simp_all
  · -- a plan, or the want of one, stays
    rw [Unplanned, hm.plan_eq hk]
    exact h.imp_left fun ⟨hp, hs⟩ => ⟨hp, hm.unplanned_stage hk hs⟩

theorem Move.total_eq (hm : Move t s a s' es) (h : s.total = s.plan.total) :
    s'.total = s'.plan.total := by
  rcases hm.plan_eq_or with ⟨hp, ht⟩ | ⟨_, _, _, ht⟩
  · rw [hp, ht, h]
  · exact ht

end TaskState

namespace Run

variable {t : Task} {h : List Turn} {s : TaskState}

theorem planned_or (hr : Run t h s) : s.Unplanned ∨ t.Plans s.plan :=
  hr.invariant (.inl ⟨rfl, .inl (Nat.zero_le _)⟩) fun hm hp => hm.planned_or hp

theorem total_eq (hr : Run t h s) : s.total = s.plan.total :=
  hr.invariant (P := fun s => s.total = s.plan.total) rfl fun hm ht => hm.total_eq ht

/-- A run that has come through has a plan of its settings. -/
theorem plans_of_success (hr : Run t h s) (hs : s.stage = .returned .success) :
    t.Plans s.plan := by
  apply hr.planned_or.resolve_left
  rintro ⟨_, hk⟩
  simp [hs, Stage.rank, Stage.hasFailed] at hk

end Run

end Recon
