import Mathlib.Data.List.Nodup
import Mathlib.Data.List.Sort
import Mathlib.Data.Nat.Notation
import Recon.Port.Order
import Recon.Proofs.List.Ascending

/-!
# Ports in order

The lists of ports as plain lists: what is left without some ports, which ports there are, and
which the top thousand are among.  No list that a specification gives has a port twice.
-/

namespace Recon

namespace Port

theorem without_eq_filter (ports taken : List Port) :
    without ports taken = ports.filter fun p => !taken.contains p := by
  simp only [without, Std.HashSet.contains_ofList]

theorem mem_without {ports taken : List Port} {p : Port} :
    p ∈ without ports taken ↔ p ∈ ports ∧ p ∉ taken := by
  simp [without_eq_filter]

theorem nodup_all : all.Nodup := by
  refine List.Nodup.map_on ?_ List.nodup_range'
  intro a ha b hb h
  have ha := List.mem_range'_1.mp ha
  have hb := List.mem_range'_1.mp hb
  have hn := congrArg UInt16.toNat h
  simp only [UInt16.toNat_ofNat'] at hn
  omega

/-- Every port but zero is a port to probe. -/
theorem mem_all {p : Port} : p ∈ all ↔ p ≠ 0 := by
  constructor
  · intro h h0
    obtain ⟨n, hn, hp⟩ := List.mem_map.mp h
    have hn := List.mem_range'_1.mp hn
    have := congrArg UInt16.toNat (hp.trans h0)
    simp only [UInt16.toNat_ofNat', UInt16.toNat_zero] at this
    omega
  · intro h
    have hp : p.toNat ≠ 0 := fun h0 => h (UInt16.toNat_inj.mp h0)
    have hlt := p.toNat_lt
    refine List.mem_map.mpr ⟨p.toNat, List.mem_range'_1.mpr ⟨by omega, by omega⟩, ?_⟩
    exact UInt16.ofNat_toNat

/-- The top thousand are among the most frequent ports. -/
theorem frequent_of_top1000 {p : Port} (h : p ∈ top1000) : p ∈ frequent := by
  rcases List.mem_append.mp h with h | h
  · simpa using (List.mem_filter.mp h).2
  · exact (mem_without.mp h).1

/-- What some ports leave of others can follow them without a repetition. -/
theorem nodup_append_without {first others : List Port} (hf : first.Nodup) (ho : others.Nodup) :
    (first ++ without others first).Nodup := by
  have hw : (without others first).Nodup := by
    rw [without_eq_filter]
    exact ho.filter _
  apply hf.append hw
  intro p hp hq
  exact (mem_without.mp hq).2 hp

/-- What is found by going through the two tables. -/
theorem tables_sound :
    (essential.Nodup ∧ 0 ∉ essential ∧ essential.length = 95) ∧
      frequent.IsChain (· < ·) ∧ 0 ∉ frequent ∧ frequent.length = 1000 := by
  decide +kernel

theorem nodup_essential : essential.Nodup := tables_sound.1.1

theorem nodup_frequent : frequent.Nodup := by
  -- the table ascends, which takes one pass
  have hc : frequent.IsChain (· < ·) := tables_sound.2.1
  exact hc.pairwise.imp fun h => UInt16.ne_of_lt h

theorem nodup_top1000 : top1000.Nodup :=
  nodup_append_without (nodup_essential.filter _) nodup_frequent

theorem nodup_top200 : top200.Nodup := by
  have hw := nodup_append_without nodup_essential nodup_top1000
  have hs : (essential ++ (without top1000 essential).take (200 - essential.length)).Nodup :=
    hw.sublist ((List.take_sublist _ _).append_left essential)
  exact hs.sublist (List.take_sublist _ _)

theorem nodup_top5000 : top5000.Nodup := by
  have hw := nodup_append_without nodup_top1000 nodup_all
  exact hw.sublist ((List.take_sublist _ _).append_left top1000)

end Port

theorem PortRange.mem_ports {r : PortRange} {p : Port} :
    p ∈ r.ports ↔ r.contains p = true := by
  simp only [PortRange.ports, List.mem_map, List.mem_range'_1, PortRange.contains,
    Bool.and_eq_true, decide_eq_true_eq, UInt16.le_iff_toNat_le]
  constructor
  · rintro ⟨n, ⟨hlo, hhi⟩, rfl⟩
    have hlt : r.hi.toNat < 65536 := r.hi.toNat_lt
    have hn : (UInt16.ofNat n).toNat = n := UInt16.toNat_ofNat_of_lt' (show n < 65536 by omega)
    omega
  · rintro ⟨hlo, hhi⟩
    exact ⟨p.toNat, ⟨hlo, by omega⟩, UInt16.ofNat_toNat⟩

theorem Preset.nodup_ports (p : Preset) : p.ports.Nodup := by
  cases p
  case top200 => exact Port.nodup_top200
  case top1000 => exact Port.nodup_top1000
  case top5000 => exact Port.nodup_top5000

namespace PortOrder

theorem nodup_headOf (s : PortSpec) : (headOf s).Nodup := by
  unfold headOf
  split
  · exact Preset.nodup_ports _
  · exact (Preset.nodup_ports _).filter _

/-- The rest are the ports but zero in the ranges that are not among the first. -/
theorem mem_restOf {s : PortSpec} {first : List Port} {p : Port} :
    p ∈ restOf s first ↔ p ≠ 0 ∧ s.inRanges p = true ∧ p ∉ first := by
  have hranges : (∃ r ∈ s.ranges, p ∈ r.ports) ↔ s.inRanges p = true := by
    simp only [PortSpec.inRanges, List.any_eq_true, PortRange.mem_ports]
  simp only [restOf, mem_eraseReps, List.mem_mergeSort, Port.mem_without, List.mem_filter,
    List.mem_flatMap, hranges, decide_eq_true_eq]
  tauto

/-- The rest ascend. -/
theorem pairwise_restOf (s : PortSpec) (first : List Port) :
    (restOf s first).Pairwise (· < ·) := by
  have hsorted (l : List Port) : (l.mergeSort (· ≤ ·)).Pairwise (· ≤ ·) := by
    have htrans (a b c : Port) (hab : decide (a ≤ b) = true) (hbc : decide (b ≤ c) = true) :
        decide (a ≤ c) = true :=
      decide_eq_true (UInt16.le_trans (of_decide_eq_true hab) (of_decide_eq_true hbc))
    have htotal (a b : Port) : (decide (a ≤ b) || decide (b ≤ a)) = true := by
      simpa using UInt16.le_total a b
    simpa using List.pairwise_mergeSort htrans htotal l
  refine pairwise_eraseReps (fun a b => UInt16.lt_of_le_of_ne) ?_ (hsorted _)
  exact fun a b c => UInt16.lt_of_lt_of_le

theorem nodup_restOf (s : PortSpec) (first : List Port) : (restOf s first).Nodup :=
  (pairwise_restOf s first).imp UInt16.ne_of_lt

theorem nodup_ofSpec (s : PortSpec) : (ofSpec s).ports.Nodup := by
  apply (nodup_headOf s).append (nodup_restOf s _)
  intro p hp hq
  exact (mem_restOf.mp hq).2.2 hp

/-- No specification asks for a port twice. -/
theorem nodup_ofString {s : String} {o : PortOrder} (h : ofString s = .ok o) : o.ports.Nodup := by
  unfold ofString read at h
  split at h
  · cases h
    rw [ports, List.append_nil]
    exact Preset.nodup_ports .top1000
  · split at h
    · cases h
    · next spec _ =>
      dsimp only at h
      split at h <;> cases h
      exact nodup_ofSpec spec

/-- One port that is not a frequent one is the tail of its own order. -/
theorem ofSpec_of_rare {p : Port} (h0 : p ≠ 0) (hp : p ∉ Port.frequent) :
    ofSpec ⟨none, [⟨p, p⟩]⟩ = ⟨[], [p]⟩ := by
  have hr (q : Port) : PortSpec.inRanges ⟨none, [⟨p, p⟩]⟩ q = (q == p) := by
    simp only [PortSpec.inRanges, List.any_cons, List.any_nil, Bool.or_false, PortRange.contains]
    rw [Bool.eq_iff_iff]
    simp only [Bool.and_eq_true, decide_eq_true_eq, beq_iff_eq]
    constructor
    · rintro ⟨h1, h2⟩
      exact UInt16.le_antisymm h2 h1
    · rintro rfl
      exact ⟨UInt16.le_refl _, UInt16.le_refl _⟩
  -- without a preset the head is made of frequent ports
  have hh : headOf ⟨none, [⟨p, p⟩]⟩ = [] := by
    rw [headOf, funext hr]
    apply List.filter_eq_nil_iff.mpr
    intro q hq he
    rw [beq_iff_eq.mp he] at hq
    exact hp (Port.frequent_of_top1000 hq)
  have ht : restOf ⟨none, [⟨p, p⟩]⟩ [] = [p] := by
    apply (pairwise_restOf _ _).eq_of_mem_iff (List.pairwise_singleton _ p)
    intro q
    rw [mem_restOf, hr, beq_iff_eq, List.mem_singleton]
    constructor
    · exact fun h => h.2.1
    · rintro rfl
      exact ⟨h0, rfl, List.not_mem_nil⟩
  rw [ofSpec, hh, ht]

end PortOrder

end Recon
