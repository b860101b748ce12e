import Recon.Proofs.Port.Order

/-!
# The named port lists

A preset has as many ports as its name says, none of them zero.  So the first preset in the order of
all is also the one with the fewest ports.
-/

namespace Recon

namespace Port

theorem length_le_append_without (first : List Port) {others : List Port} (ho : others.Nodup) :
    others.length ≤ (first ++ without others first).length := by
  have hsub : others ⊆ first ++ without others first := by
    intro p hp
    by_cases hf : p ∈ first
    · exact List.mem_append_left _ hf
    · exact List.mem_append_right _ (mem_without.mpr ⟨hp, hf⟩)
  exact (List.subperm_of_subset ho hsub).length_le

theorem length_append_without {first others : List Port} (hf : first.Nodup) (ho : others.Nodup)
    (hsub : first ⊆ others) : (first ++ without others first).length = others.length := by
  -- each list has the ports of the other, and neither repeats one
  have hback : first ++ without others first ⊆ others := by
    intro p hp
    rcases List.mem_append.mp hp with hp | hp
    · exact hsub hp
    · exact (mem_without.mp hp).1
  apply Nat.le_antisymm
  · exact (List.subperm_of_subset (nodup_append_without hf ho) hback).length_le
  · exact length_le_append_without first ho

theorem length_all : all.length = 65535 := by
  rw [all, List.length_map, List.length_range']

theorem length_top1000 : top1000.length = 1000 := by
  have hfrequent : frequent.length = 1000 := tables_sound.2.2.2
  have hsub : essential.filter frequent.contains ⊆ frequent := by
    intro p hp
    simpa using (List.mem_filter.mp hp).2
  rw [top1000, length_append_without (nodup_essential.filter _) nodup_frequent hsub, hfrequent]

theorem length_top200 : top200.length = 200 := by
  have hessential : essential.length = 95 := tables_sound.1.2.2
  -- what is taken from is long enough
  have hrest := length_le_append_without essential nodup_top1000
  rw [List.length_append, length_top1000, hessential] at hrest
  rw [top200, List.length_take, List.length_append, List.length_take, hessential]
  omega

theorem length_top5000 : top5000.length = 5000 := by
  have hrest := length_le_append_without top1000 nodup_all
  rw [List.length_append, length_top1000, length_all] at hrest
  rw [top5000, List.length_append, List.length_take, length_top1000]
  omega

end Port

namespace Preset

/-- A preset is as long as its name says. -/
theorem length_ports (p : Preset) :
    p.ports.length = match p with
      | .top200 => 200
      | .top1000 => 1000
      | .top5000 => 5000 := by
  cases p
  case top200 => exact Port.length_top200
  case top1000 => exact Port.length_top1000
  case top5000 => exact Port.length_top5000

theorem ne_zero_of_top1000 {q : Port} (h : q ∈ Port.top1000) : q ≠ 0 := by
  rintro rfl
  exact Port.tables_sound.2.2.1 (Port.frequent_of_top1000 h)

/-- No preset has port zero. -/
theorem ne_zero_of_mem {p : Preset} {q : Port} (h : q ∈ p.ports) : q ≠ 0 := by
  cases p
  case top200 =>
    rcases List.mem_append.mp (List.mem_of_mem_take h) with h | h
    · rintro rfl
      exact Port.tables_sound.1.2.1 h
    · exact ne_zero_of_top1000 (Port.mem_without.mp (List.mem_of_mem_take h)).1
  case top1000 => exact ne_zero_of_top1000 h
  case top5000 =>
    rcases List.mem_append.mp h with h | h
    · exact ne_zero_of_top1000 h
    · exact Port.mem_all.mp (Port.mem_without.mp (List.mem_of_mem_take h)).1

theorem ports_ne_nil (p : Preset) : p.ports ≠ [] := by
  intro h
  have hlength := p.length_ports
  rw [h] at hlength
  cases p <;> cases hlength

/-- Of some presets, the first in the order of all has the fewest ports. -/
theorem find?_all_eq_some {named : Preset → Bool} {p : Preset} :
    all.find? named = some p ↔
      named p = true ∧ ∀ q, named q = true → p.ports.length ≤ q.ports.length := by
  have hforall (P : Preset → Prop) : (∀ q, P q) ↔ P .top200 ∧ P .top1000 ∧ P .top5000 :=
    ⟨fun h => ⟨h _, h _, h _⟩, fun h q => by cases q <;> tauto⟩
  simp only [all, List.find?_cons, List.find?_nil, hforall, length_ports]
  cases h200 : named .top200 <;> cases h1000 : named .top1000 <;> cases h5000 : named .top5000 <;>
    cases p <;> simp [h200, h1000, h5000]

theorem find?_all_eq_none {named : Preset → Bool} :
    all.find? named = none ↔ ∀ q, named q = false := by
  rw [List.find?_eq_none]
  refine forall_congr' fun q => ?_
  have hq : q ∈ all := by cases q <;> decide
  simp [hq]

end Preset

end Recon
