import Recon.Port.Sequence
import Recon.Proofs.Port.Expansion
import Recon.Proofs.Random.Drawn

/-!
# Sequences of probes keep their ports

Shuffling leaves the ports that come first where they are and permutes the others, whatever is
drawn.  There are fewer ports than words, so no number on the way is too large, and no index lies
outside the tail.
-/

namespace Recon

/-- Steps that all succeed are a map. -/
theorem mapM_eq_some_map {α β : Type} {f : α → Option β} {g : α → β} {l : List α}
    (h : ∀ a ∈ l, f a = some (g a)) : l.mapM f = some (l.map g) := by
  induction l with
  | nil => rfl
  | cons a l ih =>
    obtain ⟨ha, hl⟩ := List.forall_mem_cons.mp h
    simp [List.mapM_cons, ha, ih hl]

namespace Traversal

variable {σ : Type}

theorem lt_of_mem_order {t : Traversal} {n i : ℕ} (h : t.covers n = true) (hi : i ∈ t.order) :
    i < n :=
  List.mem_range.mp ((t.order_perm n h).mem_iff.mp hi)

/-- In words a drawn traversal visits what it visits. -/
theorem order?_draw (d : Draws σ) {size : ℕ} (hpos : 0 < size) (h : size < 2 ^ 64) (s : σ) :
    (draw d size s).1.order? = some (draw d size s).1.order := by
  have hsize := size_draw d size s
  have hfirst : (draw d size s).1.first < size := first_draw_lt d hpos s
  apply mapM_eq_some_map
  intro i hi
  have hi : i < size := by
    rw [← hsize]
    exact List.mem_range.mp hi
  exact get?_eq _ (by omega) (by omega) (step_draw_lt d h s) (by omega)

end Traversal

namespace PortOrder

variable {σ : Type} {o : PortOrder} {spec : String}

/-- There are no more different ports than words of sixteen bits. -/
theorem length_le_of_nodup {ports : List Port} (h : ports.Nodup) : ports.length ≤ 65536 := by
  have hnodup : (ports.map UInt16.toNat).Nodup :=
    h.map_on fun p _ q _ hpq => UInt16.toNat_inj.mp hpq
  have hsub : ports.map UInt16.toNat ⊆ List.range 65536 := by
    intro n hn
    obtain ⟨p, _, rfl⟩ := List.mem_map.mp hn
    exact List.mem_range.mpr p.toNat_lt
  have hle := (List.subperm_of_subset hnodup hsub).length_le
  rwa [List.length_map, List.length_range] at hle

theorem zero_notMem_of_ofString (h : ofString spec = .ok o) : 0 ∉ o.ports := by
  by_cases hb : Text.trim spec.toList = []
  · have ho := (read_of_blank hb).symm.trans h
    cases ho
    intro h0
    rcases List.mem_append.mp h0 with h0 | h0
    · exact Preset.ne_zero_of_mem (p := .top1000) h0 rfl
    · exact absurd h0 List.not_mem_nil
  · obtain ⟨parsed, hparsed, _, rfl⟩ := (read_eq_ok_iff hb).mp h
    exact zero_notMem_ports (expands_ofSpec hparsed)

/-- Accesses at the indices of a traversal of a list are accesses inside it. -/
theorem mapM_getElem?_order {t : Traversal} {tail : List Port} (h : t.covers tail.length = true) :
    (t.order.mapM fun i => tail[i]?) = some (rearrange t tail) := by
  have hinside : ∀ i ∈ t.order, tail[i]? = some (tail.getD i 0) := by
    intro i hi
    have hlt := Traversal.lt_of_mem_order h hi
    simp [List.getD_eq_getElem?_getD, hlt]
  have hrearrange : rearrange t tail = t.order.map fun i => tail.getD i 0 := by
    rw [rearrange, ← List.filterMap_eq_map]
    apply List.filterMap_congr
    intro i hi
    rw [List.getElem?_toArray, hinside i hi]
    rfl
  rw [mapM_eq_some_map hinside, hrearrange]

/-- The shuffled ports are the first ones and a permutation of the others. -/
theorem exists_shuffled_eq (d : Draws σ) (s : σ) (o : PortOrder) :
    ∃ tail, (o.shuffled d s).1 = o.head ++ tail ∧ tail.Perm o.tail := by
  unfold shuffled
  split
  · exact ⟨o.tail, rfl, .refl _⟩
  · exact ⟨_, rfl, rearrange_perm _ _ (Traversal.covers_draw d _ s)⟩

/-- With everything checked the shuffle is the same. -/
theorem shuffle?_eq (d : Draws σ) (s : σ) (h : o.tail.length < 2 ^ 64) :
    shuffle? d s o.ports o.head.length = some (o.shuffled d s) := by
  have hhead : o.head.length ≤ o.ports.length := by
    rw [ports, List.length_append]
    omega
  have htake : o.ports.take o.head.length = o.head := List.take_left
  have hdrop : o.ports.drop o.head.length = o.tail := List.drop_left
  rw [shuffle?, if_pos hhead, hdrop, htake, shuffled]
  simp only [Option.bind_eq_bind, Option.bind_some]
  by_cases hlen : o.tail.length < 2
  · rw [if_pos hlen, if_pos hlen]
    rfl
  · have hfits : fitting Traversal.wordSize o.tail.length = some o.tail.length := if_pos h
    have hpos : 0 < o.tail.length := by omega
    have horder := Traversal.order?_draw d hpos h s
    have haccess := mapM_getElem?_order (Traversal.covers_draw d o.tail.length s)
    simp [hlen, hfits, Traversal.draw?_eq, horder, haccess]

theorem ordered_eq_ok_iff {ports : List Port} {head : ℕ} :
    ordered spec = .ok (ports, head) ↔
      ∃ o, ofString spec = .ok o ∧ o.ports = ports ∧ o.head.length = head := by
  unfold ordered
  cases ofString spec <;> simp

theorem ordered_eq_error_iff {fault : PortFault} :
    ordered spec = .error fault ↔ ofString spec = .error fault := by
  unfold ordered
  cases ofString spec <;> simp

theorem length_tail_lt (h : ofString spec = .ok o) : o.tail.length < 2 ^ 64 := by
  have hle := length_le_of_nodup (nodup_ofString h)
  rw [ports, List.length_append] at hle
  omega

/-- Nothing that is checked fails. -/
theorem expand?_eq (d : Draws σ) (s : σ) (spec : String) :
    expand? d s spec = some (expand d s spec) := by
  unfold expand? expand ordered
  cases h : ofString spec with
  | error fault => rfl
  | ok o =>
    have hshuffle := shuffle?_eq d s (length_tail_lt h)
    simp [hshuffle]

/-- Whatever is drawn, a specification is refused just when its ports cannot be put in order, and
with the same fault.  Otherwise its ports as they are probed begin with those that come first in
their order, and the others follow in some permutation.  So there are as many of them and the same
ones, with no repetition and no port zero.  No slice, number or index goes wrong on the way. -/
theorem expand_permutes_tail (d : Draws σ) (s : σ) (spec : String) :
    expand? d s spec = some (expand d s spec) ∧
    (∀ fault, expand d s spec = .error fault ↔ ordered spec = .error fault) ∧
    ∀ ports head, ordered spec = .ok (ports, head) → head ≤ ports.length ∧
      (∀ i ∈ (Traversal.draw d (ports.drop head).length s).1.order,
        i < (ports.drop head).length) ∧
      ∃ shuffled s', expand d s spec = .ok (shuffled, s') ∧
        shuffled.length = ports.length ∧ shuffled.take head = ports.take head ∧
        (shuffled.drop head).Perm (ports.drop head) ∧
        shuffled.Nodup ∧ 0 ∉ shuffled ∧ ∀ p, p ∈ shuffled ↔ p ∈ ports := by
  refine ⟨expand?_eq d s spec, fun fault => ?_, fun ports head h => ?_⟩
  · rw [ordered_eq_error_iff, expand]
    cases ofString spec <;> simp
  · obtain ⟨o, ho, rfl, rfl⟩ := ordered_eq_ok_iff.mp h
    have htake : o.ports.take o.head.length = o.head := List.take_left
    have hdrop : o.ports.drop o.head.length = o.tail := List.drop_left
    obtain ⟨tail, htail, hperm⟩ := exists_shuffled_eq d s o
    have hexpand : expand d s spec = .ok (o.head ++ tail, (o.shuffled d s).2) := by
      rw [expand, ho, ← htail]
    have hall : (o.head ++ tail).Perm o.ports := hperm.append_left o.head
    rw [htake, hdrop]
    refine ⟨?_, fun i => Traversal.lt_of_mem_order (Traversal.covers_draw d _ s),
      o.head ++ tail, _, hexpand, hall.length_eq, List.take_left, ?_, ?_, ?_, fun p => hall.mem_iff⟩
    · rw [PortOrder.ports, List.length_append]
      exact Nat.le_add_right _ _
    · rwa [List.drop_left]
    · exact hall.nodup_iff.mpr (nodup_ofString ho)
    · exact mt hall.mem_iff.mp (zero_notMem_of_ofString ho)

namespace Sample

def highest : Draws Unit := ⟨fun _ n h => (⟨n - 1, Nat.sub_one_lt_of_lt h⟩, ())⟩

def sparse : PortSpec := ⟨none, [⟨80, 80⟩, ⟨60001, 60003⟩]⟩

theorem inRanges_sparse (p : Port) :
    sparse.inRanges p = true ↔ p = 80 ∨ p ∈ [60001, 60002, (60003 : Port)] := by
  simp only [sparse, PortSpec.inRanges, PortRange.contains, List.any_cons, List.any_nil,
    Bool.or_false, Bool.or_eq_true, Bool.and_eq_true, decide_eq_true_eq, List.mem_cons,
    List.not_mem_nil, or_false, ← UInt16.toNat_inj, UInt16.le_iff_toNat_le, UInt16.reduceToNat]
  omega

theorem frequent_of_sparse :
    (80 ∈ Port.essential ∧ 80 ∈ Port.frequent) ∧
      [60001, 60002, (60003 : Port)].any Port.frequent.contains = false := by
  decide +kernel

theorem ofSpec_sparse : ofSpec sparse = ⟨[80], [60001, 60002, 60003]⟩ := by
  obtain ⟨⟨hessential, hfrequent⟩, hrare⟩ := frequent_of_sparse
  have htop : (80 : Port) ∈ Port.top1000 :=
    List.mem_append_left _ (List.mem_filter.mpr ⟨hessential, List.contains_iff_mem.mpr hfrequent⟩)
  have hmem (p : Port) : p ∈ headOf sparse ↔ p ∈ [(80 : Port)] := by
    change p ∈ Port.top1000.filter sparse.inRanges ↔ _
    rw [List.mem_filter, inRanges_sparse, List.mem_singleton]
    constructor
    · rintro ⟨hp, rfl | hp'⟩
      · rfl
      · have hnot := List.any_eq_false.mp hrare p hp'
        exact absurd (List.contains_iff_mem.mpr (Port.frequent_of_top1000 hp)) hnot
    · rintro rfl
      exact ⟨htop, .inl rfl⟩
  have hhead : headOf sparse = [80] := by
    have hperm := (List.perm_ext_iff_of_nodup (nodup_headOf _) (List.nodup_singleton 80)).mpr hmem
    exact List.perm_singleton.mp hperm
  have htail : restOf sparse [80] = [60001, 60002, 60003] := by
    apply (pairwise_restOf _ _).eq_of_mem_iff (by decide)
    intro p
    rw [mem_restOf, inRanges_sparse, List.mem_singleton]
    constructor
    · rintro ⟨_, rfl | hp, hne⟩
      · exact absurd rfl hne
      · exact hp
    · intro hp
      refine ⟨?_, .inr hp, ?_⟩ <;> rintro rfl <;> exact absurd hp (by decide)
  rw [ofSpec, hhead, htail]

/-- With the highest numbers the three ports are probed backwards, and port 80 stays first. -/
theorem expand_permutes_tail_of_sparse :
    ordered "80,60001-60003" = .ok ([80, 60001, 60002, 60003], 1) ∧
      expand highest () "80,60001-60003" = .ok ([80, 60003, 60002, 60001], ()) ∧
      expand? highest () "80,60001-60003" = some (.ok ([80, 60003, 60002, 60001], ())) ∧
      [60003, 60002, (60001 : Port)].Perm [60001, 60002, 60003] := by
  have hspec : PortSpec.read "80,60001-60003".toList = .ok sparse := rfl
  have ho : ofString "80,60001-60003" = .ok ⟨[80], [60001, 60002, 60003]⟩ := by
    rw [ofString, read_eq_ok_iff (by decide)]
    exact ⟨sparse, hspec, by rw [ofSpec_sparse]; exact List.cons_ne_nil _ _, ofSpec_sparse⟩
  have hordered : ordered "80,60001-60003" = .ok ([80, 60001, 60002, 60003], 1) :=
    ordered_eq_ok_iff.mpr ⟨_, ho, rfl, rfl⟩
  have hexpand : expand highest () "80,60001-60003" = .ok ([80, 60003, 60002, 60001], ()) := by
    rw [expand, ho]
    rfl
  obtain ⟨hchecked, -, hparts⟩ := expand_permutes_tail highest () "80,60001-60003"
  obtain ⟨-, -, shuffled, s', hsame, -, -, hperm, -⟩ := hparts _ _ hordered
  rw [hexpand] at hsame hchecked
  cases hsame
  exact ⟨hordered, hexpand, hchecked, hperm⟩

end Sample

end PortOrder

end Recon
