import Recon.Proofs.Port.Spec
import Recon.Proofs.Text.Split

/-!
# What a specification expands to

The expansion of a specification is determined by which presets and which ports its text names, and
by nothing else: neither the order of the items nor their repetitions, nor overlaps between them,
show in it.
-/

namespace Recon

open Recon.Text

namespace PortOrder

open PortSpec

variable {cs cs' : List Char} {o o' : PortOrder} {spec : PortSpec}

open scoped Classical in
/-- An order of ports is the expansion of a text that is not blank.  Its head has the ports of the
smallest preset named or, if none is, the explicit ones among the top thousand, in preset order.
Its tail has the other explicit ports in ascending order. -/
structure Expands (cs : List Char) (o : PortOrder) : Prop where
  head_named : ∀ p, Prefers cs p → o.head = p.ports
  head_unnamed : (∀ p, ¬ Names cs p) → o.head = Preset.top1000.ports.filter (· ∈ explicit cs)
  ascends : o.tail.Pairwise (· < ·)
  mem_tail : ∀ q, q ∈ o.tail ↔ q ∈ explicit cs ∧ q ∉ o.head
  ports_named : ∀ p, Prefers cs p → {q | q ∈ o.ports} = {q | q ∈ p.ports} ∪ explicit cs
  ports_unnamed : (∀ p, ¬ Names cs p) → {q | q ∈ o.ports} = explicit cs

theorem ports_eq_union (htail : ∀ q, q ∈ o.tail ↔ q ∈ explicit cs ∧ q ∉ o.head) :
    {q | q ∈ o.ports} = {q | q ∈ o.head} ∪ explicit cs := by
  ext q
  simp only [ports, List.mem_append, htail, Set.mem_ofPred_eq, Set.mem_union]
  tauto

theorem expands_ofSpec (h : PortSpec.read cs = .ok spec) : Expands cs (ofSpec spec) := by
  classical
  obtain ⟨hprefers, hunnamed, hexplicit⟩ := read_eq_ok h
  have hnamed : ∀ p, Prefers cs p → headOf spec = p.ports := by
    intro p hp
    rw [headOf, (hprefers p).mpr hp]
  have hhead : (∀ p, ¬ Names cs p) →
      headOf spec = Preset.top1000.ports.filter (· ∈ explicit cs) := by
    intro hn
    rw [headOf, hunnamed.mpr hn]
    -- explicit ports are not zero, but neither are those of a preset
    apply List.filter_congr
    intro q hq
    rw [Bool.eq_iff_iff, decide_eq_true_eq, hexplicit]
    exact (and_iff_right (Preset.ne_zero_of_mem hq)).symm
  have htail : ∀ q, q ∈ (ofSpec spec).tail ↔ q ∈ explicit cs ∧ q ∉ (ofSpec spec).head := by
    intro q
    change q ∈ restOf spec (headOf spec) ↔ _ ∧ q ∉ headOf spec
    rw [mem_restOf, hexplicit, and_assoc]
  have hports := ports_eq_union htail
  refine ⟨hnamed, hhead, pairwise_restOf _ _, htail, ?_, ?_⟩
  · intro p hp
    have hfirst : (ofSpec spec).head = p.ports := hnamed p hp
    rw [hports, hfirst]
  · intro hn
    rw [hports]
    apply Set.union_eq_self_of_subset_left
    intro q hq
    have hfirst : (ofSpec spec).head = Preset.top1000.ports.filter (· ∈ explicit cs) := hhead hn
    rw [Set.mem_ofPred_eq, hfirst, List.mem_filter] at hq
    exact of_decide_eq_true hq.2

theorem Expands.unique (h : Expands cs o) (h' : Expands cs o') : o = o' := by
  have hhead : o.head = o'.head := by
    rcases prefers_or_unnamed cs with ⟨p, hp⟩ | hn
    · rw [h.head_named p hp, h'.head_named p hp]
    · rw [h.head_unnamed hn, h'.head_unnamed hn]
  -- an ascending list is determined by what is in it
  have htail : o.tail = o'.tail := by
    apply h.ascends.eq_of_mem_iff h'.ascends
    intro q
    rw [h.mem_tail, h'.mem_tail, hhead]
  cases o
  cases o'
  cases hhead
  cases htail
  rfl

/-- Texts with the same items name the same. -/
theorem Expands.congr (h : Expands cs o) (hitems : ∀ x, x ∈ items cs' ↔ x ∈ items cs) :
    Expands cs' o := by
  have hnames : Names cs' = Names cs := by
    funext p
    simp only [Names, hitems]
  have hexplicit : explicit cs' = explicit cs := by
    simp only [explicit, hitems]
  have hprefers : Prefers cs' = Prefers cs := by
    funext p
    rw [Prefers, Prefers, hnames]
  obtain ⟨hnamed, hhead, hascends, htail, hports, hall⟩ := h
  refine ⟨?_, ?_, hascends, ?_, ?_, ?_⟩
  · rwa [hprefers]
  · rwa [hnames, hexplicit]
  · rwa [hexplicit]
  · rwa [hprefers, hexplicit]
  · rwa [hnames, hexplicit]

theorem ofSpec_ports_eq_nil (h : PortSpec.read cs = .ok spec) :
    (ofSpec spec).ports = [] ↔ (∀ p, ¬ Names cs p) ∧ explicit cs = ∅ := by
  have he := expands_ofSpec h
  have hempty : (ofSpec spec).ports = [] ↔ {q | q ∈ (ofSpec spec).ports} = ∅ := by
    rw [List.eq_nil_iff_forall_not_mem, Set.eq_empty_iff_forall_notMem]
    rfl
  rcases prefers_or_unnamed cs with ⟨p, hp⟩ | hn
  · have hne : (ofSpec spec).ports ≠ [] := by
      intro hnil
      have happend : (ofSpec spec).head ++ (ofSpec spec).tail = [] := hnil
      rw [he.head_named p hp] at happend
      exact p.ports_ne_nil (List.append_eq_nil_iff.mp happend).1
    exact ⟨fun hnil => absurd hnil hne, fun hn => absurd hp.1 (hn.1 p)⟩
  · rw [hempty, he.ports_unnamed hn]
    exact (and_iff_right hn).symm

theorem read_of_blank (h : trim cs = []) : read cs = .ok ⟨Preset.top1000.ports, []⟩ := by
  rw [read, h]
  rfl

theorem read_eq_ok_iff (hb : trim cs ≠ []) :
    read cs = .ok o ↔
      ∃ spec, PortSpec.read cs = .ok spec ∧ (ofSpec spec).ports ≠ [] ∧ ofSpec spec = o := by
  rw [read, if_neg (by simpa using hb)]
  cases PortSpec.read cs with
  | error fault => simp
  | ok spec =>
    by_cases hnil : (ofSpec spec).ports = [] <;> simp [hnil]

theorem read_eq_noPorts_iff :
    read cs = .error .noPorts ↔
      trim cs ≠ [] ∧ ∃ spec, PortSpec.read cs = .ok spec ∧ (ofSpec spec).ports = [] := by
  by_cases hb : trim cs = []
  · simp [read_of_blank hb, hb]
  · rw [read, if_neg (by simpa using hb)]
    cases h : PortSpec.read cs with
    | error fault =>
      have hne : fault ≠ .noPorts := by
        rintro rfl
        exact PortSpec.read_ne cs h
      simp [hne]
    | ok spec =>
      by_cases hnil : (ofSpec spec).ports = [] <;> simp [hnil, hb]

theorem items_ne_nil (hb : trim cs ≠ []) (h : read cs = .ok o) : items cs ≠ [] := by
  intro hnil
  obtain ⟨spec, hspec, hne, _⟩ := (read_eq_ok_iff hb).mp h
  apply hne
  rw [ofSpec_ports_eq_nil hspec]
  refine ⟨?_, ?_⟩
  · rintro p ⟨x, hx, _⟩
    rw [hnil] at hx
    exact absurd hx List.not_mem_nil
  · apply Set.eq_empty_of_forall_notMem
    rintro q ⟨_, x, hx, _⟩
    rw [hnil] at hx
    exact absurd hx List.not_mem_nil

/-- Of an accepted text only the set of its items matters. -/
theorem read_congr (hb : trim cs ≠ []) (h : read cs = .ok o)
    (hitems : ∀ x, x ∈ items cs' ↔ x ∈ items cs) : read cs' = .ok o := by
  -- a blank text has no items, and the accepted one has some
  have hb' : trim cs' ≠ [] := by
    intro hblank
    obtain ⟨x, hx⟩ := List.exists_mem_of_ne_nil _ (items_ne_nil hb h)
    have hx' := (hitems x).mpr hx
    rw [items_of_trim_eq_nil hblank] at hx'
    exact absurd hx' List.not_mem_nil
  obtain ⟨spec, hspec, hne, rfl⟩ := (read_eq_ok_iff hb).mp h
  obtain ⟨spec', hspec'⟩ : ∃ spec', PortSpec.read cs' = .ok spec' := by
    have hread := PortSpec.exists_read.mp ⟨spec, hspec⟩
    exact PortSpec.exists_read.mpr fun x hx => hread x ((hitems x).mp hx)
  have hsame : ofSpec spec' = ofSpec spec :=
    (expands_ofSpec hspec').unique ((expands_ofSpec hspec).congr hitems)
  exact (read_eq_ok_iff hb').mpr ⟨spec', hspec', hsame ▸ hne, hsame⟩

theorem zero_notMem_ports (h : Expands cs o) : 0 ∉ o.ports := by
  intro h0
  have hzero : (0 : Port) ∈ {q | q ∈ o.ports} := h0
  rcases prefers_or_unnamed cs with ⟨p, hp⟩ | hn
  · rw [h.ports_named p hp] at hzero
    rcases hzero with hzero | hzero
    · exact Preset.ne_zero_of_mem hzero rfl
    · exact hzero.1 rfl
  · rw [h.ports_unnamed hn] at hzero
    exact hzero.1 rfl

/-- A specification is accepted when it is blank, or when it can be read and names a preset or a
port but zero.  A blank one asks for the top thousand; any other has the expansion of its text,
which repeats no port, has no port zero and is not empty.  A specification is refused for having no
ports just when it can be read and names nothing.  Putting the items of an accepted one into another
order, or repeating some, changes nothing. -/
theorem expands_of_read (s : String) :
    ((∃ o, ofString s = .ok o) ↔ trim s.toList = [] ∨
      (∃ spec, PortSpec.ofString s = .ok spec) ∧
        ((∃ p, Names s.toList p) ∨ (explicit s.toList).Nonempty)) ∧
    (∀ o, ofString s = .ok o →
      (trim s.toList = [] → o.ports = Preset.top1000.ports ∧ o.head.length = o.ports.length) ∧
      (trim s.toList ≠ [] → Expands s.toList o) ∧
      o.ports.Nodup ∧ 0 ∉ o.ports ∧ o.ports ≠ []) ∧
    ((∃ fault, ofString s = .error fault ∧ fault.toError = ⟨.portRange, "ports len is 0"⟩) ↔
      trim s.toList ≠ [] ∧ (∃ spec, PortSpec.ofString s = .ok spec) ∧
        (∀ p, ¬ Names s.toList p) ∧ explicit s.toList = ∅) ∧
    ∀ o s', ofString s = .ok o → trim s.toList ≠ [] →
      (∀ x, x ∈ items s'.toList ↔ x ∈ items s.toList) → ofString s' = .ok o := by
  refine ⟨?_, ?_, ?_, ?_⟩
  · by_cases hb : trim s.toList = []
    · exact ⟨fun _ => .inl hb, fun _ => ⟨_, read_of_blank hb⟩⟩
    · have hnames : ((∃ p, Names s.toList p) ∨ (explicit s.toList).Nonempty) ↔
          ¬ ((∀ p, ¬ Names s.toList p) ∧ explicit s.toList = ∅) := by
        rw [not_and_or, not_forall_not, Set.nonempty_iff_ne_empty]
      simp only [ofString, read_eq_ok_iff hb, hb, false_or, hnames]
      constructor
      · rintro ⟨_, spec, hspec, hne, _⟩
        exact ⟨⟨spec, hspec⟩, fun hnone => hne ((ofSpec_ports_eq_nil hspec).mpr hnone)⟩
      · rintro ⟨⟨spec, hspec⟩, hnone⟩
        exact ⟨_, spec, hspec, fun hnil => hnone ((ofSpec_ports_eq_nil hspec).mp hnil), rfl⟩
  · intro o h
    have hnodup := nodup_ofString h
    by_cases hb : trim s.toList = []
    · have ho := (read_of_blank hb).symm.trans h
      cases ho
      have hports : ports ⟨Preset.top1000.ports, []⟩ = Preset.top1000.ports := List.append_nil _
      refine ⟨fun _ => ⟨hports, by rw [hports]⟩, fun hne => absurd hb hne, hnodup, ?_, ?_⟩
      · rw [hports]
        exact fun h0 => Preset.ne_zero_of_mem h0 rfl
      · rw [hports]
        exact Preset.ports_ne_nil _
    · obtain ⟨spec, hspec, hne, rfl⟩ := (read_eq_ok_iff hb).mp h
      have he := expands_ofSpec hspec
      exact ⟨fun hblank => absurd hblank hb, fun _ => he, hnodup, zero_notMem_ports he, hne⟩
  · simp only [PortFault.toError_eq_iff, exists_eq_right]
    rw [ofString, read_eq_noPorts_iff]
    refine and_congr_right fun _ => ?_
    constructor
    · rintro ⟨spec, hspec, hnil⟩
      exact ⟨⟨spec, hspec⟩, (ofSpec_ports_eq_nil hspec).mp hnil⟩
    · rintro ⟨⟨spec, hspec⟩, hnone⟩
      exact ⟨spec, hspec, (ofSpec_ports_eq_nil hspec).mpr hnone⟩
  · exact fun o s' h hb hitems => read_congr hb h hitems

namespace Sample

def overlapping : String := "0-2,top1000,TOP200,2"

def reordered : String := "TOP200,2,TOP200,top1000,0-2"

/-- The smaller preset comes first and only ports one and two can follow it. -/
theorem expands_of_read_overlapping : ∃ o, ofString overlapping = .ok o ∧
    o.head = Preset.top200.ports ∧
    (∀ q, q ∈ o.ports ↔ q ∈ Preset.top200.ports ∨ q = 1 ∨ q = 2) ∧
    ofString reordered = .ok o := by
  obtain ⟨haccepted, hexpands, _, hsame⟩ := expands_of_read overlapping
  have hspec : PortSpec.ofString overlapping = .ok ⟨some .top200, [⟨0, 2⟩, ⟨2, 2⟩]⟩ := rfl
  obtain ⟨hprefers, _, hexplicit⟩ := PortSpec.read_eq_ok hspec
  have hp : Prefers overlapping.toList .top200 := (hprefers .top200).mp rfl
  have hb : trim overlapping.toList ≠ [] := by decide
  obtain ⟨o, ho⟩ := haccepted.mpr (.inr ⟨⟨_, hspec⟩, .inl ⟨_, hp.1⟩⟩)
  have he := (hexpands o ho).2.1 hb
  refine ⟨o, ho, he.head_named _ hp, ?_, hsame o reordered ho hb ?_⟩
  · intro q
    have hq : q ∈ explicit overlapping.toList ↔ q = 1 ∨ q = 2 := by
      rw [hexplicit]
      simp only [PortSpec.inRanges, PortRange.contains, List.any_cons, List.any_nil, Bool.or_false,
        Bool.or_eq_true, Bool.and_eq_true, decide_eq_true_eq, ne_eq, ← UInt16.toNat_inj,
        UInt16.le_iff_toNat_le]
      have h1 : (1 : Port).toNat = 1 := rfl
      have h2 : (2 : Port).toNat = 2 := rfl
      have h0 : (0 : Port).toNat = 0 := rfl
      omega
    have hmem := Set.ext_iff.mp (he.ports_named _ hp) q
    rwa [Set.mem_union, hq] at hmem
  · have hitems : items overlapping.toList =
        ["0-2".toList, "top1000".toList, "TOP200".toList, "2".toList] := rfl
    have hitems' : items reordered.toList =
        ["TOP200".toList, "2".toList, "TOP200".toList, "top1000".toList, "0-2".toList] := rfl
    have hsame (a b c d x : List Char) : x ∈ [c, d, c, b, a] ↔ x ∈ [a, b, c, d] := by
      grind
    intro x
    rw [hitems, hitems']
    exact hsame _ _ _ _ x

end Sample

end PortOrder

end Recon
