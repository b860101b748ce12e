import Recon.Proofs.Random.Drawn
import Recon.Proofs.Target.Block
import Recon.Target.Word

/-!
# Blocks are indexed without gaps

The indices below the size of a block that fits are its addresses in ascending order, each at one
index, and all numbers on the way fit into words.  A traversal of as many indices visits every
address of the block once.
-/

namespace Recon

namespace Block

variable {b : Block} {i j : ℕ} {x y : Address}

theorem isSome_nth_iff (b : Block) (i : ℕ) : (b.nth i).isSome = true ↔ i < b.size := by
  unfold nth
  split <;> simp_all

/-- The address at an index lies as far behind the first one. -/
theorem nth_eq_some_iff (hb : b.Fits) :
    b.nth i = some x ↔ i < b.size ∧ x.family = b.first.family ∧ x.value = b.first.value + i := by
  have hin := hb.inside
  constructor
  · intro h
    have hi : i < b.size := (b.isSome_nth_iff i).mp (by rw [h]; rfl)
    rw [b.nth_eq_some hi, Option.some_inj] at h
    rw [← h]
    exact ⟨hi, Address.family_advance _ _, Address.value_advance _ _ (by omega)⟩
  · rintro ⟨hi, hf, hv⟩
    rw [b.nth_eq_some hi, Option.some_inj]
    apply Address.ext_value ((Address.family_advance _ _).trans hf.symm)
    rw [Address.value_advance _ _ (by omega), hv]

theorem existsUnique_of_nth (hb : b.Fits) (h : b.nth i = some x) : ∃! i, b.nth i = some x := by
  obtain ⟨-, -, hi⟩ := (nth_eq_some_iff hb).mp h
  refine ⟨i, h, fun j hj => ?_⟩
  obtain ⟨-, -, hj⟩ := (nth_eq_some_iff hb).mp hj
  omega

/-- Every address of a block is at one index. -/
theorem existsUnique_nth_iff (hb : b.Fits) : (∃! i, b.nth i = some x) ↔ b.contains x = true := by
  rw [contains_eq_true_iff]
  constructor
  · rintro ⟨i, h, -⟩
    obtain ⟨hi, hf, hv⟩ := (nth_eq_some_iff hb).mp h
    exact ⟨hf, by omega, by omega⟩
  · rintro ⟨hf, hle, hlt⟩
    -- the index is the distance from the first address
    have hdistance : b.nth (x.value - b.first.value) = some x :=
      (nth_eq_some_iff hb).mpr ⟨by omega, hf, by omega⟩
    exact existsUnique_of_nth hb hdistance

theorem nth_lt (hb : b.Fits) (h : i < j) (hi : b.nth i = some x) (hj : b.nth j = some y) :
    x.value < y.value := by
  obtain ⟨-, -, hx⟩ := (nth_eq_some_iff hb).mp hi
  obtain ⟨-, -, hy⟩ := (nth_eq_some_iff hb).mp hj
  omega

/-- The addresses are listed in ascending order. -/
theorem pairwise_addresses (hb : b.Fits) :
    b.addresses.Pairwise fun x y => x.value < y.value := by
  have hin := hb.inside
  rw [addresses_eq, List.pairwise_map]
  refine List.pairwise_lt_range.imp_of_mem ?_
  intro i j hi hj h
  have hi := List.mem_range.mp hi
  have hj := List.mem_range.mp hj
  rw [Address.value_advance _ _ (by omega), Address.value_advance _ _ (by omega)]
  omega

/-! ### Words -/

/-- No index of a block that fits is cut short, and no sum is too large. -/
theorem nth?_eq (hb : b.Fits) (i : ℕ) : b.nth? i = some (b.nth i) := by
  have hle := hb.le
  have hin := hb.inside
  unfold nth?
  by_cases hi : i < b.size
  · -- the index is below the size, which the words of a short address hold
    have hindex : fittingIndex b.first.family i = some i := by
      cases b.first.family with
      | v4 =>
        have hsize : UInt32.size = 2 ^ 32 := rfl
        exact if_pos (by omega)
      | v6 => rfl
    have hvalue : fitting b.first.family.size (b.first.value + i) = some (b.first.value + i) :=
      if_pos (by omega)
    rw [if_neg (by omega), b.nth_eq_some hi, hindex]
    simp [hvalue, Address.advance]
  · rw [if_pos (by omega), nth, if_neg hi]
    rfl

theorem contains?_eq (b : Block) (x : Address) : b.contains? x = some (b.contains x) := by
  unfold contains? contains
  by_cases hf : x.family = b.first.family
  · by_cases hle : b.first.value ≤ x.value
    · simp [hf, hle, minus?, Nat.not_lt.mpr hle]
    · simp [hf, hle, Nat.lt_of_not_le hle]
  · simp [hf]

/-! ### Traversals -/

theorem bijOn_nth (hb : b.Fits) :
    Set.BijOn b.nth (Set.Iio b.size) {a | ∃ x, b.contains x = true ∧ a = some x} := by
  refine ⟨?_, ?_, ?_⟩
  · intro i hi
    have hsome := b.nth_eq_some (Set.mem_Iio.mp hi)
    exact ⟨_, (existsUnique_nth_iff hb).mp (existsUnique_of_nth hb hsome), hsome⟩
  · intro i _ j hj h
    have hsome := b.nth_eq_some (Set.mem_Iio.mp hj)
    exact (existsUnique_of_nth hb hsome).unique (h.trans hsome) hsome
  · rintro _ ⟨x, hx, rfl⟩
    obtain ⟨i, hi, -⟩ := (existsUnique_nth_iff hb).mpr hx
    exact ⟨i, ((nth_eq_some_iff hb).mp hi).1, hi⟩

/-- A drawn traversal visits every address of a block once. -/
theorem bijOn_nth_get (hb : b.Fits) {σ : Type} (d : Draws σ) (s : σ) :
    Set.BijOn (fun i => b.nth ((Traversal.draw d b.size s).1.get i)) (Set.Iio b.size)
      {a | ∃ x, b.contains x = true ∧ a = some x} := by
  -- the visits reach every index below the size, and the indices every address
  have hget := (Traversal.draw d b.size s).1.bijOn_get
  rw [Traversal.size_draw] at hget
  have hvisits := hget fun hpos => Nat.coprime_comm.mp (Traversal.gcd_step_draw d hpos s)
  exact (bijOn_nth hb).comp hvisits

/-- A block that is read is not empty and ends inside its family, so in words no index is cut short
and no sum is too large.  The indices below its size, and no others, have an address; the addresses
ascend, are all of one family, and are those that the block contains.  A traversal of its size,
whatever is drawn for it, visits each of them once. -/
theorem indexed_of_read {cs : List Char} (h : read cs = .ok b) {σ : Type} (d : Draws σ) (s : σ) :
    (1 ≤ b.size ∧ b.size ≤ 2 ^ 32 ∧ b.first.value + b.size ≤ 2 ^ b.first.family.width) ∧
    (∀ i, b.nth? i = some (b.nth i)) ∧
    (∀ x, b.contains? x = some (b.contains x)) ∧
    (∀ i, (b.nth i).isSome = true ↔ i < b.size) ∧
    (∀ i x, b.nth i = some x → x.family = b.first.family) ∧
    (∀ i j x y, i < j → b.nth i = some x → b.nth j = some y → x.value < y.value) ∧
    (∀ x, b.contains x = true ↔ ∃! i, b.nth i = some x) ∧
    (b.addresses.length = b.size ∧ b.addresses.Pairwise (fun x y => x.value < y.value) ∧
      ∀ x, x ∈ b.addresses ↔ b.contains x = true) ∧
    Set.BijOn (fun i => b.nth ((Traversal.draw d b.size s).1.get i)) (Set.Iio b.size)
      {a | ∃ x, b.contains x = true ∧ a = some x} := by
  have hb := fits_of_read h
  have hinside := hb.inside
  rw [Address.Family.size_eq] at hinside
  exact ⟨⟨hb.pos, hb.le, hinside⟩, nth?_eq hb, contains?_eq b, isSome_nth_iff b,
    fun i x hx => ((nth_eq_some_iff hb).mp hx).2.1, fun i j x y => nth_lt hb,
    fun x => (existsUnique_nth_iff hb).symm,
    ⟨length_addresses b, pairwise_addresses hb, mem_addresses_iff hb⟩, bijOn_nth_get hb d s⟩

namespace Sample

/-- The last six addresses of their family: no sum goes beyond the last of them. -/
theorem indexed_of_last_six : ∃ b, read "255.255.255.250-255".toList = .ok b ∧
    b.first.value + b.size = 2 ^ 32 ∧
    b.nth? 5 = some (some (.v4 0xFFFFFFFF)) ∧ b.nth? 6 = some none ∧
    Set.BijOn (fun i => b.nth ((Traversal.draw Traversal.Sample.lowest b.size ()).1.get i))
      (Set.Iio b.size) {a | ∃ x, b.contains x = true ∧ a = some x} := by
  have h : read "255.255.255.250-255".toList =
      .ok ⟨"255.255.255.250-255", .v4 0xFFFFFFFA, 6⟩ := by rfl
  obtain ⟨_, hword, _, _, _, _, _, _, hbij⟩ := indexed_of_read h Traversal.Sample.lowest ()
  exact ⟨_, h, rfl, (hword 5).trans rfl, (hword 6).trans rfl, hbij⟩

end Sample

end Block

end Recon
