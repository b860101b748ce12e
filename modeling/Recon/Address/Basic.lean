/-!
# Internet addresses

An address is thirty-two or one hundred and twenty-eight bits.  Addresses of one family are
ordered by their value; the two families are never mixed.
-/

namespace Recon

inductive Address where
  | v4 (bits : BitVec 32)
  | v6 (bits : BitVec 128)
deriving DecidableEq, Hashable, Repr, Inhabited

namespace Address

inductive Family where
  | v4
  | v6
deriving DecidableEq, Repr

def Family.width : Family → Nat
  | .v4 => 32
  | .v6 => 128

def Family.size (f : Family) : Nat := Nat.pow 2 f.width

def family : Address → Family
  | .v4 _ => .v4
  | .v6 _ => .v6

def value : Address → Nat
  | .v4 bits => bits.toNat
  | .v6 bits => bits.toNat

/-- The address of a family with a given value, taken modulo the size of the family. -/
def ofValue : Family → Nat → Address
  | .v4, n => .v4 (BitVec.ofNat 32 n)
  | .v6, n => .v6 (BitVec.ofNat 128 n)

def advance (a : Address) (n : Nat) : Address := ofValue a.family (a.value + n)

theorem value_lt (a : Address) : a.value < a.family.size := by
  cases a with
  | v4 bits => exact bits.isLt
  | v6 bits => exact bits.isLt

@[simp] theorem family_ofValue (f : Family) (n : Nat) : (ofValue f n).family = f := by
  cases f <;> rfl

@[simp] theorem value_ofValue (f : Family) (n : Nat) : (ofValue f n).value = n % f.size := by
  cases f <;> exact BitVec.toNat_ofNat ..

theorem ofValue_value (a : Address) : ofValue a.family a.value = a := by
  cases a <;> simp [ofValue, value, family]

/-- An address is its family together with its value. -/
theorem ext_value {a b : Address} (hf : a.family = b.family) (hv : a.value = b.value) : a = b := by
  rw [← ofValue_value a, ← ofValue_value b, hf, hv]

end Address

end Recon
