import Recon.Text.Digits

/-!
# Identifiers of tasks

An identifier is a random number of one hundred and twenty-eight bits, written in five groups of
hexadecimal digits.  Six of its bits say that it is random.
-/

namespace Recon

/-- Some hexadecimal digits of a number, the last of them standing for a multiple of a power of
sixteen. -/
def hexGroup (digits : Nat) (n : Nat) : String :=
  String.ofList (Text.zeroFill digits (Text.hexadecimal (n % Nat.pow 16 digits)))

def identifier (high low : UInt64) : String :=
  let high := high.toNat
  let low := low.toNat
  let version := 0x4000 + high % 0x1000
  let variant := 0x8000 + low >>> 48 % 0x4000
  String.intercalate "-" [hexGroup 8 (high >>> 32), hexGroup 4 (high >>> 16),
    hexGroup 4 version, hexGroup 4 variant, hexGroup 12 low]

end Recon
