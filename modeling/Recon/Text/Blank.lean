/-!
# Blanks

The characters that count as blank around an item, and trimming them from both ends of a text.
Blank is the Unicode property White_Space, so a no-break space or an ideographic space is trimmed
as well as the ASCII ones.
-/

namespace Recon.Text

/-- The twenty-five characters with the Unicode property White_Space. -/
def isBlank (c : Char) : Bool :=
  let n := c.toNat
  (9 ≤ n && n ≤ 13) || n == 0x20 || n == 0x85 || n == 0xA0 || n == 0x1680 ||
    (0x2000 ≤ n && n ≤ 0x200A) || n == 0x2028 || n == 0x2029 || n == 0x202F || n == 0x205F ||
    n == 0x3000

def trimRight : List Char → List Char
  | [] => []
  | c :: cs =>
    match trimRight cs with
    | [] => if isBlank c then [] else [c]
    | rest => c :: rest

def trim (cs : List Char) : List Char :=
  trimRight (cs.dropWhile isBlank)

end Recon.Text
