import Recon.Text.Blank

/-!
# Splitting at a separator

`fields` cuts a text at every separator and `cut` at the first one.  A text with no separator is a
single field, so no text has no fields.  Joining the fields gives the text back.
-/

namespace Recon.Text

def fields (sep : Char) : List Char → List (List Char)
  | [] => [[]]
  | c :: cs =>
    if c = sep then [] :: fields sep cs
    else
      match fields sep cs with
      | [] => [[c]]
      | f :: fs => (c :: f) :: fs

def cut (sep : Char) : List Char → Option (List Char × List Char)
  | [] => none
  | c :: cs =>
    if c = sep then some ([], cs)
    else (cut sep cs).map fun (before, after) => (c :: before, after)

def join (sep : List Char) : List (List Char) → List Char
  | [] => []
  | [f] => f
  | f :: fs => f ++ sep ++ join sep fs

/-- The items of a comma separated list: its fields without surrounding blanks, blank ones left
out. -/
def items (cs : List Char) : List (List Char) :=
  ((fields ',' cs).map trim).filter (!·.isEmpty)

theorem fields_ne_nil (sep : Char) (cs : List Char) : fields sep cs ≠ [] := by
  induction cs with
  | nil => simp [fields]
  | cons c cs ih =>
    unfold fields
    split
    · simp
    · split <;> simp

/-- Joining the fields restores the text. -/
theorem join_fields (sep : Char) (cs : List Char) : join [sep] (fields sep cs) = cs := by
  induction cs with
  | nil => rfl
  | cons c cs ih =>
    unfold fields
    split
    · next h =>
      subst h
      cases hf : fields c cs with
      | nil => exact absurd hf (fields_ne_nil c cs)
      | cons f fs =>
        rw [hf] at ih
        simp [join, ih]
    · cases hf : fields sep cs with
      | nil => exact absurd hf (fields_ne_nil sep cs)
      | cons f fs =>
        rw [hf] at ih
        cases fs with
        | nil => simp_all [join]
        | cons g gs => simp_all [join]

end Recon.Text
