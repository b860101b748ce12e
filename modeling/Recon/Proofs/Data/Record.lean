import Mathlib.Data.List.Nodup
import Recon.Proofs.Data.Json

/-!
# Records

A record in which no name stands twice is its own look-up table, and what is looked up in it does
not depend on the order of its fields.
-/

namespace Recon.Data

open Recon.Text

variable {α : Type} {read : Value → Option α} {field : String} {v : Value} {x : α}
  {keep : String → Bool} {fs gs : List (String × Value)}

/-! ### Look-ups -/

theorem namedFields_record (fs : List (String × Value)) :
    namedFields (fs.map fun (k, v) => (some k, v)) = some fs := by
  induction fs with
  | nil => rfl
  | cons f fs ih =>
    rw [List.map_cons, namedFields, ih]
    rfl

/-- A record in which no name stands twice is a look-up table for any names. -/
theorem Value.fields?_record (h : (fs.map (·.1)).Nodup) (style : Convention)
    (names : List String) : (Value.record fs).fields? style names = some fs := by
  have honce (name : String) : (fs.filter (·.1 == name)).length ≤ 1 := by
    calc (fs.filter (·.1 == name)).length = (fs.map (·.1)).count name := by
          rw [List.count, List.countP_map, List.countP_eq_length_filter]
          rfl
      _ ≤ 1 := List.nodup_iff_count_le_one.mp h name
  rw [record, fields?, namedFields_record]
  simp [honce]

/-- A field is found wherever it stands in a record, if its name stands only once. -/
theorem required_of_perm (h : fs.Perm gs) (hg : gs.filter (·.1 == field) = [(field, v)]) :
    required fs field read = read v := by
  have hfilter : fs.filter (·.1 == field) = [(field, v)] := by
    rw [← List.perm_singleton, ← hg]
    exact h.filter _
  rw [required, ← List.head?_filter, hfilter]
  rfl

/-- Of fields of which a part is kept, one whose name stands only once is read if it is kept, and
else is its default. -/
theorem field_of_perm (h : fs.Perm (gs.filter fun f => keep f.1)) (name : String) (d : α)
    (read : Value → Option α) (hg : gs.filter (·.1 == name) = [(name, v)]) (hx : read v = some x) :
    Data.field fs name d read = some (if keep name then x else d) := by
  have hfilter : (fs.filter (·.1 == name)).Perm (if keep name then [(name, v)] else []) := by
    calc (fs.filter (·.1 == name)).Perm ((gs.filter fun f => keep f.1).filter (·.1 == name)) :=
          h.filter _
      _ = (gs.filter (·.1 == name)).filter fun f => keep f.1 := List.filter_comm ..
      _ = if keep name then [(name, v)] else [] := by
          rw [hg, List.filter_singleton, Bool.cond_eq_ite]
  rw [Data.field, ← List.head?_filter]
  cases hkeep : keep name with
  | true =>
    rw [hkeep, if_pos rfl, List.perm_singleton] at hfilter
    rw [hfilter]
    exact hx
  | false =>
    rw [hkeep, if_neg Bool.false_ne_true, List.perm_nil] at hfilter
    rw [hfilter]
    rfl

/-! ### Texts of records -/

namespace Json

theorem writeFields_named (fs : List (String × Value)) :
    writeFields (named fs) = fs.map fun f => quote f.1 ++ ':' :: write f.2 := by
  induction fs with
  | nil => rfl
  | cons f fs ih =>
    rw [List.map_cons, ← ih]
    rfl

/-- A record is written in one line, each name before its value. -/
theorem write_record (fs : List (String × Value)) :
    write (.record fs) =
      '{' :: join [','] (fs.map fun f => quote f.1 ++ ':' :: write f.2) ++ ['}'] := by
  rw [← writeFields_named, Value.record, write]
  rfl

end Json

end Recon.Data
