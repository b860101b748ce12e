import Mathlib.Data.List.Basic
import Mathlib.Data.List.TakeWhile
import Recon.Text.Split

/-!
# Splitting and trimming

Splitting a text that was put together from pieces without the separator gives the pieces back, and
trimming takes away the blanks around a text but none that stand inside it.
-/

namespace Recon.Text

section Blanks

variable {cs : List Char}

theorem trimRight_cons (c : Char) (cs : List Char) :
    trimRight (c :: cs) =
      if trimRight cs = [] ∧ isBlank c = true then [] else c :: trimRight cs := by
  rw [trimRight]
  cases h : trimRight cs with
  | nil => cases hc : isBlank c <;> simp
  | cons d ds => simp

theorem trimRight_eq_nil_iff : trimRight cs = [] ↔ ∀ c ∈ cs, isBlank c = true := by
  induction cs with
  | nil => simp [trimRight]
  | cons c cs ih =>
    rw [trimRight_cons, List.forall_mem_cons, ← ih]
    split
    · next h => simp [h]
    · next h => simpa [and_comm] using h

theorem trim_eq_nil_iff : trim cs = [] ↔ ∀ c ∈ cs, isBlank c = true := by
  rw [trim, trimRight_eq_nil_iff]
  constructor
  · -- what was dropped at the left is blank, too
    intro h c hc
    rw [← List.takeWhile_append_dropWhile (p := isBlank) (l := cs), List.mem_append] at hc
    rcases hc with hc | hc
    · exact List.mem_takeWhile_imp hc
    · exact h c hc
  · exact fun h c hc => h c ((List.dropWhile_sublist _).subset hc)

theorem trimRight_append {r : List Char} (hr : ∀ c ∈ r, isBlank c = true) :
    trimRight (cs ++ r) = trimRight cs := by
  induction cs with
  | nil => exact trimRight_eq_nil_iff.mpr hr
  | cons c cs ih => rw [List.cons_append, trimRight_cons, trimRight_cons, ih]

theorem trimRight_concat {c : Char} (hc : isBlank c = false) :
    trimRight (cs ++ [c]) = cs ++ [c] := by
  induction cs with
  | nil => simp [trimRight, hc]
  | cons d cs ih => simp [trimRight_cons, ih]

theorem trimRight_trimRight (cs : List Char) : trimRight (trimRight cs) = trimRight cs := by
  induction cs with
  | nil => rfl
  | cons c cs ih =>
    rw [trimRight_cons]
    split
    · rfl
    · next h => rw [trimRight_cons, ih, if_neg h]

theorem trim_trim (cs : List Char) : trim (trim cs) = trim cs := by
  unfold trim
  cases hdrop : cs.dropWhile isBlank with
  | nil => rfl
  | cons c ds =>
    have hc : isBlank c = false := by
      have hhead := List.head?_dropWhile_not isBlank cs
      rw [hdrop] at hhead
      simpa using hhead
    -- the first character stays, and nothing is dropped before it the second time
    have hkeep (es : List Char) : trimRight (c :: es) = c :: trimRight es := by
      rw [trimRight_cons, if_neg (by simp [hc])]
    rw [hkeep, List.dropWhile_cons_of_neg (by simp [hc]), hkeep, trimRight_trimRight]

/-- Blanks around a text are trimmed, up to a first and a last character that are none. -/
theorem trim_padded {l r : List Char} (hl : ∀ c ∈ l, isBlank c = true)
    (hr : ∀ c ∈ r, isBlank c = true) (hhead : ∀ c ∈ cs.head?, isBlank c = false)
    (hlast : ∀ c ∈ cs.getLast?, isBlank c = false) : trim (l ++ cs ++ r) = cs := by
  -- at the left end blanks are dropped up to the first character, at the right end to the last
  rcases List.eq_nil_or_concat cs with rfl | ⟨ds, c, hcs⟩
  · have hall : ∀ c ∈ l ++ [] ++ r, isBlank c = true := by
      intro c hc
      rw [List.append_nil, List.mem_append] at hc
      exact hc.elim (hl c) (hr c)
    exact trim_eq_nil_iff.mpr hall
  · rw [List.concat_eq_append] at hcs
    subst hcs
    have hc : isBlank c = false := hlast c (by simp)
    have hdrop : (l ++ (ds ++ [c]) ++ r).dropWhile isBlank = ds ++ [c] ++ r := by
      rw [List.append_assoc, List.dropWhile_append_of_pos hl]
      cases ds with
      | nil => simp [hc]
      | cons d ds => simp [hhead d (by simp)]
    rw [trim, hdrop, trimRight_append hr, trimRight_concat hc]

def Padded (t s : List Char) : Prop :=
  ∃ l r, (∀ c ∈ l, isBlank c = true) ∧ (∀ c ∈ r, isBlank c = true) ∧ s = l ++ t ++ r

namespace Padded

variable {t u s s' : List Char} {d : Char}

theorem trim_eq (h : Padded t s) (ht : ∀ c ∈ t, isBlank c = false) : trim s = t := by
  obtain ⟨l, r, hl, hr, rfl⟩ := h
  apply trim_padded hl hr
  · exact fun c hc => ht c (List.mem_of_mem_head? hc)
  · exact fun c hc => ht c (List.mem_of_mem_getLast? hc)

theorem notMem (h : Padded t s) (hd : isBlank d = false) (ht : d ∉ t) : d ∉ s := by
  obtain ⟨l, r, hl, hr, rfl⟩ := h
  have hblank (cs : List Char) (hcs : ∀ c ∈ cs, isBlank c = true) : d ∉ cs := by
    intro hmem
    rw [hcs d hmem] at hd
    cases hd
  simp [hblank l hl, hblank r hr, ht]

/-- Two texts with something between them keep the blanks on its sides when they are trimmed. -/
theorem trim_append_cons (h : Padded t s) (h' : Padded u s') (ht : ∀ c ∈ t, isBlank c = false)
    (hu : ∀ c ∈ u, isBlank c = false) (hne : t ≠ []) (hne' : u ≠ []) (d : Char) :
    ∃ x y, trim (s ++ d :: s') = x ++ d :: y ∧ Padded t x ∧ Padded u y := by
  obtain ⟨l, r, hl, hr, rfl⟩ := h
  obtain ⟨l', r', hl', hr', rfl⟩ := h'
  refine ⟨t ++ r, l' ++ u, ?_, ⟨[], r, by simp, hr, by simp⟩, ⟨l', [], hl', by simp, by simp⟩⟩
  have hassoc : l ++ t ++ r ++ d :: (l' ++ u ++ r') = l ++ (t ++ r ++ d :: (l' ++ u)) ++ r' := by
    simp
  rw [hassoc]
  apply trim_padded hl hr'
  · -- the first character is that of the first text
    intro c hc
    cases t with
    | nil => exact absurd rfl hne
    | cons e es =>
      cases hc
      exact ht _ List.mem_cons_self
  · intro c hc
    have hlast : (t ++ r ++ d :: (l' ++ u)).getLast? = u.getLast? := by
      rw [List.getLast?_append_of_ne_nil _ (List.cons_ne_nil _ _), ← List.cons_append,
        List.getLast?_append_of_ne_nil _ hne']
    rw [hlast] at hc
    exact hu c (List.mem_of_mem_getLast? hc)

end Padded

/-- A text without blanks has nothing to trim. -/
theorem trim_of_solid (h : ∀ c ∈ cs, isBlank c = false) : trim cs = cs :=
  Padded.trim_eq ⟨[], [], by simp, by simp, by simp⟩ h

end Blanks

section Separators

variable {sep : Char} {f cs : List Char}

theorem fields_of_notMem (h : sep ∉ cs) : fields sep cs = [cs] := by
  induction cs with
  | nil => rfl
  | cons c cs ih =>
    obtain ⟨hc, hcs⟩ := not_or.mp (mt List.mem_cons.mpr h)
    rw [fields, if_neg (Ne.symm hc), ih hcs]

theorem fields_append_cons (hf : sep ∉ f) :
    fields sep (f ++ sep :: cs) = f :: fields sep cs := by
  induction f with
  | nil => rw [List.nil_append, fields, if_pos rfl]
  | cons c f ih =>
    obtain ⟨hc, hf⟩ := not_or.mp (mt List.mem_cons.mpr hf)
    rw [List.cons_append, fields, if_neg (Ne.symm hc), ih hf]

theorem notMem_of_mem_fields : ∀ f ∈ fields sep cs, sep ∉ f := by
  induction cs with
  | nil => simp [fields]
  | cons c cs ih =>
    rw [fields]
    split
    · simpa using ih
    · next hc =>
      cases hfields : fields sep cs with
      | nil => simpa using Ne.symm hc
      | cons g gs =>
        rw [hfields, List.forall_mem_cons] at ih
        simpa [Ne.symm hc] using ih

theorem join_cons_cons (sep f g : List Char) (gs : List (List Char)) :
    join sep (f :: g :: gs) = f ++ sep ++ join sep (g :: gs) := rfl

/-- The fields of pieces that were joined are the pieces. -/
theorem fields_join {fs : List (List Char)} (hne : fs ≠ []) (h : ∀ f ∈ fs, sep ∉ f) :
    fields sep (join [sep] fs) = fs := by
  induction fs with
  | nil => exact absurd rfl hne
  | cons f fs ih =>
    have hf : sep ∉ f := h f List.mem_cons_self
    cases fs with
    | nil => exact fields_of_notMem hf
    | cons g gs =>
      have hrest := ih (List.cons_ne_nil g gs) fun x hx => h x (List.mem_cons_of_mem f hx)
      rw [join_cons_cons, List.append_assoc, List.singleton_append, fields_append_cons hf, hrest]

/-- A text has three fields just if it is three pieces without the separator around two of them. -/
theorem fields_eq_three_iff {f g h : List Char} :
    fields sep cs = [f, g, h] ↔
      sep ∉ f ∧ sep ∉ g ∧ sep ∉ h ∧ cs = f ++ sep :: (g ++ sep :: h) := by
  constructor
  · intro hfields
    have hnone : ∀ x ∈ fields sep cs, sep ∉ x := notMem_of_mem_fields
    rw [hfields] at hnone
    refine ⟨hnone f (by simp), hnone g (by simp), hnone h (by simp), ?_⟩
    simpa [hfields, join] using (join_fields sep cs).symm
  · rintro ⟨hf, hg, hh, rfl⟩
    rw [fields_append_cons hf, fields_append_cons hg, fields_of_notMem hh]

theorem cut_of_notMem (h : sep ∉ cs) : cut sep cs = none := by
  induction cs with
  | nil => rfl
  | cons c cs ih =>
    obtain ⟨hc, hcs⟩ := not_or.mp (mt List.mem_cons.mpr h)
    rw [cut, if_neg (Ne.symm hc), ih hcs, Option.map_none]

theorem cut_append_cons (hf : sep ∉ f) : cut sep (f ++ sep :: cs) = some (f, cs) := by
  induction f with
  | nil => rw [List.nil_append, cut, if_pos rfl]
  | cons c f ih =>
    obtain ⟨hc, hf⟩ := not_or.mp (mt List.mem_cons.mpr hf)
    rw [List.cons_append, cut, if_neg (Ne.symm hc), ih hf, Option.map_some]

theorem items_of_trim_eq_nil (h : trim cs = []) : items cs = [] := by
  have hblank := trim_eq_nil_iff.mp h
  have hcomma : ',' ∉ cs := fun hc => absurd (hblank ',' hc) (by decide)
  simp [items, fields_of_notMem hcomma, h]

/-- The fields of two texts with the separator between them are those of either. -/
theorem fields_append_sep (sep : Char) (a b : List Char) :
    fields sep (a ++ sep :: b) = fields sep a ++ fields sep b := by
  induction a with
  | nil => simp [fields]
  | cons c a ih =>
    rw [List.cons_append, fields, fields, ih]
    split
    · rfl
    · cases ha : fields sep a with
      | nil => exact absurd ha (fields_ne_nil sep a)
      | cons g gs => rfl

theorem items_append_comma (a b : List Char) : items (a ++ ',' :: b) = items a ++ items b := by
  rw [items, fields_append_sep, List.map_append, List.filter_append, ← items, ← items]

/-- Items have no blanks around them, are not empty and have no comma. -/
theorem trim_of_mem_items (h : f ∈ items cs) : trim f = f ∧ f ≠ [] := by
  obtain ⟨hmem, hne⟩ := List.mem_filter.mp h
  obtain ⟨g, -, rfl⟩ := List.mem_map.mp hmem
  exact ⟨trim_trim g, by simpa using hne⟩

/-- Items that were joined are the items of the text. -/
theorem items_join {fs : List (List Char)} (h : ∀ f ∈ fs, trim f = f ∧ f ≠ [] ∧ ',' ∉ f) :
    items (join [','] fs) = fs := by
  by_cases hnil : fs = []
  · subst hnil
    rfl
  · have htrim : fs.map trim = fs := by
      calc fs.map trim = fs.map id := List.map_congr_left fun f hf => (h f hf).1
        _ = fs := List.map_id fs
    rw [items, fields_join hnil fun f hf => (h f hf).2.2, htrim, List.filter_eq_self]
    intro f hf
    simpa using (h f hf).2.1

/-- A blank field more or less does not change the items. -/
theorem items_join_insert {before after : List (List Char)} (hf : ∀ c ∈ f, isBlank c = true)
    (hrest : ∀ g ∈ before ++ after, ',' ∉ g) (hne : before ++ after ≠ []) :
    items (join [','] (before ++ f :: after)) = items (join [','] (before ++ after)) := by
  have hcomma : ',' ∉ f := fun hc => absurd (hf ',' hc) (by decide)
  have hall : ∀ g ∈ before ++ f :: after, ',' ∉ g := by
    intro g hg
    rcases List.mem_append.mp hg with hg | hg
    · exact hrest g (List.mem_append_left _ hg)
    · rcases List.mem_cons.mp hg with rfl | hg
      · exact hcomma
      · exact hrest g (List.mem_append_right _ hg)
  have htrim : trim f = [] := trim_eq_nil_iff.mpr hf
  rw [items, items, fields_join (by simp) hall, fields_join hne hrest]
  simp [htrim]

end Separators

end Recon.Text
