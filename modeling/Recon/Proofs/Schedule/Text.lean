import Recon.Proofs.Data.Record
import Recon.Proofs.Text.Split
import Recon.Proofs.Time.Clock
import Recon.Settings.Record

/-!
# Windows as texts and in documents

A window is read from one line with two commas, or from a record of three texts.  Both ways take the
blanks away around each part and then read the parts alike, so they accept the same parts.  What is
written has no blanks, and the recurrence under the first of its names.
-/

namespace Recon

open Recon.Text Recon.Time Recon.Data

variable {cs name start stop : List Char} {r r' : Recurrence} {t : TimeOfDay} {w : Window}

/-! ### Names of recurrences -/

/-- The names by which a recurrence is known.  It is written under the first of them. -/
def Recurrence.spellings : Recurrence → List String
  | .daily => ["daily"]
  | .workdays => ["every-workday", "everyWorKDay", "workday"]
  | .businessHours => ["business-hours-broad", "OpeningtimeBroad"]

theorem Recurrence.name_mem_spellings (r : Recurrence) : r.name ∈ r.spellings := by
  cases r <;> simp [name, spellings]

/-- No name stands for two recurrences. -/
theorem Recurrence.eq_of_mem_spellings {s : String} (h : s ∈ r.spellings)
    (h' : s ∈ r'.spellings) : r = r' := by
  cases r <;> cases r' <;> simp [spellings] at h h' ⊢ <;> grind

theorem contains_map_toList (names : List String) (cs : List Char) :
    (names.map String.toList).contains cs = true ↔ String.ofList cs ∈ names := by
  rw [List.contains_iff_mem, List.mem_map]
  constructor
  · rintro ⟨s, hs, rfl⟩
    rwa [String.ofList_toList]
  · exact fun h => ⟨_, h, String.toList_ofList⟩

theorem Recurrence.read_eq (cs : List Char) :
    Recurrence.read cs =
      if String.ofList (trim cs) ∈ daily.spellings then .ok .daily
      else if String.ofList (trim cs) ∈ workdays.spellings then .ok .workdays
      else if String.ofList (trim cs) ∈ businessHours.spellings then .ok .businessHours
      else .error (.unknownRecurrence (trim cs)) := by
  simp only [← contains_map_toList]
  rfl

theorem Recurrence.read_eq_ok_iff :
    Recurrence.read cs = .ok r ↔ String.ofList (trim cs) ∈ r.spellings := by
  rw [read_eq]
  constructor
  · intro h
    split_ifs at h with hdaily hworkdays hbusiness
    · cases h
      exact hdaily
    · cases h
      exact hworkdays
    · cases h
      exact hbusiness
  · intro h
    split_ifs with hdaily hworkdays hbusiness
    · rw [eq_of_mem_spellings h hdaily]
    · rw [eq_of_mem_spellings h hworkdays]
    · rw [eq_of_mem_spellings h hbusiness]
    · cases r <;> contradiction

/-! ### Parts of windows -/

namespace Window

theorem readTime_eq_ok_iff : readTime cs = .ok t ↔ t.Shows (trim cs) := by
  rw [← TimeOfDay.read_eq_ok_iff, readTime]
  split
  · next h => simp [h]
  · next h => simp [h]

theorem ofParts_eq_ok_iff :
    ofParts name start stop = .ok w ↔
      String.ofList (trim name) ∈ w.recurrence.spellings ∧
        w.start.Shows (trim start) ∧ w.stop.Shows (trim stop) := by
  rw [← Recurrence.read_eq_ok_iff, ← readTime_eq_ok_iff, ← readTime_eq_ok_iff]
  obtain ⟨recurrence, first, last⟩ := w
  unfold ofParts
  cases Recurrence.read name with
  | error f => simp [bind, Except.bind]
  | ok r =>
    cases readTime start with
    | error f => simp [bind, Except.bind]
    | ok t => cases readTime stop <;> simp [bind, Except.bind, pure, Except.pure]

/-- A text spells a window: a name of its recurrence and its two times between commas, with blanks
around each if need be. -/
def IsSpelled (w : Window) (cs : List Char) : Prop :=
  ∃ name start stop, ',' ∉ name ∧ ',' ∉ start ∧ ',' ∉ stop ∧
    cs = name ++ ',' :: (start ++ ',' :: stop) ∧
    String.ofList (trim name) ∈ w.recurrence.spellings ∧
    w.start.Shows (trim start) ∧ w.stop.Shows (trim stop)

theorem read_eq_ofParts (hfields : fields ',' cs = [name, start, stop]) :
    Window.read cs = ofParts (trim name) (trim start) (trim stop) := by
  rw [Window.read, hfields]
  rfl

theorem read_eq_ok_iff : Window.read cs = .ok w ↔ w.IsSpelled cs := by
  constructor
  · intro h
    have hread := h
    unfold Window.read at h
    split at h
    · next a b c hparts =>
      obtain ⟨name, start, stop, hfields, rfl, rfl, rfl⟩ :
          ∃ x y z, fields ',' cs = [x, y, z] ∧ trim x = a ∧ trim y = b ∧ trim z = c := by
        simpa [List.map_eq_cons_iff, and_assoc] using hparts
      obtain ⟨hname, hstart, hstop, hcs⟩ := fields_eq_three_iff.mp hfields
      rw [ofParts_eq_ok_iff, trim_trim, trim_trim, trim_trim] at h
      exact ⟨name, start, stop, hname, hstart, hstop, hcs, h⟩
    · cases h
  · rintro ⟨name, start, stop, hname, hstart, hstop, hcs, h⟩
    rw [read_eq_ofParts (fields_eq_three_iff.mpr ⟨hname, hstart, hstop, hcs⟩), ofParts_eq_ok_iff,
      trim_trim, trim_trim, trim_trim]
    exact h

theorem toOption_eq_some_iff {ε α : Type} {e : Except ε α} {a : α} :
    e.toOption = some a ↔ e = .ok a := by
  cases e <;> simp [Except.toOption]

/-! ### Written windows -/

theorem trim_name (r : Recurrence) : trim r.name.toList = r.name.toList := by
  cases r <;> decide

theorem trim_write (t : TimeOfDay) : trim t.write = t.write :=
  trim_of_solid fun _ => TimeOfDay.isBlank_of_mem_write

theorem comma_notMem_write (t : TimeOfDay) : ',' ∉ t.write := by
  intro hmem
  have hcomma := TimeOfDay.of_mem_write hmem
  revert hcomma
  decide

theorem ofParts_written (w : Window) :
    ofParts w.recurrence.name.toList w.start.write w.stop.write = .ok w := by
  rw [ofParts_eq_ok_iff, trim_name, trim_write, trim_write, String.ofList_toList]
  exact ⟨w.recurrence.name_mem_spellings, w.start.shows_write, w.stop.shows_write⟩

theorem isSpelled_write (w : Window) : w.IsSpelled w.write := by
  have hname : ',' ∉ w.recurrence.name.toList := by cases w.recurrence <;> decide
  exact ⟨_, _, _, hname, comma_notMem_write w.start, comma_notMem_write w.stop, by simp [write],
    ofParts_eq_ok_iff.mp w.ofParts_written⟩

/-- A window is read back from its own text. -/
theorem ofString_toString (w : Window) : ofString w.toString = .ok w := by
  rw [ofString, Window.toString, String.toList_ofList, read_eq_ok_iff]
  exact w.isSpelled_write

theorem toString_inj {w' : Window} : w.toString = w'.toString ↔ w = w' := by
  constructor
  · intro h
    have hread := w.ofString_toString
    rw [h, ofString_toString] at hread
    exact (Except.ok.inj hread).symm
  · exact congrArg _

/-! ### Windows in documents -/

def partFields (name start stop : List Char) : List (String × Value) :=
  [("daily", .text (String.ofList name)), ("begin", .text (String.ofList start)),
    ("end", .text (String.ofList stop))]

/-- A record of three texts is read as these parts, in whatever order it has them. -/
theorem ofValue?_record {fs : List (String × Value)} (h : fs.Perm (partFields name start stop))
    (style : Convention) :
    ofValue? style (.record fs) = (ofParts name start stop).toOption := by
  have hlength (field : String) : (fs.filter fun f => f.1 == field).length =
      ((partFields name start stop).filter fun f => f.1 == field).length :=
    (h.filter _).length_eq
  have hfields : (Value.record fs).fields? style fieldNames = some fs := by
    rw [Value.record, Value.fields?, namedFields_record]
    simp [fieldNames, hlength, partFields]
  have hdaily : required fs "daily" Value.text? = some (String.ofList name) :=
    required_of_perm (v := .text _) h rfl
  have hbegin : required fs "begin" Value.text? = some (String.ofList start) :=
    required_of_perm (v := .text _) h rfl
  have hend : required fs "end" Value.text? = some (String.ofList stop) :=
    required_of_perm (v := .text _) h rfl
  simp [ofValue?, hfields, hdaily, hbegin, hend]

theorem toValue_eq (w : Window) :
    w.toValue = .record (partFields w.recurrence.name.toList w.start.write w.stop.write) := by
  simp [toValue, partFields]

theorem isPlain_of_perm {fs : List (String × Value)}
    (h : fs.Perm (partFields name start stop)) : (Value.record fs).IsPlain := by
  refine .record fun f hf => ?_
  have hmem := h.subset hf
  simp only [partFields, List.mem_cons, List.not_mem_nil, or_false] at hmem
  rcases hmem with rfl | rfl | rfl <;> exact .text _

/-- A window is read back from its own document. -/
theorem ofJson?_toJson (w : Window) : ofJson? w.toJson = some w := by
  rw [ofJson?, toJson, toValue_eq, Json.ofString?_toString (isPlain_of_perm (.refl _)),
    Option.bind_some, ofValue?_record (.refl _), ofParts_written]
  rfl

def HoldsParts (fs : List (String × Value)) (name start stop : List Char) : Prop :=
  ∃ a b c, trim a = trim name ∧ trim b = trim start ∧ trim c = trim stop ∧
    fs.Perm (partFields a b c)

/-- A record of the parts of a text is read as the text is. -/
theorem ofValue?_eq_ofString {fs : List (String × Value)} {s : String}
    (hs : fields ',' s.toList = [name, start, stop]) (hfs : HoldsParts fs name start stop)
    (style : Convention) : ofValue? style (.record fs) = (ofString s).toOption := by
  obtain ⟨a, b, c, ha, hb, hc, hperm⟩ := hfs
  have hiff (w : Window) : ofParts a b c = .ok w ↔ ofString s = .ok w := by
    rw [ofString, read_eq_ofParts hs, ofParts_eq_ok_iff, ofParts_eq_ok_iff, ha, hb, hc, trim_trim,
      trim_trim, trim_trim]
  rw [ofValue?_record hperm]
  ext w
  rw [toOption_eq_some_iff, toOption_eq_some_iff, hiff]

/-- Which texts are windows, and that a window is the same however it was written: a text is read
just if it spells a window, its own text and its own document stand for a window and for no other,
and the parts of a text make the same window when they stand in a record. -/
theorem text_agrees_with_document (s : String) :
    (∀ w, ofString s = .ok w ↔ w.IsSpelled s.toList) ∧
      ((¬ ∃ w : Window, w.IsSpelled s.toList) →
        ∃ f, ofString s = .error f ∧ f.toError.kind = .schedule) ∧
      (∀ w w' : Window, ofString w.toString = .ok w ∧ ofJson? w.toJson = some w ∧
        (w.toString = w'.toString ↔ w = w')) ∧
      ∀ name start stop, ',' ∉ name → ',' ∉ start → ',' ∉ stop →
        s.toList = name ++ ',' :: (start ++ ',' :: stop) →
        ∀ fs, HoldsParts fs name start stop →
          Json.ofString? (Json.toString (.record fs)) = some (.record fs) ∧
            ∀ text, Json.ofString? text = some (.record fs) →
              ofJson? text = (ofString s).toOption := by
  refine ⟨fun w => read_eq_ok_iff, ?_, ?_, ?_⟩
  · intro hnone
    cases hread : ofString s with
    | error f => exact ⟨f, rfl, rfl⟩
    | ok w => exact absurd ⟨w, read_eq_ok_iff.mp hread⟩ hnone
  · exact fun w w' => ⟨w.ofString_toString, w.ofJson?_toJson, toString_inj⟩
  · intro name start stop hname hstart hstop hs fs hfs
    have hfields := fields_eq_three_iff.mpr ⟨hname, hstart, hstop, hs⟩
    constructor
    · obtain ⟨a, b, c, -, -, -, hperm⟩ := hfs
      exact Json.ofString?_toString (isPlain_of_perm hperm)
    · intro text htext
      rw [ofJson?, htext, Option.bind_some, ofValue?_eq_ofString hfields hfs]

namespace Sample

def broad : Window :=
  ⟨.businessHours, ⟨⟨9, by decide⟩, ⟨5, by decide⟩⟩, ⟨⟨23, by decide⟩, ⟨59, by decide⟩⟩⟩

/-- The fields of a document that names its parts in another order, with blanks elsewhere. -/
def shuffledFields : List (String × Value) :=
  [("end", .text "23:59"), ("daily", .text "OpeningtimeBroad"), ("begin", .text " 9: 5 ")]

theorem holdsParts_shuffledFields :
    HoldsParts shuffledFields " OpeningtimeBroad ".toList " 9: 5".toList "23:59".toList := by
  refine ⟨"OpeningtimeBroad".toList, " 9: 5 ".toList, "23:59".toList, by decide, by decide,
    by decide, ?_⟩
  exact (List.perm_append_singleton _ [_, _]).symm

/-- A window with an older name and single digits, and a text that lacks a time. -/
theorem text_agrees_with_document_of_broad :
    ofString " OpeningtimeBroad , 9: 5,23:59" = .ok broad ∧
      ofString "business-hours-broad,09:05,23:59" = .ok broad ∧
      ofJson? (Json.toString (.record shuffledFields)) = some broad ∧
      ∃ f, ofString "daily,09:00" = .error f ∧ f.toError.kind = .schedule := by
  obtain ⟨-, -, hwritten, hparts⟩ :=
    text_agrees_with_document " OpeningtimeBroad , 9: 5,23:59"
  obtain ⟨hread, hfault, -, -⟩ := text_agrees_with_document "daily,09:00"
  have hbroad : ofString " OpeningtimeBroad , 9: 5,23:59" = .ok broad := by decide
  refine ⟨hbroad, (hwritten broad broad).1, ?_, hfault ?_⟩
  · obtain ⟨hstands, hread⟩ := hparts " OpeningtimeBroad ".toList " 9: 5".toList "23:59".toList
      (by decide) (by decide) (by decide) (by decide) shuffledFields holdsParts_shuffledFields
    rw [hread _ hstands, hbroad]
    rfl
  · rintro ⟨w, hw⟩
    have hok := (hread w).mpr hw
    have herror : ofString "daily,09:00" = .error (.wrongParts "daily,09:00".toList) := by decide
    rw [herror] at hok
    cases hok

end Sample

end Window

end Recon
