import Recon.Proofs.Schedule.Text

/-!
# Settings in documents are read back

The record of settings has one field for each of them, and every field is read as what it was
written from.  A field is looked up by its name alone, so the fields may stand in any order; one
that is missing is read as its default.
-/

namespace Recon

open Recon.Text Recon.Data

variable {keep : String → Bool} {s : Settings} {fs : List (String × Value)}

/-! ### Values of fields -/

theorem Data.Value.nat?_nat {n limit : ℕ} (h : n ≤ limit) : (Value.nat n).nat? limit = some n := by
  simp [Value.nat?, Value.nat, Numeral.ofNat, Numeral.nat?, h]

theorem Data.Value.uint32?_nat (n : UInt32) : (Value.nat n.toNat).uint32? = some n := by
  rw [Value.uint32?, nat?_nat (Nat.le_sub_one_of_lt n.toNat_lt_size), Option.map_some,
    UInt32.ofNat_toNat]

theorem Data.Value.uint64?_nat (n : UInt64) : (Value.nat n.toNat).uint64? = some n := by
  rw [Value.uint64?, nat?_nat (Nat.le_sub_one_of_lt n.toNat_lt_size), Option.map_some,
    UInt64.ofNat_toNat]

theorem ScanMode.ofValue?_name (m : ScanMode) (style : Convention) :
    ScanMode.ofValue? style (.text m.name) = some m := by
  cases m <;> rfl

theorem PoolSizes.ofValue?_toValue (p : PoolSizes) (style : Convention) :
    PoolSizes.ofValue? style p.toValue = some p := by
  have hfields : p.toValue.fields? style ["ping", "scan", "finger"] =
      some [("ping", .nat p.ping.toNat), ("scan", .nat p.scan.toNat),
        ("finger", .nat p.finger.toNat)] := by
    have hnames : ["ping", "scan", "finger"].Nodup := by decide
    rw [toValue, Value.fields?_record]
    exact hnames
  simp [PoolSizes.ofValue?, hfields, required, Value.uint64?_nat]

theorem Window.ofValue?_toValue (w : Window) (style : Convention) :
    Window.ofValue? style w.toValue = some w := by
  rw [toValue_eq, ofValue?_record (.refl _), ofParts_written]
  rfl

theorem Window.isPlain_toValue (w : Window) : w.toValue.IsPlain := by
  rw [toValue_eq]
  exact isPlain_of_perm (.refl _)

theorem Window.optional_ofValue? (w : Option Window) (style : Convention) :
    Value.optional (Window.ofValue? style) (match w with | some w => w.toValue | none => .null) =
      some w := by
  cases w with
  | none => rfl
  | some w => exact congrArg (Option.map some) (w.ofValue?_toValue style)

/-! ### Settings -/

namespace Settings

/-- The settings of which only the fields with these names are kept; every other field has its
default. -/
def keeping (keep : String → Bool) (s : Settings) : Settings where
  location := if keep "location" then s.location else default.location
  name := if keep "name" then s.name else default.name
  target := if keep "target" then s.target else default.target
  excluded := if keep "exclude_target" then s.excluded else default.excluded
  ports := if keep "port" then s.ports else default.ports
  mode := if keep "mode" then s.mode else default.mode
  rate := if keep "rate" then s.rate else default.rate
  timeout := if keep "timeout" then s.timeout else default.timeout
  pool := if keep "pool" then s.pool else default.pool
  ping := if keep "ping" then s.ping else default.ping
  httpx := if keep "httpx" then s.httpx else default.httpx
  screenshot := if keep "screenshot" then s.screenshot else default.screenshot
  report := if keep "report" then s.report else default.report
  window := if keep "exclude_time_range" then s.window else default.window
  debug := if keep "debug" then s.debug else default.debug

theorem ofFields_of_perm (h : fs.Perm (s.toFields.filter fun f => keep f.1)) (style : Convention) :
    ofFields style fs = some (s.keeping keep) := by
  have hlocation := field_of_perm h "location" default.location Value.text? rfl rfl
  have hname := field_of_perm h "name" default.name Value.text? rfl rfl
  have htarget := field_of_perm h "target" default.target Value.text? rfl rfl
  have hexcluded := field_of_perm h "exclude_target" default.excluded Value.text? rfl rfl
  have hports := field_of_perm h "port" default.ports Value.text? rfl rfl
  have hmode := field_of_perm h "mode" default.mode (ScanMode.ofValue? style) rfl
    (s.mode.ofValue?_name style)
  have hrate := field_of_perm h "rate" default.rate Value.uint32? rfl (Value.uint32?_nat s.rate)
  have htimeout := field_of_perm h "timeout" default.timeout Value.uint64? rfl
    (Value.uint64?_nat s.timeout)
  have hpool := field_of_perm h "pool" default.pool (PoolSizes.ofValue? style) rfl
    (s.pool.ofValue?_toValue style)
  have hping := field_of_perm h "ping" default.ping Value.bool? rfl rfl
  have hhttpx := field_of_perm h "httpx" default.httpx Value.bool? rfl rfl
  have hscreenshot := field_of_perm h "screenshot" default.screenshot Value.bool? rfl rfl
  have hreport := field_of_perm h "report" default.report Value.bool? rfl rfl
  have hwindow := field_of_perm h "exclude_time_range" default.window
    (Value.optional (Window.ofValue? style)) rfl (Window.optional_ofValue? s.window style)
  have hdebug := field_of_perm h "debug" default.debug Value.bool? rfl rfl
  simp only [ofFields, hlocation, hname, htarget, hexcluded, hports, hmode, hrate, htimeout, hpool,
    hping, hhttpx, hscreenshot, hreport, hwindow, hdebug]
  rfl

theorem map_fst_toFields (s : Settings) : s.toFields.map (·.1) = fieldNames := rfl

/-- Fields that are kept have different names, in whatever order they stand. -/
theorem nodup_of_perm (h : fs.Perm (s.toFields.filter fun f => keep f.1)) :
    (fs.map (·.1)).Nodup := by
  have hnames : fieldNames.Nodup := by decide
  rw [(h.map _).nodup_iff]
  apply List.Nodup.sublist (List.filter_sublist.map _)
  rwa [map_fst_toFields]

theorem isPlain_of_mem_toFields (s : Settings) : ∀ f ∈ s.toFields, f.2.IsPlain := by
  have hpool : s.pool.toValue.IsPlain := by
    refine .record ?_
    simp only [List.forall_mem_cons]
    exact ⟨.nat _, .nat _, .nat _, by simp⟩
  have hwindow : (match s.window with | some w => w.toValue | none => .null : Value).IsPlain := by
    cases s.window with
    | none => exact .null
    | some w => exact w.isPlain_toValue
  simp only [toFields, List.forall_mem_cons]
  exact ⟨.text _, .text _, .text _, .text _, .text _, .text _, .nat _, .nat _, hpool, .bool _,
    .bool _, .bool _, .bool _, hwindow, .bool _, by simp⟩

theorem isPlain_of_perm (h : fs.Perm (s.toFields.filter fun f => keep f.1)) :
    (Value.record fs).IsPlain := by
  refine .record fun f hf => ?_
  exact isPlain_of_mem_toFields s f (List.mem_of_mem_filter (h.subset hf))

/-- A record of fields that are kept is read as the settings that keep just these. -/
theorem ofValue?_of_perm (h : fs.Perm (s.toFields.filter fun f => keep f.1))
    (style : Convention) : ofValue? style (.record fs) = some (s.keeping keep) := by
  rw [ofValue?, Value.fields?_record (nodup_of_perm h), Option.bind_some, ofFields_of_perm h]

theorem keeping_all (s : Settings) : s.keeping (fun _ => true) = s := rfl

/-- Settings are written as one record with all their fields in this order, each name before its
value.  That text is read as the same settings.  With any of the fields removed, and those that are
left in any order, it is still a document, and however this document is spelled it is read as the
settings of which every removed field has its default. -/
theorem document_read_back (s : Settings) :
    s.toFields.map (·.1) = ["location", "name", "target", "exclude_target", "port", "mode", "rate",
      "timeout", "pool", "ping", "httpx", "screenshot", "report", "exclude_time_range", "debug"] ∧
    s.toJson.toList = '{' ::
      join [','] (s.toFields.map fun f => Json.quote f.1 ++ ':' :: Json.write f.2) ++ ['}'] ∧
    ofJson? s.toJson = some s ∧
    ∀ keep fs, fs.Perm (s.toFields.filter fun f => keep f.1) →
      Json.ofString? (Json.toString (.record fs)) = some (.record fs) ∧
        ∀ text, Json.ofString? text = some (.record fs) → ofJson? text = some (s.keeping keep) := by
  have hparts (keep : String → Bool) (fs : List (String × Value))
      (h : fs.Perm (s.toFields.filter fun f => keep f.1)) :
      Json.ofString? (Json.toString (.record fs)) = some (.record fs) ∧
        ∀ text, Json.ofString? text = some (.record fs) → ofJson? text = some (s.keeping keep) := by
    refine ⟨Json.ofString?_toString (isPlain_of_perm h), ?_⟩
    intro text htext
    rw [ofJson?, htext, Option.bind_some, ofValue?_of_perm h]
  refine ⟨s.map_fst_toFields, ?_, ?_, hparts⟩
  · rw [toJson, Json.toString, String.toList_ofList, toValue, Json.write_record]
  · -- the whole record is the one that keeps every field
    have hall : s.toFields.Perm (s.toFields.filter fun _ => true) := by
      rw [List.filter_true]
    obtain ⟨hstands, hread⟩ := hparts (fun _ => true) s.toFields hall
    rw [toJson, toValue, hread _ hstands, keeping_all]

namespace Sample

/-- Settings with marks, escapes and far characters in a text, the largest numbers and a window. -/
def odd : Settings :=
  { default with
    location := "a\"b\\c\n\u0001é𝄞"
    target := "10.0.0.0/24"
    mode := .syn
    rate := 4294967295
    timeout := 18446744073709551615
    pool := ⟨0, 18446744073709551615, 7⟩
    window := some
      ⟨.workdays, ⟨⟨21, by decide⟩, ⟨47, by decide⟩⟩, ⟨⟨3, by decide⟩, ⟨13, by decide⟩⟩⟩
    debug := true }

def dropped : List String := ["rate", "pool"]

def oddFields : List (String × Value) :=
  (odd.toFields.filter fun f => !dropped.contains f.1).reverse

theorem document_read_back_of_odd :
    oddFields.Perm (odd.toFields.filter fun f => !dropped.contains f.1) ∧
      ofJson? odd.toJson = some odd ∧
      ofJson? (Json.toString (.record oddFields)) =
        some { odd with rate := 500, pool := ⟨10, 10, 50⟩ } := by
  have hperm : oddFields.Perm (odd.toFields.filter fun f => !dropped.contains f.1) :=
    List.reverse_perm _
  obtain ⟨-, -, hwhole, hparts⟩ := document_read_back odd
  obtain ⟨hstands, hread⟩ := hparts (fun name => !dropped.contains name) oddFields hperm
  refine ⟨hperm, hwhole, ?_⟩
  rw [hread _ hstands]
  rfl

end Sample

end Settings

end Recon
