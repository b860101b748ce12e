import Mathlib.Data.List.Induction
import Recon.Settings.Change

/-!
# Clamped numbers

A setter clamps its own number and leaves all else alone, so whatever calls are made, each field is
what was asked for last, clamped into its bounds, or what it was.  Clamping all numbers again
changes nothing of settings within bounds.
-/

namespace Recon

namespace Bounds

instance {α : Type} [LE α] [DecidableLE α] [Std.IsLinearOrder α] :
    @Std.LawfulOrderMax α maxOfLe _ := by
  let _ : Max α := maxOfLe
  have hmax (x y : α) : max x y = if x ≤ y then y else x := rfl
  refine .of_max_le_iff (fun x y z => ?_) fun x y => ?_
  · rw [hmax]
    grind
  · rw [hmax]
    grind

variable {α : Type} [LE α] [Max α] [Min α] [Std.IsLinearOrder α] [Std.LawfulOrderMax α]
  [Std.LawfulOrderMin α] (b : Bounds α) {x : α}

theorem clamp_mem (h : b.lo ≤ b.hi) (x : α) : b.lo ≤ b.clamp x ∧ b.clamp x ≤ b.hi :=
  ⟨Std.le_min_iff.mpr ⟨Std.right_le_max, h⟩, Std.min_le_right⟩

/-- A number that may be replaced by a clamped one stays within bounds. -/
theorem elim_clamp_mem (h : b.lo ≤ b.hi) {o : Option α} (hx : b.lo ≤ x ∧ x ≤ b.hi) :
    b.lo ≤ o.elim x b.clamp ∧ o.elim x b.clamp ≤ b.hi := by
  cases o with
  | none => exact hx
  | some y => exact b.clamp_mem h y

theorem clamp_eq_self (hx : b.lo ≤ x ∧ x ≤ b.hi) : b.clamp x = x := by
  have hmax : max x b.lo = x :=
    Std.le_antisymm (Std.max_le_iff.mpr ⟨Std.le_refl x, hx.1⟩) Std.left_le_max
  rw [clamp, hmax]
  exact Std.le_antisymm Std.min_le_left (Std.le_min_iff.mpr ⟨Std.le_refl x, hx.2⟩)

end Bounds

namespace Settings

structure InBounds (s : Settings) : Prop where
  rate : 1 ≤ s.rate ∧ s.rate ≤ 1000
  timeout : 100 ≤ s.timeout ∧ s.timeout ≤ 10000
  ping : 1 ≤ s.pool.ping ∧ s.pool.ping ≤ 1000
  scan : 1 ≤ s.pool.scan ∧ s.pool.scan ≤ 500
  finger : 1 ≤ s.pool.finger ∧ s.pool.finger ≤ 500

variable {s : Settings}

theorem inBounds_clamped (s : Settings) : s.clamped.InBounds where
  rate := rateBounds.clamp_mem (by decide) s.rate
  timeout := timeoutBounds.clamp_mem (by decide) s.timeout
  ping := pingBounds.clamp_mem (by decide) s.pool.ping
  scan := scanBounds.clamp_mem (by decide) s.pool.scan
  finger := fingerBounds.clamp_mem (by decide) s.pool.finger

/-- Within bounds there is nothing to clamp. -/
theorem clamped_eq_self (h : s.InBounds) : s.clamped = s := by
  have hr : rateBounds.clamp s.rate = s.rate := rateBounds.clamp_eq_self h.rate
  have ht : timeoutBounds.clamp s.timeout = s.timeout := timeoutBounds.clamp_eq_self h.timeout
  have hp : pingBounds.clamp s.pool.ping = s.pool.ping := pingBounds.clamp_eq_self h.ping
  have hs : scanBounds.clamp s.pool.scan = s.pool.scan := scanBounds.clamp_eq_self h.scan
  have hf : fingerBounds.clamp s.pool.finger = s.pool.finger := fingerBounds.clamp_eq_self h.finger
  simp only [clamped, withRate, withTimeout, withPool, withPingPool, withScanPool, withFingerPool,
    hr, ht, hp, hs, hf]

theorem clamped_clamped (s : Settings) : s.clamped.clamped = s.clamped :=
  clamped_eq_self (inBounds_clamped s)

/-- The window that a text stands for: none if the text is blank.  There is no answer for a text
that is refused. -/
def windowOf? (spec : String) : Option (Option Window) :=
  if isBlankText spec then some none else (Window.ofString spec).toOption.map some

theorem run_setWindow (spec : String) (s : Settings) :
    (setWindow spec).run.run s =
      match s.withWindow spec with
      | .ok s' => (.ok (), s')
      | .error f => (.error f, s) := by
  unfold setWindow withWindow
  by_cases hb : isBlankText spec = true
  · simp only [if_pos hb]
    rfl
  · simp only [if_neg hb]
    cases Window.ofString spec <;> rfl

theorem withWindow_eq_ok {spec : String} {s' : Settings} :
    s.withWindow spec = .ok s' ↔ ∃ w, windowOf? spec = some w ∧ s' = { s with window := w } := by
  unfold withWindow windowOf?
  by_cases hb : isBlankText spec = true
  · simp [hb, eq_comm]
  · cases Window.ofString spec <;> simp [hb, Except.toOption, eq_comm]

end Settings

namespace Change

open Settings

-- what a call asks a field to be, if it speaks of that field

def rate? : Change → Option UInt32
  | rate n => some n
  | _ => none

def timeout? : Change → Option UInt64
  | timeout n => some n
  | _ => none

def pingPool? : Change → Option UInt64
  | pingPool n => some n
  | pool p => some p.ping
  | _ => none

def scanPool? : Change → Option UInt64
  | scanPool n => some n
  | pool p => some p.scan
  | _ => none

def fingerPool? : Change → Option UInt64
  | fingerPool n => some n
  | pool p => some p.finger
  | _ => none

def excluded? : Change → Option String
  | excluded spec => some spec
  | _ => none

-- a window that is refused is not asked for
def window? : Change → Option (Option Window)
  | window spec => windowOf? spec
  | _ => none

def ports? : Change → Option String
  | ports spec => some spec
  | _ => none

def mode? : Change → Option ScanMode
  | mode m => some m
  | _ => none

def ping? : Change → Option Bool
  | ping b => some b
  | _ => none

def name? : Change → Option String
  | name text => some text
  | _ => none

def debug? : Change → Option Bool
  | debug b => some b
  | _ => none

def last? {α : Type} (asked : Change → Option α) (cs : List Change) : Option α :=
  (cs.filterMap asked).getLast?

variable {α : Type} (asked : Change → Option α) (cs : List Change) (c : Change)

theorem last?_concat : last? asked (cs ++ [c]) = (asked c).or (last? asked cs) := by
  unfold last?
  cases h : asked c <;> simp [h]

/-- What is asked for by one call more takes the place of what was asked for before. -/
theorem elim_last?_concat {β : Type} (old : β) (f : α → β) :
    (last? asked (cs ++ [c])).elim old f = (asked c).elim ((last? asked cs).elim old f) f := by
  rw [last?_concat]
  cases asked c <;> rfl

theorem getD_last?_concat (old : α) :
    (last? asked (cs ++ [c])).getD old = (asked c).getD ((last? asked cs).getD old) := by
  rw [last?_concat]
  cases asked c <;> rfl

end Change

namespace Settings

open Change

variable {s : Settings}

/-- The settings with each field as some calls ask for it last, or else as it was.  The others have
no call that sets them. -/
def told (s : Settings) (cs : List Change) : Settings :=
  { s with
    rate := (last? rate? cs).elim s.rate rateBounds.clamp
    timeout := (last? timeout? cs).elim s.timeout timeoutBounds.clamp
    pool :=
      ⟨(last? pingPool? cs).elim s.pool.ping pingBounds.clamp,
        (last? scanPool? cs).elim s.pool.scan scanBounds.clamp,
        (last? fingerPool? cs).elim s.pool.finger fingerBounds.clamp⟩
    excluded := (last? excluded? cs).elim s.excluded fun spec =>
      String.ofList (Text.trim spec.toList)
    window := (last? window? cs).getD s.window
    ports := (last? ports? cs).getD s.ports
    mode := (last? mode? cs).getD s.mode
    ping := (last? ping? cs).getD s.ping
    name := (last? name? cs).getD s.name
    debug := (last? debug? cs).getD s.debug }

theorem inBounds_told (h : s.InBounds) (cs : List Change) : (s.told cs).InBounds where
  rate := rateBounds.elim_clamp_mem (by decide) h.rate
  timeout := timeoutBounds.elim_clamp_mem (by decide) h.timeout
  ping := pingBounds.elim_clamp_mem (by decide) h.ping
  scan := scanBounds.elim_clamp_mem (by decide) h.scan
  finger := fingerBounds.elim_clamp_mem (by decide) h.finger

/-- A refused window leaves all as it was. -/
theorem apply_window (spec : String) (s : Settings) :
    (Change.window spec).apply s = { s with window := (windowOf? spec).getD s.window } := by
  have hrun := run_setWindow spec s
  unfold withWindow at hrun
  unfold Change.apply Change.run windowOf?
  rw [hrun]
  by_cases hb : isBlankText spec = true
  · simp [hb]
  · cases Window.ofString spec <;> simp [hb, Except.toOption]

/-- One call does what it asks for. -/
theorem apply_told (h : s.InBounds) (cs : List Change) (c : Change) :
    c.apply (s.told cs) = s.told (cs ++ [c]) := by
  simp only [told, elim_last?_concat, getD_last?_concat]
  cases c
  case window spec => exact apply_window spec _
  case clamp => exact clamped_eq_self (inBounds_told h cs)
  all_goals rfl

theorem after_concat (s : Settings) (cs : List Change) (c : Change) :
    s.after (cs ++ [c]) = c.apply (s.after cs) := by
  rw [after, List.foldl_append]
  rfl

/-- Whatever calls are made, each field is as it was asked for last. -/
theorem after_eq_told (h : s.InBounds) (cs : List Change) : s.after cs = s.told cs := by
  induction cs using List.reverseRecOn with
  | nil => rfl
  | append_singleton cs c ih =>
    rw [after_concat, ih, apply_told h]

end Settings

end Recon
