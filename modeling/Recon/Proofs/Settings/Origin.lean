import Recon.Command.Arguments
import Recon.Proofs.Settings.Clamp
import Recon.Proofs.Task.Setup

/-!
# Where settings come from

Settings are the default ones, or are read from a document, or are made from those of a
configuration or from the arguments of the command line.  On each of these ways all numbers end up
within their bounds, and they stay there whatever calls are made.  Settings of any other origin are
brought into bounds by the task that is made of them.
-/

namespace Recon

open Command

inductive EngineSettings.Loaded : EngineSettings → Prop
  | default : Loaded .default
  | document {text : String} {e : EngineSettings} (h : ofToml? text = some e) : Loaded e
  | home (text : Option String) : Loaded (ofHome text)

inductive Settings.Made : Settings → Prop
  | default : Made .default
  | ofTarget (target : String) : Made (.ofTarget target)
  | document {text : String} {s : Settings} (h : Settings.ofToml? text = some s) : Made s
  | template {e : EngineSettings} (h : e.Loaded) : Made e.defaults
  | newTask {e : EngineSettings} (h : e.Loaded) (target : String) : Made (e.newTask target)
  | arguments {a : Arguments} {named home : Option String} {e : EngineSettings} {s : Settings}
      (he : a.engine? named home = some e) (hs : a.settings e = .ok s) : Made s

/-- Settings with those fields replaced that the arguments name.  A switch can only be put on. -/
def Command.Arguments.imposedOn (a : Arguments) (s : Settings) : Settings :=
  { s with
    target := a.target
    excluded := a.exclude.elim s.excluded fun spec => String.ofList (Text.trim spec.toList)
    ports := a.ports.getD s.ports
    mode := a.mode.getD s.mode
    rate := a.rate.elim s.rate Settings.rateBounds.clamp
    timeout := a.timeout.elim s.timeout Settings.timeoutBounds.clamp
    pool :=
      ⟨a.poolPing.elim s.pool.ping Settings.pingBounds.clamp,
        a.poolScan.elim s.pool.scan Settings.scanBounds.clamp,
        a.poolFinger.elim s.pool.finger Settings.fingerBounds.clamp⟩
    ping := s.ping || a.ping
    window := (a.excludeTime.bind Settings.windowOf?).getD s.window
    debug := s.debug || a.debug }

namespace Command.Arguments

variable {a : Arguments} {e : EngineSettings} {s : Settings}

theorem amend_eq (a : Arguments) (s : Settings) :
    a.amend { s with target := a.target } = { a.imposedOn s with window := s.window } := by
  -- each argument sets its own field, and the fields are independent
  have hexclude (s : Settings) : apply Settings.withExcluded a.exclude s =
      { s with excluded := a.exclude.elim s.excluded fun spec =>
        String.ofList (Text.trim spec.toList) } := by
    cases a.exclude <;> rfl
  have hports (s : Settings) : apply (fun s x => { s with ports := x }) a.ports s =
      { s with ports := a.ports.getD s.ports } := by
    cases a.ports <;> rfl
  have hmode (s : Settings) : apply (fun s x => { s with mode := x }) a.mode s =
      { s with mode := a.mode.getD s.mode } := by
    cases a.mode <;> rfl
  have hrate (s : Settings) : apply Settings.withRate a.rate s =
      { s with rate := a.rate.elim s.rate Settings.rateBounds.clamp } := by
    cases a.rate <;> rfl
  have htimeout (s : Settings) : apply Settings.withTimeout a.timeout s =
      { s with timeout := a.timeout.elim s.timeout Settings.timeoutBounds.clamp } := by
    cases a.timeout <;> rfl
  have hping (s : Settings) : apply Settings.withPingPool a.poolPing s =
      { s with pool.ping := a.poolPing.elim s.pool.ping Settings.pingBounds.clamp } := by
    cases a.poolPing <;> rfl
  have hscan (s : Settings) : apply Settings.withScanPool a.poolScan s =
      { s with pool.scan := a.poolScan.elim s.pool.scan Settings.scanBounds.clamp } := by
    cases a.poolScan <;> rfl
  have hfinger (s : Settings) : apply Settings.withFingerPool a.poolFinger s =
      { s with pool.finger := a.poolFinger.elim s.pool.finger Settings.fingerBounds.clamp } := by
    cases a.poolFinger <;> rfl
  simp only [amend, hexclude, hports, hmode, hrate, htimeout, hping, hscan, hfinger, imposedOn]

/-- What the arguments ask for has those fields of the configuration that they do not name. -/
theorem settings_eq_imposedOn (h : a.settings e = .ok s) : s = a.imposedOn e.defaults := by
  have hchecked (s' : Settings)
      (h' : (s'.validate.mapError Settings.Fault.toError).map (fun _ => s') = .ok s) : s = s' := by
    cases hv : s'.validate <;> rw [hv] at h' <;> cases h'
    rfl
  unfold settings EngineSettings.newTask at h
  rw [amend_eq] at h
  cases hspec : a.excludeTime with
  | none =>
    simp only [hspec] at h
    simpa [imposedOn, hspec] using hchecked _ h
  | some spec =>
    simp only [hspec] at h
    cases hw : { a.imposedOn e.defaults with window := e.defaults.window }.withWindow spec
    case error f =>
      rw [hw] at h
      cases h
    case ok s' =>
      rw [hw] at h
      obtain ⟨w, hspec', rfl⟩ := Settings.withWindow_eq_ok.mp hw
      simpa [imposedOn, hspec, hspec'] using hchecked _ h

theorem inBounds_imposedOn (a : Arguments) (h : s.InBounds) : (a.imposedOn s).InBounds where
  rate := Settings.rateBounds.elim_clamp_mem (by decide) h.rate
  timeout := Settings.timeoutBounds.elim_clamp_mem (by decide) h.timeout
  ping := Settings.pingBounds.elim_clamp_mem (by decide) h.ping
  scan := Settings.scanBounds.elim_clamp_mem (by decide) h.scan
  finger := Settings.fingerBounds.elim_clamp_mem (by decide) h.finger

end Command.Arguments

theorem Settings.inBounds_default : Settings.default.InBounds where
  rate := by decide
  timeout := by decide
  ping := by decide
  scan := by decide
  finger := by decide

theorem EngineSettings.inBounds_of_toml {text : String} {e : EngineSettings}
    (h : ofToml? text = some e) : e.defaults.InBounds := by
  obtain ⟨e', _, rfl⟩ := Option.map_eq_some_iff.mp h
  exact Settings.inBounds_clamped e'.defaults

theorem EngineSettings.inBounds_ofHome (text : Option String) :
    (ofHome text).defaults.InBounds := by
  unfold ofHome
  cases h : text.bind ofToml? with
  | none => exact Settings.inBounds_default
  | some e =>
    obtain ⟨_, _, he⟩ := Option.bind_eq_some_iff.mp h
    exact inBounds_of_toml he

/-- A configuration that is loaded has a template within bounds. -/
theorem EngineSettings.Loaded.inBounds {e : EngineSettings} (h : e.Loaded) :
    e.defaults.InBounds := by
  cases h with
  | default => exact Settings.inBounds_default
  | document h => exact inBounds_of_toml h
  | home text => exact inBounds_ofHome text

theorem Command.Arguments.inBounds_of_engine {a : Arguments} {named home : Option String}
    {e : EngineSettings} (h : a.engine? named home = some e) : e.defaults.InBounds := by
  obtain ⟨e', he, rfl⟩ := Option.map_eq_some_iff.mp h
  cases hc : a.config with
  | none =>
    simp only [hc, Option.some.injEq] at he
    exact he ▸ EngineSettings.inBounds_ofHome home
  | some path =>
    simp only [hc] at he
    obtain ⟨_, _, he⟩ := Option.bind_eq_some_iff.mp he
    have hd : e'.defaults.InBounds := EngineSettings.inBounds_of_toml he
    exact hd

/-- Settings are made within bounds. -/
theorem Settings.Made.inBounds {s : Settings} (h : s.Made) : s.InBounds := by
  cases h with
  | default => exact inBounds_default
  | ofTarget target => exact { inBounds_default with }
  | document h =>
    obtain ⟨s', _, rfl⟩ := Option.map_eq_some_iff.mp h
    exact inBounds_clamped s'
  | template h => exact h.inBounds
  | newTask h target => exact { h.inBounds with }
  | arguments he hs =>
    rw [Arguments.settings_eq_imposedOn hs]
    exact Arguments.inBounds_imposedOn _ (Arguments.inBounds_of_engine he)

theorem Settings.target_clamped (s : Settings) : s.clamped.target = s.target := by
  simp only [clamped, withRate, withTimeout, withPool, withPingPool, withScanPool, withFingerPool]

/-- A task has settings that only a blank target makes useless. -/
theorem Task.invalid_iff_blank (e : EngineSettings) (id : String) (s : Settings) :
    (∃ f, (Task.make e id s).settings.validate = .error f) ↔
      Settings.isBlankText s.target = true := by
  have hmake : (Task.make e id s).settings = s.clamped := rfl
  rw [hmake, Settings.validate_of_sound s.sound_clamped, Settings.target_clamped]
  split <;> simp_all

/-- Settings that are made in any way are within bounds, and stay there whatever calls are made;
these leave each field as it was asked for last, and all others as they were.  Clamping twice is
clamping once, and does nothing to settings within bounds.  A refused window leaves the settings as
they stand.  A task always has settings within bounds, and only a blank target makes them useless.
A new task takes over the numbers of its template, and what the arguments ask for differs from the
template in the fields that they name. -/
theorem Settings.bounded_throughout :
    (∀ s : Settings, s.Made → s.InBounds) ∧
    (∀ (s : Settings) (cs : List Change), s.InBounds →
      (s.after cs).InBounds ∧ s.after cs = s.told cs) ∧
    (∀ s : Settings, s.clamped.clamped = s.clamped) ∧
    (∀ s : Settings, s.InBounds → s.clamped = s) ∧
    (∀ (spec : String) (s s' : Settings) (f : WindowFault),
      (setWindow spec).run.run s = (.error f, s') → s' = s) ∧
    (∀ (e : EngineSettings) (id : String) (s : Settings),
      (Task.make e id s).settings.InBounds ∧
      ((∃ f, (Task.make e id s).settings.validate = .error f) ↔ isBlankText s.target = true)) ∧
    (∀ (e : EngineSettings) (target : String),
      (e.newTask target).InBounds ↔ e.defaults.InBounds) ∧
    ∀ (a : Arguments) (e : EngineSettings) (s : Settings),
      a.settings e = .ok s → s = a.imposedOn e.defaults := by
  refine ⟨fun s h => h.inBounds, ?_, clamped_clamped, fun s h => clamped_eq_self h, ?_, ?_, ?_,
    fun a e s h => Arguments.settings_eq_imposedOn h⟩
  · intro s cs h
    have hafter := after_eq_told h cs
    exact ⟨hafter ▸ inBounds_told h cs, hafter⟩
  · intro spec s s' f h
    rw [run_setWindow] at h
    cases hw : s.withWindow spec <;> rw [hw] at h <;> cases h
    rfl
  · intro e id s
    exact ⟨inBounds_clamped s, Task.invalid_iff_blank e id s⟩
  · intro e target
    exact ⟨fun h => { h with }, fun h => { h with }⟩

namespace Sample

def document : String := "target = \"10.0.0.1\"\nrate = 9000\ntimeout = 20\n"

def calls : List Change :=
  [.rate 7, .pool ⟨0, 600, 40⟩, .rate 0, .window "sometimes,09:00,18:00", .clamp]

/-- The numbers of the document are clamped, and those of the calls after that. -/
theorem bounded_throughout_of_document : ∃ s, Settings.ofToml? document = some s ∧ s.InBounds ∧
    s.rate = 1000 ∧ s.timeout = 100 ∧ (s.after calls).InBounds ∧ (s.after calls).rate = 1 ∧
    (s.after calls).timeout = 100 ∧ (s.after calls).pool = ⟨1, 500, 40⟩ ∧
    (s.after calls).window = none := by
  obtain ⟨hmade, hafter, _⟩ := Settings.bounded_throughout
  have hread : Settings.ofToml? document =
      some { Settings.default with target := "10.0.0.1", rate := 1000, timeout := 100 } := by
    decide +kernel
  have hin := hmade _ (.document hread)
  obtain ⟨hcalls, htold⟩ := hafter _ calls hin
  refine ⟨_, hread, hin, rfl, rfl, hcalls, ?_⟩
  rw [htold]
  exact ⟨by decide, by decide, by decide, by decide⟩

end Sample

end Recon
