import Recon.Data.Toml.Document
import Recon.Settings.Record

/-!
# Settings of the engine

What all tasks of a station share, with the settings that new tasks start from.  Settings that come
from a configuration document have their numbers clamped.
-/

namespace Recon

open Recon.Data

structure EngineSettings where
  name : String
  debug : Bool
  /-- Seconds between looks at the clock. -/
  monitorInterval : UInt64
  /-- Milliseconds that a host has to show that it is up. -/
  livenessTimeout : UInt64
  defaults : Settings
deriving DecidableEq, Repr

namespace EngineSettings

def default : EngineSettings where
  name := "radar"
  debug := false
  monitorInterval := 5
  livenessTimeout := 800
  defaults := Settings.default

instance : Inhabited EngineSettings := ⟨default⟩

def fieldNames : List String :=
  ["name", "debug", "monitor_interval_secs", "liveness_timeout_ms", "defaults"]

def ofFields (style : Convention) (fields : List (String × Value)) : Option EngineSettings := do
  let name ← field fields "name" default.name Value.text?
  let debug ← field fields "debug" default.debug Value.bool?
  let interval ← field fields "monitor_interval_secs" default.monitorInterval Value.uint64?
  let liveness ← field fields "liveness_timeout_ms" default.livenessTimeout Value.uint64?
  let defaults ← field fields "defaults" default.defaults (Settings.ofValue? style)
  return ⟨name, debug, interval, liveness, defaults⟩

def ofValue? (style : Convention) (v : Value) : Option EngineSettings :=
  (v.fields? style fieldNames).bind (ofFields style)

def toValue (e : EngineSettings) : Value :=
  .record [("name", .text e.name), ("debug", .bool e.debug),
    ("monitor_interval_secs", .nat e.monitorInterval.toNat),
    ("liveness_timeout_ms", .nat e.livenessTimeout.toNat), ("defaults", e.defaults.toValue)]

def ofJson? (text : String) : Option EngineSettings :=
  (Json.ofString? text).bind (ofValue? Json.convention)

def clamped (e : EngineSettings) : EngineSettings := { e with defaults := e.defaults.clamped }

def ofToml? (text : String) : Option EngineSettings :=
  ((Toml.ofString? text).bind (ofValue? Toml.convention)).map clamped

/-- The engine settings of the user's configuration document.  If there is none, or it cannot be
read, nothing is named. -/
def ofHome (text : Option String) : EngineSettings := (text.bind ofToml?).getD default

/-- Milliseconds between looks at the clock, at least a second. -/
def monitorMillis (e : EngineSettings) : Nat := max e.monitorInterval.toNat 1 * 1000

def newTask (e : EngineSettings) (target : String) : Settings := { e.defaults with target }

end EngineSettings

def Settings.ofToml? (text : String) : Option Settings :=
  ((Toml.ofString? text).bind (ofValue? Toml.convention)).map clamped

end Recon
