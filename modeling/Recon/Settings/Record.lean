import Recon.Data.Json
import Recon.Schedule.Record
import Recon.Settings.Basic

/-!
# Settings in documents

Settings are a record whose fields may all be missing.  The numbers are taken as they stand, within
the width of their field; `clamped` is a step of its own.
-/

namespace Recon

open Recon.Data

def Data.Value.uint32? (v : Value) : Option UInt32 := (v.nat? (UInt32.size - 1)).map UInt32.ofNat

def Data.Value.uint64? (v : Value) : Option UInt64 := (v.nat? (UInt64.size - 1)).map UInt64.ofNat

def ScanMode.ofValue? (style : Convention) (v : Value) : Option ScanMode :=
  (v.choice? style).bind ScanMode.ofName?

def PoolSizes.ofValue? (style : Convention) (v : Value) : Option PoolSizes := do
  let fields ← v.fields? style ["ping", "scan", "finger"]
  let ping ← required fields "ping" Value.uint64?
  let scan ← required fields "scan" Value.uint64?
  let finger ← required fields "finger" Value.uint64?
  return ⟨ping, scan, finger⟩

def PoolSizes.toValue (p : PoolSizes) : Value :=
  .record [("ping", .nat p.ping.toNat), ("scan", .nat p.scan.toNat),
    ("finger", .nat p.finger.toNat)]

namespace Settings

def fieldNames : List String :=
  ["location", "name", "target", "exclude_target", "port", "mode", "rate", "timeout", "pool",
    "ping", "httpx", "screenshot", "report", "exclude_time_range", "debug"]

def ofFields (style : Convention) (fields : List (String × Value)) : Option Settings := do
  let location ← field fields "location" default.location Value.text?
  let name ← field fields "name" default.name Value.text?
  let target ← field fields "target" default.target Value.text?
  let excluded ← field fields "exclude_target" default.excluded Value.text?
  let ports ← field fields "port" default.ports Value.text?
  let mode ← field fields "mode" default.mode (ScanMode.ofValue? style)
  let rate ← field fields "rate" default.rate Value.uint32?
  let timeout ← field fields "timeout" default.timeout Value.uint64?
  let pool ← field fields "pool" default.pool (PoolSizes.ofValue? style)
  let ping ← field fields "ping" default.ping Value.bool?
  let httpx ← field fields "httpx" default.httpx Value.bool?
  let screenshot ← field fields "screenshot" default.screenshot Value.bool?
  let report ← field fields "report" default.report Value.bool?
  let window ← field fields "exclude_time_range" default.window
    (Value.optional (Window.ofValue? style))
  let debug ← field fields "debug" default.debug Value.bool?
  return ⟨location, name, target, excluded, ports, mode, rate, timeout, pool, ping, httpx,
    screenshot, report, window, debug⟩

def ofValue? (style : Convention) (v : Value) : Option Settings :=
  (v.fields? style fieldNames).bind (ofFields style)

def toFields (s : Settings) : List (String × Value) :=
  [("location", .text s.location), ("name", .text s.name), ("target", .text s.target),
    ("exclude_target", .text s.excluded), ("port", .text s.ports), ("mode", .text s.mode.name),
    ("rate", .nat s.rate.toNat), ("timeout", .nat s.timeout.toNat), ("pool", s.pool.toValue),
    ("ping", .bool s.ping), ("httpx", .bool s.httpx), ("screenshot", .bool s.screenshot),
    ("report", .bool s.report),
    ("exclude_time_range", match s.window with | some w => w.toValue | none => .null),
    ("debug", .bool s.debug)]

def toValue (s : Settings) : Value := .record s.toFields

def ofJson? (text : String) : Option Settings :=
  (Json.ofString? text).bind (ofValue? Json.convention)

def toJson (s : Settings) : String := Json.toString s.toValue

end Settings

def Window.ofJson? (text : String) : Option Window :=
  (Json.ofString? text).bind (ofValue? Json.convention)

def Window.toJson (w : Window) : String := Json.toString w.toValue

end Recon
