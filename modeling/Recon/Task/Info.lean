import Recon.Data.Json
import Recon.Number.Double
import Recon.Settings.Record
import Recon.Task.Status
import Recon.Time.Stamp

/-!
# Snapshot of a task

What a task tells about itself at a point in time, and its form as a document.
-/

namespace Recon

open Recon.Data Recon.Time Recon.Text

structure TaskInfo where
  name : String
  id : String
  debug : Bool
  status : Status
  message : String
  started : Option Stamp
  ended : Option Stamp
  /-- Seconds that the task has taken. -/
  seconds : Float
  elapsed : String
  total : UInt64
  completed : UInt64
  found : UInt64
  progress : String
  settings : Settings

/-- Milliseconds as hours, minutes and whole seconds. -/
def formatElapsed (millis : Nat) : String :=
  let s := millis / 1000
  String.ofList (decimal (s / 3600) ++ 'h' :: zeroFill 2 (decimal (s / 60 % 60)) ++
    'm' :: zeroFill 2 (decimal (s % 60)) ++ ['s'])

/-- A share in percent with two places.  Nothing of nothing is zero. -/
def formatProgress (completed total : UInt64) : String :=
  let hundredths :=
    if total = 0 then 0 else Double.hundredths (completed.toFloat / total.toFloat * 100.0)
  String.ofList (decimal (hundredths / 100) ++ '.' :: zeroFill 2 (decimal (hundredths % 100)))

def Status.ofValue? (style : Convention) (v : Value) : Option Status :=
  (v.choice? style).bind ofName?

def Time.Stamp.ofValue? (v : Value) : Option Stamp := v.text?.bind fun s => Stamp.read s.toList

def Data.Value.double? : Value → Option Float
  | .number n => Double.ofNumeral? n
  | _ => none

namespace TaskInfo

def fieldNames : List String :=
  ["name", "id", "debug", "status", "msg", "start_time", "end_time", "timeuse_second",
    "timeuse_msg", "task_all_num", "task_success_num", "task_asset_num", "task_process", "option"]

/-- The snapshot that a record describes.  Only the two points in time may be missing. -/
def ofValue? (style : Convention) (v : Value) : Option TaskInfo := do
  let fields ← v.fields? style fieldNames
  let name ← required fields "name" Value.text?
  let id ← required fields "id" Value.text?
  let debug ← required fields "debug" Value.bool?
  let status ← required fields "status" (Status.ofValue? style)
  let message ← required fields "msg" Value.text?
  let started ← field fields "start_time" none (Value.optional Stamp.ofValue?)
  let ended ← field fields "end_time" none (Value.optional Stamp.ofValue?)
  let seconds ← required fields "timeuse_second" Value.double?
  let elapsed ← required fields "timeuse_msg" Value.text?
  let total ← required fields "task_all_num" Value.uint64?
  let completed ← required fields "task_success_num" Value.uint64?
  let found ← required fields "task_asset_num" Value.uint64?
  let progress ← required fields "task_process" Value.text?
  let settings ← required fields "option" (Settings.ofValue? style)
  return ⟨name, id, debug, status, message, started, ended, seconds, elapsed, total, completed,
    found, progress, settings⟩

def stampValue : Option Stamp → Value
  | some s => .text (String.ofList s.write)
  | none => .null

def toValue (i : TaskInfo) : Value :=
  .record [("name", .text i.name), ("id", .text i.id), ("debug", .bool i.debug),
    ("status", .text i.status.name), ("msg", .text i.message),
    ("start_time", stampValue i.started), ("end_time", stampValue i.ended),
    ("timeuse_second", .number (Double.shortest i.seconds)), ("timeuse_msg", .text i.elapsed),
    ("task_all_num", .nat i.total.toNat), ("task_success_num", .nat i.completed.toNat),
    ("task_asset_num", .nat i.found.toNat), ("task_process", .text i.progress),
    ("option", i.settings.toValue)]

def ofJson? (text : String) : Option TaskInfo :=
  (Json.ofString? text).bind (ofValue? Json.convention)

def toJson (i : TaskInfo) : String := Json.toString i.toValue

def toPrettyJson (i : TaskInfo) : String := Json.toPretty i.toValue

def sameAs (a b : TaskInfo) : Bool :=
  a.name == b.name && a.id == b.id && a.debug == b.debug && a.status == b.status &&
    a.message == b.message && a.started == b.started && a.ended == b.ended &&
    a.seconds == b.seconds && a.elapsed == b.elapsed && a.total == b.total &&
    a.completed == b.completed && a.found == b.found && a.progress == b.progress &&
    a.settings == b.settings

end TaskInfo

end Recon
