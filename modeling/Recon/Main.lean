import Std.Time
import Recon.Command.Run
import Recon.Command.Usage
import Recon.Report.Service
import Recon.Task.Identifier

/-!
# The program

Reads what the arguments and the user's surroundings have to say, lets `Command.run` do the work
on a machine that is on no network, and prints what comes of it.
-/

namespace Recon.Command

open Recon.Time

def readDocument (path : String) : IO (Option String) := do
  try
    return some (← IO.FS.readFile path)
  catch _ =>
    return none

def momentOfSeconds (seconds : Nat) : Moment :=
  ⟨Date.epoch.advance (seconds / 86400), ⟨seconds % 86400, Nat.mod_lt _ (by decide)⟩⟩

def explain (f : UsageFault) : IO Unit := do
  match f with
  | .help => usage.forM IO.println
  | .version => return
  | f =>
    IO.eprintln f.message
    usage.forM IO.eprintln

def findStart (args : List String) : IO Start := do
  let path :=
    match Arguments.read args with
    | .ok a => a.config
    | .error _ => none
  let named ←
    match path with
    | some path => readDocument path
    | none => pure none
  let home ←
    match ← IO.getEnv "HOME" with
    | some home => readDocument (home ++ "/.radar.toml")
    | none => pure none
  let now ← Std.Time.Timestamp.now
  let high ← IO.rand 0 (UInt64.size - 1)
  let low ← IO.rand 0 (UInt64.size - 1)
  return {
    machine := .offline
    named := named
    home := home
    clock := momentOfSeconds now.toSecondsSinceUnixEpoch.val.toNat
    id := identifier (.ofNat high) (.ofNat low)
    interrupt := none
    maxDescriptors := 1048576 }

end Recon.Command

def main (args : List String) : IO UInt32 := do
  if let .error f := Recon.Command.Arguments.read args then
    Recon.Command.explain f
  let outcome := Recon.Command.run (← Recon.Command.findStart args) args
  for line in outcome.notices do
    IO.println line
  for line in outcome.warnings do
    IO.eprintln line
  for endpoint in outcome.found do
    IO.eprintln (Recon.LogLine.ofEndpoint endpoint).message
  if let some info := outcome.info then
    IO.println info.toPrettyJson
  return UInt32.ofNat outcome.code
