import Recon.Command.Arguments
import Recon.Rehearsal.Surroundings
import Recon.Rehearsal.Time
import Recon.Report.Service
import Recon.Task.Snapshot

/-!
# Runs of the program

What the program does with its arguments: which notices and warnings it gives, the task that it
runs, the snapshot with which it ends, and its exit code.
-/

namespace Recon.Command

open Time

structure Start where
  machine : Machine
  named : Option String
  home : Option String
  clock : Moment
  id : String
  /-- Milliseconds after which the user interrupts the task. -/
  interrupt : Option Nat
  maxDescriptors : Nat

structure Outcome where
  code : Nat
  notices : List String
  warnings : List String
  info : Option TaskInfo
  found : List Endpoint

def Outcome.empty : Outcome := ⟨0, [], [], none, []⟩

def Outcome.notice (o : Outcome) (line : String) : Outcome :=
  { o with notices := o.notices ++ ["[~] " ++ line] }

def Outcome.warn (o : Outcome) (line : String) : Outcome :=
  { o with warnings := o.warnings ++ ["[!] " ++ line] }

def Outcome.fail (o : Outcome) (line : String) : Outcome :=
  { o.warn ("ERROR: " ++ line) with code := 1 }

def patience : Nat := 100000000

def isOver (r : Rehearsal) : Bool := r.state.stage.isOver

def passUntilOver (r : Rehearsal) (millis : Nat) : Rehearsal :=
  (Rehearsal.runUntil (r.now + millis) (fun rs => rs.all isOver) Rehearsal.maxMoments r.now
    [r]).2.headD r

def raiseLimit (s : Start) (limit : Option UInt64) (o : Outcome) : Outcome :=
  match limit with
  | none => o
  | some n =>
    if n.toNat ≤ s.maxDescriptors then
      o.notice ("Automatically increasing ulimit value to " ++ String.ofList (Text.decimal n.toNat))
    else o.warn "ERROR: Failed to set ulimit value."

def runTask (s : Start) (e : EngineSettings) (settings : Settings) (o : Outcome) : Outcome :=
  let task := Task.make e s.id settings
  let script := Script.ofMachine s.machine (.composite s.machine) settings.mode
  let r := (Rehearsal.make task script 0 s.clock).act .call
  let (r, o) :=
    match s.interrupt with
    | none => (r, o)
    | some millis =>
      let r := passUntilOver r millis
      -- an interrupt after the end goes unnoticed
      if isOver r then (r, o)
      else (r.act .cancel, o.warn "Interrupted, waiting for in-flight probes...")
  -- a cancelled run has still to come through
  let r := passUntilOver r patience
  { o with
    code := if r.state.status = .error then 1 else 0
    info := some (r.state.info task ⟨s.clock.date, s.clock.second, 0⟩ r.now)
    found := r.record.received.reverse }

def run (s : Start) (args : List String) : Outcome :=
  match Arguments.read args with
  | .error .help | .error .version => .empty
  | .error _ => { Outcome.empty with code := 2 }
  | .ok a =>
    let o := raiseLimit s a.ulimit .empty
    match a.engine? s.named s.home with
    | none =>
      let reason := if s.named.isNone then ": IO error: " ++ (SystemFault.mk 2).message else ""
      o.fail ("cannot load config " ++ a.config.getD "" ++ reason)
    | some e =>
      match a.settings e with
      | .error f => o.fail f.message
      | .ok settings =>
        let o :=
          if settings.mode.needsRawSocket && !s.machine.isPrivileged then
            o.warn "WARNING: SYN scan needs root, the task will fail. Use --mode connect."
          else o
        runTask s e settings
          (o.notice ("Scanning " ++ settings.target ++ " ports " ++ settings.ports))

end Recon.Command
