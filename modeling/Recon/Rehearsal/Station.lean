import Recon.Rehearsal.Time
import Recon.Station.Slot

/-!
# Rehearsals of a station

A station with all tasks that were offered to it, in one time.  Tasks are known by their place in
the order in which they were offered.
-/

namespace Recon

structure Station where
  engine : EngineSettings
  slot : Slot Nat
  plays : List Rehearsal
  now : Nat

inductive Verdict where
  | status (s : Status)
  | late
deriving DecidableEq, Repr

/-- Someone who waits for a task: on the handle of its run, or else for its status. -/
structure Waiter where
  task : Nat
  hasHandle : Bool
deriving DecidableEq, Repr

def Waiter.verdict? (w : Waiter) (plays : List Rehearsal) : Option Status :=
  (plays[w.task]?).bind fun r =>
    if w.hasHandle then
      match r.state.stage with
      | .returned s => some s
      | .collapsed => some r.state.status
      | _ => none
    else if r.state.status.isTerminal then some r.state.status
    else none

namespace Station

def ofEngine (e : EngineSettings) : Station := ⟨e, .empty, [], 0⟩

def isOver (s : Station) (i : Nat) : Bool :=
  ((s.plays[i]?).map fun r => r.state.status.isTerminal).getD false

def looked (s : Station) : Station := { s with slot := s.slot.retire s.isOver }

def modify (s : Station) (i : Nat) (f : Rehearsal → Rehearsal) : Station :=
  { s with plays := s.plays.modify i f }

def start (s : Station) (play : Rehearsal) : Except StationFault Unit × Station :=
  let i := s.plays.length
  let s := { s.looked with plays := s.plays ++ [{ play with now := s.now }] }
  match s.slot.start s.isOver i with
  | .ok slot => (.ok (), { s with slot }.modify i (·.act .call))
  | .error f => (.error f, s)

def onActive {α : Type} (f : Rehearsal → α × Rehearsal) (s : Station) :
    Except StationFault α × Station :=
  let s := s.looked
  match s.slot.active? s.isOver with
  | .error f => (.error f, s)
  | .ok i =>
    match s.plays[i]? with
    | none => (.error .noTask, s)
    | some r =>
      let (a, r) := f r
      (.ok a, s.modify i fun _ => r)

def pause (s : Station) : Except StationFault Response × Station := s.onActive Session.pause

def resume (s : Station) : Except StationFault Response × Station := s.onActive Session.resume

def cancel (s : Station) : Except StationFault Unit × Station :=
  s.onActive fun r => ((), r.act .cancel)

def pass (s : Station) (millis : Nat) : Station :=
  let (now, plays) := Rehearsal.pass s.now millis s.plays
  { s with now, plays }

def beginWaits : Nat → Station → List (Option Waiter) × Station
  | 0, s => ([], s)
  | n + 1, s =>
    match s.slot.beginWait with
    | none =>
      let (ws, s) := beginWaits n s
      (none :: ws, s)
    | some (task, hasHandle, slot) =>
      let (ws, s) := beginWaits n { s with slot }
      (some ⟨task, hasHandle⟩ :: ws, s)

def wait (callers : Nat) (s : Station) : List (Option Verdict) × Station :=
  let (waiters, s) := s.beginWaits callers
  let isDone := fun (plays : List Rehearsal) =>
    waiters.all fun w => w.all fun w => (w.verdict? plays).isSome
  let (now, plays) := Rehearsal.await s.now isDone s.plays
  let verdict := fun (w : Waiter) =>
    match w.verdict? plays with
    | some status => Verdict.status status
    | none => Verdict.late
  -- whoever has waited too long leaves the slot as it is
  let slot := waiters.foldl (fun slot w =>
    match w with
    | some w => if (w.verdict? plays).isSome then slot.endWait w.task else slot
    | none => slot) s.slot
  (waiters.map (·.map verdict), { s with now, plays, slot })

end Station

end Recon
