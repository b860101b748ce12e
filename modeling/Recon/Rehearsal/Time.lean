import Recon.Rehearsal.Performance

/-!
# Time of a rehearsal

Time goes on to the next moment at which something is due and stops at a given moment at the latest.
Several tasks can be rehearsed in one time.
-/

namespace Recon

namespace Rehearsal

def nextOfAll (rs : List Rehearsal) : Option Nat := (rs.filterMap nextDue?).min?

def moveAll (now : Nat) (rs : List Rehearsal) : List Rehearsal := rs.map (·.moveTo now)

def maxMoments : Nat := 10000000

def runUntil (limit : Nat) (isEnough : List Rehearsal → Bool) :
    Nat → Nat → List Rehearsal → Nat × List Rehearsal
  | 0, now, rs => (now, rs)
  | fuel + 1, now, rs =>
    if isEnough rs then (now, rs)
    else
      match nextOfAll rs with
      | some next =>
        if next ≤ limit then runUntil limit isEnough fuel next (moveAll next rs)
        else (limit, moveAll limit rs)
      | none => (limit, moveAll limit rs)

def pass (now millis : Nat) (rs : List Rehearsal) : Nat × List Rehearsal :=
  runUntil (now + millis) (fun _ => false) maxMoments now rs

def patience : Nat := 600000

def await (now : Nat) (isEnough : List Rehearsal → Bool) (rs : List Rehearsal) :
    Nat × List Rehearsal :=
  runUntil (now + patience) isEnough maxMoments now rs

end Rehearsal

inductive Cue where
  | run
  | wait
  | sleep (millis : Nat)
  | pause
  | resume
  | cancel
  | clock (now : Time.Moment)
deriving DecidableEq, Repr

inductive Response where
  | nothing
  | status (s : Status)
  | broken
  | late
  | paused
  | resumed (r : Status.Resumption)
  | failed (e : Error)
  | cancelled
deriving DecidableEq, Repr

/-- A task with its owner: calls of the run that have not been waited for, the latest first; a call
that was not the first is over at once. -/
structure Session where
  play : Rehearsal
  calls : List (Option Status)

namespace Session

def outcome? (r : Rehearsal) : Option Response :=
  match r.state.stage with
  | .returned s => some (.status s)
  | .collapsed => some .broken
  | _ => none

def passFor (r : Rehearsal) (millis : Nat) : Rehearsal :=
  (Rehearsal.pass r.now millis [r]).2.headD r

def awaitRun (r : Rehearsal) : Rehearsal :=
  (Rehearsal.await r.now (fun rs => rs.all fun r => (outcome? r).isSome) [r]).2.headD r

def pause (r : Rehearsal) : Response × Rehearsal :=
  match r.state.status.pause with
  | .ok _ => (.paused, r.act .pause)
  | .error f => (.failed f.toError, r)

def resume (r : Rehearsal) : Response × Rehearsal :=
  match r.state.status.resume (isExcludedAt r.task.settings.window r.clock) with
  | .ok (_, how) => (.resumed how, r.act (.resume r.clock))
  | .error f => (.failed f.toError, r)

def follow (s : Session) : Cue → Response × Session
  | .run =>
    -- a call that is not the first comes back with the status of the moment
    let call := if s.play.state.stage = .idle then none else some s.play.state.status
    (.nothing, ⟨s.play.act .call, call :: s.calls⟩)
  | .wait =>
    match s.calls with
    | [] => (.nothing, s)
    | some status :: calls => (.status status, { s with calls })
    | none :: calls =>
      let play := awaitRun s.play
      ((outcome? play).getD .late, ⟨play, calls⟩)
  | .sleep millis => (.nothing, { s with play := passFor s.play millis })
  | .pause =>
    let (reply, play) := pause s.play
    (reply, { s with play })
  | .resume =>
    let (reply, play) := resume s.play
    (reply, { s with play })
  | .cancel => (.cancelled, { s with play := s.play.act .cancel })
  | .clock now => (.nothing, { s with play.clock := now })

def followAll (s : Session) : List Cue → List (Response × Session)
  | [] => []
  | cue :: cues =>
    let (reply, s) := s.follow cue
    (reply, s) :: followAll s cues

end Session

end Recon
