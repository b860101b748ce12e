import Recon.Rate.Limiter
import Recon.Rehearsal.Record
import Recon.Rehearsal.Script
import Recon.Task.Step

/-!
# Rehearsals of a task

A rehearsal runs a task against a script in a time of its own: whatever can happen without time
passing happens first, and then time goes on to the next moment at which something is due.  Every
change of the task is one of its steps; a rehearsal only chooses the next one.  A scanner reports a
probe before the worker that gave it goes on.
-/

namespace Recon

open Time

structure JobNote where
  serial : Nat
  due : Nat
  held : Bool
deriving Repr

structure Rehearsal where
  task : Task
  script : Script
  state : TaskState
  /-- Milliseconds since the start. -/
  now : Nat
  clock : Moment
  nextLook : Nat
  random : KeyStream.State
  limiter : Option Limiter
  asks : List JobNote
  scans : List JobNote
  handovers : List JobNote
  reporters : List Nat
  record : Record

namespace Rehearsal

def make (task : Task) (script : Script) (now : Nat) (clock : Moment) : Rehearsal where
  task := task
  script := script
  state := .initial task
  now := now
  clock := clock
  nextLook := 0
  random := KeyStream.ofSeed 1
  limiter := none
  asks := []
  scans := []
  handovers := []
  reporters := []
  record := .empty

/-- Notes on the jobs of a pool after a step: that of a job which has ended is dropped, and a job
which has begun gets one. -/
def renew {α : Type} (now i : Nat) (notes : List JobNote) (before after : Pool α) : List JobNote :=
  let kept := if before.completed < after.completed then notes.eraseIdx i else notes
  if kept.length < after.jobs.length then kept ++ [⟨after.submitted, now, false⟩] else kept

def place : Action → Nat
  | .ask i _ | .scan i _ | .handover i _ => i
  | _ => 0

def perform (r : Rehearsal) (a : Action) : Rehearsal :=
  match TaskState.step r.task r.state a with
  | none => r
  | some (s, events) =>
    { r with
      state := s
      record := events.foldl Record.note r.record
      asks := renew r.now (place a) r.asks r.state.asks s.asks
      scans := renew r.now (place a) r.scans r.state.scans s.scans
      handovers := renew r.now (place a) r.handovers r.state.handovers s.handovers }

def setDue (notes : List JobNote) (i due : Nat) : List JobNote :=
  notes.modify i fun n => { n with due }

def setHeld (notes : List JobNote) (serial : Nat) (held : Bool) : List JobNote :=
  notes.map fun n => if n.serial = serial then { n with held } else n

def draw (r : Rehearsal) (size : Nat) : Traversal × Rehearsal :=
  let (t, random) := Traversal.draw KeyStream.draws size r.random
  (t, { r with random })

def nextOfRun (r : Rehearsal) : Option Rehearsal :=
  match r.state.stage with
  | .idle | .returned _ | .collapsed => none
  | .planning =>
    -- an order is drawn for the tail alone
    let size :=
      match PortOrder.ofString r.task.settings.ports with
      | .ok order => order.tail.length
      | .error _ => 0
    let (t, r) := r.draw size
    some (r.perform (.plan t))
  | .opening =>
    let rate := r.task.settings.rate.toNat
    let limiter := if r.script.isLimited then some (Limiter.ofRate rate r.now) else none
    some ({ r with limiter }.perform
      (.open (r.script.refusal r.task.settings.mode r.task.settings.scannerOption)))
  | .scheduling => some ({ r with nextLook := r.now }.perform (.schedule r.clock))
  | .entering (b :: _) =>
    let (t, r) := r.draw b.size
    some (r.perform (.enter t))
  | .publishing _ => some (r.perform (if r.script.endBreaks then .collapse else .run))
  | _ => (TaskState.advance r.task r.state).map fun _ => r.perform .run

def nextOfClock (r : Rehearsal) : Option Rehearsal :=
  if r.state.monitored && r.nextLook ≤ r.now then
    some { r.perform (.tick r.clock) with nextLook := r.now + r.task.interval }
  else none

def nextOfLines (r : Rehearsal) : Option Rehearsal :=
  if (TaskState.admitAsk r.state).isSome then some (r.perform .admitAsk)
  else if (TaskState.admitScan r.task r.state).isSome then some (r.perform .admitScan)
  else if (TaskState.admitHandover r.state).isSome then
    let r := r.perform .admitHandover
    some { r with
      scans := setHeld r.scans (r.reporters.headD 0) false
      reporters := r.reporters.drop 1 }
  else none

def askAction? (r : Rehearsal) (job : AskJob) (note : JobNote) : Option AskAction :=
  match job.phase with
  | .gate =>
    if !r.state.status.isPaused then some .pass
    else if r.state.cancelled then some .skip
    else none
  | .ready => some .ask
  | .asked =>
    if note.due ≤ r.now then
      match r.script.host job.host with
      | .up => some (.answer true)
      | .down => some (.answer false)
      | .breaks => some .panic
    else none
  | .up => some .submit
  -- in line it is the pool that acts
  | .inLine => none
  | .handedOn => some .leave

def firstOf {α β : Type} (action? : α → JobNote → Option β) (i : Nat) :
    List α → List JobNote → Option (Nat × α × β)
  | job :: jobs, note :: notes =>
    match action? job note with
    | some a => some (i, job, a)
    | none => firstOf action? (i + 1) jobs notes
  | _, _ => none

def nextOfAsks (r : Rehearsal) : Option Rehearsal :=
  (firstOf r.askAction? 0 r.state.asks.jobs r.asks).map fun (i, _, a) =>
    let r := r.perform (.ask i a)
    match a with
    | .ask => { r with asks := setDue r.asks i (r.now + r.script.hostDelay) }
    | _ => r

def scanAction? (r : Rehearsal) (job : ScanJob) (note : JobNote) : Option ScanAction :=
  if note.held then none
  else
    match job.phase with
    | .gate =>
      if !r.state.status.isPaused then some .pass
      else if r.state.cancelled then some .skip
      else none
    | .probing [] _ => some .leave
    | .probing (_ :: _) false => some .await
    | .probing (p :: _) true =>
      if note.due ≤ r.now then some (.probe (r.script.fate ⟨job.host, p⟩ != .refused)) else none

def settleProbe (r : Rehearsal) (i : Nat) (endpoint : Endpoint) : Rehearsal :=
  match r.script.fate endpoint with
  | .refused => r
  | .lost => r.perform (.lose endpoint)
  | .closed => r.perform (.report endpoint false)
  | .isOpen =>
    -- a worker whose report is in line goes on once that report is taken
    let waiting := r.state.handovers.waiting.length
    let r := r.perform (.report endpoint true)
    if waiting < r.state.handovers.waiting.length then
      let serial := (r.scans[i]?.map JobNote.serial).getD 0
      { r with scans := setHeld r.scans serial true, reporters := r.reporters ++ [serial] }
    else r

def leave (r : Rehearsal) : Nat × Rehearsal :=
  match r.limiter with
  | none => (r.now + r.script.rateDelay, r)
  | some l =>
    let (due, l) := { l with now := r.now }.reserve
    (due, { r with limiter := some l })

def nextOfScans (r : Rehearsal) : Option Rehearsal :=
  (firstOf r.scanAction? 0 r.state.scans.jobs r.scans).map fun (i, job, a) =>
    let after := r.perform (.scan i a)
    match a, job.phase with
    | .await, _ =>
      let (due, after) := after.leave
      { after with scans := setDue after.scans i due }
    | .probe _, .probing (p :: _) _ => after.settleProbe i ⟨job.host, p⟩
    | _, _ => after

def handoverAction? (r : Rehearsal) (job : HandoverJob) (note : JobNote) :
    Option HandoverAction :=
  if !job.called then some .call
  else if note.due ≤ r.now then some (.leave (r.script.receiverBreaks job.endpoint))
  else none

def nextOfHandovers (r : Rehearsal) : Option Rehearsal :=
  (firstOf r.handoverAction? 0 r.state.handovers.jobs r.handovers).map fun (i, job, a) =>
    let after := r.perform (.handover i a)
    match a with
    | .call => { after with handovers := setDue after.handovers i (r.now + r.script.receiverDelay) }
    | .leave false =>
      { after with record := after.record.take job.endpoint }
    | .leave true => after

def next (r : Rehearsal) : Option Rehearsal :=
  r.nextOfClock <|> r.nextOfRun <|> r.nextOfLines <|> r.nextOfAsks <|> r.nextOfScans <|>
    r.nextOfHandovers

def maxActions : Nat := 1000000000

def settleWithin : Nat → Rehearsal → Rehearsal
  | 0, r => r
  | fuel + 1, r =>
    match r.next with
    | some r => settleWithin fuel r
    | none => r

def settle (r : Rehearsal) : Rehearsal := settleWithin maxActions r

def dues (r : Rehearsal) : List Nat :=
  let asked := (r.state.asks.jobs.zip r.asks).filterMap fun (job, note) =>
    if job.phase = .asked then some note.due else none
  let awaiting := (r.state.scans.jobs.zip r.scans).filterMap fun (job, note) =>
    match job.phase with
    | .probing (_ :: _) true => some note.due
    | _ => none
  let called := (r.state.handovers.jobs.zip r.handovers).filterMap fun (job, note) =>
    if job.called then some note.due else none
  let looks := if r.state.monitored then [r.nextLook] else []
  asked ++ awaiting ++ called ++ looks

def nextDue? (r : Rehearsal) : Option Nat := (r.dues.filter (r.now < ·)).min?

def moveTo (r : Rehearsal) (now : Nat) : Rehearsal := ({ r with now } : Rehearsal).settle

def act (r : Rehearsal) (a : Action) : Rehearsal := (r.perform a).settle

end Rehearsal

end Recon
