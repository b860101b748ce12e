import Recon.Task.State
import Recon.Time.Clock

/-!
# Steps of a task

Everything that can happen to a task, one indivisible action at a time.  The run, each job of a
pool, the scanner, the schedule and the owner act in any order; an action that is not possible in
a state has no step.  What is not decided by the task itself, such as the answer of a host, the
fate of a probe, the time or the orders that are drawn, is part of the action.

A worker at a gate goes on if the task does not rest, even if it is cancelled; if it rests and is
cancelled, the host is accounted for without being asked or probed.
-/

namespace Recon

open Time

inductive AskAction where
  | pass
  | skip
  | ask
  | answer (up : Bool)
  | submit
  | leave
  | panic
deriving DecidableEq, Repr

inductive ScanAction where
  | pass
  | skip
  | await
  | probe (taken : Bool)
  | leave
  | panic
deriving DecidableEq, Repr

inductive HandoverAction where
  | call
  | leave (panicked : Bool)
deriving DecidableEq, Repr

inductive Action where
  /-- The owner asks for the run, of which there is only one. -/
  | call
  | run
  /-- The plan is made; a traversal gives the order of the tail of the ports. -/
  | plan (tail : Traversal)
  | open (failure : Option Error)
  | schedule (now : Moment)
  | enter (order : Traversal)
  /-- The receiver breaks off when told of the failure or of the end. -/
  | collapse
  | ask (i : Nat) (a : AskAction)
  | scan (i : Nat) (a : ScanAction)
  | handover (i : Nat) (a : HandoverAction)
  | admitAsk
  | admitScan
  | admitHandover
  | report (endpoint : Endpoint) (isOpen : Bool)
  | lose (endpoint : Endpoint)
  /-- The scanner reports something that was not asked for. -/
  | stray (outcome : Option Endpoint)
  | pause
  | resume (now : Moment)
  | tick (now : Moment)
  | cancel
deriving DecidableEq, Repr

namespace TaskState

/-- The state after an action and what others notice of it. -/
abbrev Outcome := TaskState × List Event

def goto (s : TaskState) (stage : Stage) : TaskState := { s with stage }

def finish (s : TaskState) (outcome : Status) : TaskState :=
  { s with stage := .ending outcome, ended := true }

def fail (s : TaskState) (e : Error) : TaskState :=
  { s with stage := .failing e, message := e.message }

def makePlan (t : Task) (tail : Traversal) (s : TaskState) : Option Outcome :=
  match Plan.parts t.settings with
  | .error e => some (s.fail e, [])
  | .ok (ports, targets, excluded) =>
    -- a tail of fewer than two ports has one order only, whatever is drawn
    if ports.tail.length < 2 ∨ tail.covers ports.tail.length then
      let plan : Plan := ⟨ports.along tail, targets.blocks, excluded⟩
      some ({ s with stage := .opening, plan, total := plan.total }, [])
    else none

def submitHost (t : Task) (s : TaskState) (host : Address) : Pool.Answer × TaskState :=
  if t.settings.ping then
    let (answer, asks) := s.asks.submit ⟨host, .gate⟩
    (answer, { s with asks })
  else
    let (answer, scans) := s.scans.submit ⟨host, .gate⟩
    (answer, { s with scans })

def withdrawHost (t : Task) (s : TaskState) : TaskState :=
  if t.settings.ping then { s with asks := s.asks.withdraw 0 }
  else { s with scans := s.scans.withdraw 0 }

def advance (t : Task) (s : TaskState) : Option Outcome :=
  match s.stage with
  | .launching =>
    some ({ s with
      stage := .scheduling
      status := if s.status = .init then .running else s.status }, [])
  | .entering [] => some (s.goto .drainingAsks, [])
  | .checking w =>
    if w.block.size ≤ w.index then some (s.goto (.entering w.rest), [])
    else if s.cancelled then some (s.goto .drainingAsks, [])
    else some (s.goto (.gating w), [])
  | .gating w =>
    -- the end of a rest counts before a cancellation
    if !s.status.isPaused then some (s.goto (.visiting w), [])
    else if s.cancelled then some (s.goto .drainingAsks, [])
    else none
  | .visiting w =>
    match w.block.nth (w.order.get w.index) with
    | none => some (s.goto (.checking (w.next)), [])
    | some host =>
      if s.plan.excluded.excludes host then
        some (s.completeHost.goto (.checking (w.next)), [])
      else some (s.goto (.offering w host), [])
  | .offering w host =>
    if s.cancelled then some (s.goto .drainingAsks, [])
    else
      match submitHost t s host with
      | (.accepted, s) => some (s.goto (.checking (w.next)), [])
      | (.queued, s) => some (s.goto (.inLine w host), [])
      | (.refused, s) => some (s.goto .drainingAsks, [])
  | .inLine _ _ =>
    -- a host in line is not handed on yet, so it is not accounted for
    if s.cancelled then some ((withdrawHost t s).goto .drainingAsks, []) else none
  | .drainingAsks => if s.asks.isIdle then some (s.goto .drainingScans, []) else none
  | .drainingScans => if s.scans.isIdle then some (s.goto .drainingScanner, []) else none
  | .drainingScanner =>
    -- a report in line for its hand-over is one that the scanner still waits for
    if s.flying.isEmpty && s.handovers.waiting.isEmpty then
      some (s.goto .drainingHandovers, [.drained])
    else none
  | .drainingHandovers => if s.handovers.isIdle then some (s.goto .releasing, []) else none
  | .releasing => some (s.goto .closing, [.released])
  | .closing =>
    some ({ s with
      stage := .stopping
      asks := s.asks.close
      scans := s.scans.close
      handovers := s.handovers.close }, [])
  | .stopping => some ({ s with monitored := false }.finish .success, [])
  | .failing e => some (s.finish .error, [.failed e])
  | .ending outcome => some (s.goto (.publishing outcome), [.ended s.status])
  | .publishing outcome => some ({ s with status := outcome, stage := .returned outcome }, [])
  | .idle | .planning | .opening | .scheduling | .entering _ | .returned _ | .collapsed => none

def stepAsk (s : TaskState) (i : Nat) (a : AskAction) : Option Outcome :=
  match s.asks.jobs[i]? with
  | none => none
  | some job =>
    let move := fun phase => some ({ s with asks := s.asks.update i { job with phase } }, [])
    let ended := fun (panicked : Bool) => { s with asks := s.asks.finish i panicked }
    match job.phase, a with
    | .gate, .pass => if s.status.isPaused then none else move .ready
    | .gate, .skip =>
      if s.status.isPaused && s.cancelled then some ((ended false).completeHost, []) else none
    | .ready, .ask =>
      some ({ s with asks := s.asks.update i { job with phase := .asked } }, [.asked job.host])
    | .asked, .answer true => move .up
    | .asked, .answer false => some ((ended false).completeHost, [])
    -- no answer comes, and the pairs of the host stay open
    | .asked, .panic => some (ended true, [])
    | .up, .submit =>
      match s.scans.submit ⟨job.host, .gate⟩ with
      | (.accepted, scans) =>
        some ({ s with scans, asks := s.asks.update i { job with phase := .handedOn } }, [])
      | (.queued, scans) =>
        some ({ s with scans, asks := s.asks.update i { job with phase := .inLine } }, [])
      | (.refused, _) => some ((ended false).completeHost, [])
    | .handedOn, .leave => some (ended false, [])
    | _, _ => none

def stepScan (s : TaskState) (i : Nat) (a : ScanAction) : Option Outcome :=
  match s.scans.jobs[i]? with
  | none => none
  | some job =>
    let scans := fun phase => s.scans.update i { job with phase }
    let ended := fun (panicked : Bool) => { s with scans := s.scans.finish i panicked }
    match job.phase, a with
    | .gate, .pass =>
      if s.status.isPaused then none
      else some ({ s with scans := scans (.probing s.plan.ports false) }, [])
    | .gate, .skip =>
      if s.status.isPaused && s.cancelled then some ((ended false).completeHost, []) else none
    | .probing (p :: rest) false, .await =>
      some ({ s with scans := scans (.probing (p :: rest) true) }, [.awaited])
    | .probing (p :: rest) true, .probe taken =>
      let endpoint : Endpoint := ⟨job.host, p⟩
      let s := { s with scans := scans (.probing rest false) }
      -- no report comes for a probe that is refused
      let s := if taken then { s with flying := s.flying ++ [endpoint] } else s.complete 1
      some (s, [.probed endpoint])
    | .probing [] false, .leave => some (ended false, [])
    | .probing _ _, .panic => some (ended true, [])
    | _, _ => none

def stepHandover (s : TaskState) (i : Nat) (a : HandoverAction) : Option Outcome :=
  match s.handovers.jobs[i]? with
  | none => none
  | some job =>
    match job.called, a with
    | false, .call =>
      some ({ s with handovers := s.handovers.update i { job with called := true } },
        [.called job.endpoint])
    | true, .leave panicked => some ({ s with handovers := s.handovers.finish i panicked }, [])
    | _, _ => none

/-- The host that has been admitted to a pool is handed on by whoever had it in line: the job that
asked it, or else the run. -/
def handOn (s : TaskState) (host : Address) : TaskState :=
  match s.asks.jobs.findIdx? fun job => job.host == host && job.phase == .inLine with
  | some i => { s with asks := s.asks.update i ⟨host, .handedOn⟩ }
  | none =>
    match s.stage with
    | .inLine w _ => s.goto (.checking (w.next))
    | _ => s

def admitAsk (s : TaskState) : Option Outcome :=
  match s.stage, s.asks.admit? with
  | .inLine w _, some (_, asks) =>
    if s.cancelled then none
    else some ({ s with asks, stage := .checking (w.next) }, [])
  | _, _ => none

def admitScan (t : Task) (s : TaskState) : Option Outcome :=
  match s.scans.admit? with
  | some (job, scans) =>
    if !t.settings.ping && s.cancelled then none
    else some (handOn { s with scans } job.host, [])
  | none => none

def admitHandover (s : TaskState) : Option Outcome :=
  s.handovers.admit?.map fun (_, handovers) => ({ s with handovers }, [])

/-- Takes a report: a pair more is accounted for, and an open endpoint is submitted for its
hand-over. -/
def receive (s : TaskState) (outcome : Option Endpoint) : TaskState :=
  let s := s.complete 1
  match outcome with
  | none => s
  | some endpoint =>
    { s with found := s.found + 1, handovers := (s.handovers.submit ⟨endpoint, false⟩).2 }

/-- Whether the scanner may still report: it has been opened and has not been waited for. -/
def scannerIsLive : Stage → Bool
  | .launching | .scheduling | .entering _ | .checking _ | .gating _ | .visiting _
  | .offering _ _ | .inLine _ _ | .drainingAsks | .drainingScans | .drainingScanner => true
  | _ => false

/-- The state after an action and what others notice of it, if the action is possible. -/
def step (t : Task) (s : TaskState) (a : Action) : Option Outcome :=
  match a with
  | .call =>
    if s.stage = .idle then some ({ s with stage := .planning, started := true }, [])
    else some (s, [])
  | .run => advance t s
  | .plan tail => if s.stage = .planning then makePlan t tail s else none
  | .open failure =>
    if s.stage = .opening then
      let event := Event.opened t.settings.mode t.settings.scannerOption
      match failure with
      | some e => some (s.fail e, [event])
      | none => some (s.goto .launching, [event])
    else none
  | .schedule now =>
    if s.stage = .scheduling then
      some ({ s with
        stage := .entering s.plan.blocks
        status := s.status.schedule (isExcludedAt t.settings.window now)
        monitored := t.settings.window.isSome && 0 < t.interval }, [])
    else none
  | .enter order =>
    match s.stage with
    | .entering (b :: rest) =>
      if order.covers b.size then some (s.goto (.checking ⟨b, order, 0, rest⟩), []) else none
    | _ => none
  | .collapse =>
    match s.stage with
    -- a run that breaks off here never tells the end
    | .failing e => some (s.goto .collapsed, [.failed e])
    | .publishing _ => some (s.goto .collapsed, [])
    | _ => none
  | .ask i a => stepAsk s i a
  | .scan i a => stepScan s i a
  | .handover i a => stepHandover s i a
  | .admitAsk => admitAsk s
  | .admitScan => admitScan t s
  | .admitHandover => admitHandover s
  | .report endpoint isOpen =>
    if endpoint ∈ s.flying then
      let s := { s with flying := s.flying.erase endpoint }
      some (s.receive (if isOpen then some endpoint else none), [])
    else none
  | .lose endpoint =>
    if endpoint ∈ s.flying then some ({ s with flying := s.flying.erase endpoint }, []) else none
  | .stray outcome => if scannerIsLive s.stage then some (s.receive outcome, []) else none
  | .pause =>
    match s.status.pause with
    | .ok status => some ({ s with status }, [])
    | .error _ => none
  | .resume now =>
    match s.status.resume (isExcludedAt t.settings.window now) with
    | .ok (status, _) => some ({ s with status }, [])
    | .error _ => none
  | .tick now =>
    if s.monitored then
      some ({ s with status := s.status.schedule (isExcludedAt t.settings.window now) }, [])
    else none
  | .cancel => some ({ s with cancelled := true }, [])

end TaskState

end Recon
