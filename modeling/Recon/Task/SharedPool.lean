import Recon.Task.Pool

/-!
# Pools in shared use

Any number of users submit jobs to a pool, drain it and close it at once.  A submission takes a
slot, is counted, starts its job and is back.  A job that is over is counted as completed, and
before that its panic is counted if it had one; then it gives its slot back.  Free slots are those
of the first in line, whenever these come to take them, and a submission that finds more of them
than there are others in line does not wait.

A drain does not look at the jobs.  It shuts the tracker, in which every job is from its start until
it has gone, waits until the last one has left, and opens it again.  Closing the pool shuts the
tracker, too.  `SharedPool.step` takes one step, between any two of which others may take theirs;
each counter is moved by a step of its own.
-/

namespace Recon

inductive DrainPhase where
  | called
  | shut
  /-- It waits, and is due once the tracker has been shut and empty since. -/
  | waiting (isDue : Bool)
  | leaving
  | returned
deriving DecidableEq, Repr

def DrainPhase.notify (isOver : Bool) : DrainPhase → DrainPhase
  | .waiting isDue => .waiting (isDue || isOver)
  | phase => phase

structure SharedPool where
  pool : Pool Nat
  /-- Slots that nobody has taken. -/
  free : Nat
  /-- Submissions that have taken a slot and are not counted yet. -/
  entering : List Nat
  /-- Submissions that are counted and have not started their job yet. -/
  counted : List Nat
  /-- Jobs that have panicked, which is not counted yet. -/
  broken : List Nat
  /-- Jobs that are over and to be counted as completed, each with whether its panic is counted. -/
  finished : List (Nat × Bool)
  /-- Jobs that are counted as completed and have their slot still. -/
  ended : List Nat
  /-- Jobs that have given their slot back and are in the tracker still. -/
  parting : List Nat
  /-- How many jobs are in the tracker. -/
  inside : Nat
  /-- Whether the tracker is shut, without which no wait for it ends. -/
  isShut : Bool
  drains : List DrainPhase
  /-- How many submissions there have been; they are numbered in order. -/
  tickets : Nat
deriving Repr

inductive PoolEvent where
  | accepted (ticket : Nat)
  | refused (ticket : Nat)
  | withdrawn (ticket : Nat)
  | ended (ticket : Nat) (panicked : Bool)
  | completed (ticket : Nat)
  | drained (drain : Nat)
deriving DecidableEq, Repr

/-- A step of a user or of a job; places are those in the list it takes its subject from. -/
inductive PoolAction where
  | submit
  | takeSlot (place : Nat)
  | turnAway (place : Nat)
  | withdraw (place : Nat)
  | count (place : Nat)
  | start (place : Nat)
  | finish (place : Nat) (panics : Bool)
  | countPanic (place : Nat)
  | complete (place : Nat)
  | giveBack (place : Nat)
  | leave (place : Nat)
  | callDrain
  | proceed (drain : Nat)
  /-- The first half of closing the pool. -/
  | close
  /-- The second half of closing it. -/
  | shut
deriving DecidableEq, Repr

namespace SharedPool

def ofSize (size : Nat) : SharedPool :=
  ⟨.ofSize size, max size 1, [], [], [], [], [], [], 0, false, [], 0⟩

def notify (s : SharedPool) : SharedPool :=
  { s with drains := s.drains.map (DrainPhase.notify (s.isShut && s.inside == 0)) }

def shutTracker (s : SharedPool) : SharedPool := notify { s with isShut := true }

def put (s : SharedPool) (drain : Nat) (phase : DrainPhase) : SharedPool :=
  { s with drains := s.drains.set drain phase }

def enter (s : SharedPool) (ticket : Nat) : SharedPool :=
  { s with free := s.free - 1, entering := s.entering ++ [ticket] }

def submit (s : SharedPool) : SharedPool × Option PoolEvent :=
  let ticket := s.tickets
  let s := { s with tickets := ticket + 1 }
  if s.pool.closed then (s, some (.refused ticket))
  else if s.pool.waiting.length < s.free then (s.enter ticket, none)
  else ({ s with pool := { s.pool with waiting := s.pool.waiting ++ [ticket] } }, none)

/-- A job is over; one that has panicked has this counted first. -/
def endJob (s : SharedPool) (ticket : Nat) (panics : Bool) : SharedPool :=
  if panics then { s with broken := s.broken ++ [ticket] }
  else { s with finished := s.finished ++ [(ticket, false)] }

def stepDrain (s : SharedPool) (drain : Nat) :
    DrainPhase → Option (SharedPool × Option PoolEvent)
  | .called => some (s.shutTracker.put drain .shut, none)
  | .shut => some (s.put drain (.waiting (s.isShut && s.inside == 0)), none)
  | .waiting true => some (s.put drain .leaving, none)
  | .leaving => some ({ s with isShut := false }.put drain .returned, some (.drained drain))
  | .waiting false | .returned => none

def step (s : SharedPool) : PoolAction → Option (SharedPool × Option PoolEvent)
  | .submit => some s.submit
  | .takeSlot i =>
    match s.pool.waiting[i]? with
    | some ticket =>
      -- the first in line are those for whom there are slots
      if !s.pool.closed && decide (i < s.free) then
        some ({ s with pool := s.pool.withdraw i }.enter ticket, none)
      else none
    | none => none
  | .turnAway i =>
    match s.pool.waiting[i]? with
    | some ticket =>
      if s.pool.closed then some ({ s with pool := s.pool.withdraw i }, some (.refused ticket))
      else none
    | none => none
  | .withdraw i =>
    match s.pool.waiting[i]? with
    | some ticket => some ({ s with pool := s.pool.withdraw i }, some (.withdrawn ticket))
    | none => none
  | .count i =>
    match s.entering[i]? with
    | some ticket =>
      some ({ s with
        pool := { s.pool with submitted := s.pool.submitted + 1 }
        entering := s.entering.eraseIdx i
        counted := s.counted ++ [ticket] }, none)
    | none => none
  | .start i =>
    match s.counted[i]? with
    | some ticket =>
      some ({ s with
        pool := { s.pool with jobs := s.pool.jobs ++ [ticket] }
        counted := s.counted.eraseIdx i
        inside := s.inside + 1 }, some (.accepted ticket))
    | none => none
  | .finish i panics =>
    match s.pool.jobs[i]? with
    | some ticket =>
      some ({ s with pool := { s.pool with jobs := s.pool.jobs.eraseIdx i } }.endJob ticket panics,
        some (.ended ticket panics))
    | none => none
  | .countPanic i =>
    match s.broken[i]? with
    | some ticket =>
      some ({ s with
        pool := { s.pool with panicked := s.pool.panicked + 1 }
        broken := s.broken.eraseIdx i
        finished := s.finished ++ [(ticket, true)] }, none)
    | none => none
  | .complete i =>
    match s.finished[i]? with
    | some (ticket, _) =>
      some ({ s with
        pool := { s.pool with completed := s.pool.completed + 1 }
        finished := s.finished.eraseIdx i
        ended := s.ended ++ [ticket] }, some (.completed ticket))
    | none => none
  | .giveBack i =>
    match s.ended[i]? with
    | some ticket =>
      some ({ s with
        free := s.free + 1
        ended := s.ended.eraseIdx i
        parting := s.parting ++ [ticket] }, none)
    | none => none
  | .leave i =>
    if i < s.parting.length then
      some (notify { s with parting := s.parting.eraseIdx i, inside := s.inside - 1 }, none)
    else none
  | .callDrain => some ({ s with drains := s.drains ++ [.called] }, none)
  | .proceed d =>
    match s.drains[d]? with
    | some phase => s.stepDrain d phase
    | none => none
  | .close => some ({ s with pool := s.pool.close }, none)
  | .shut => if s.pool.closed then some (s.shutTracker, none) else none

/-- The state that some actions lead to, taken one after the other, and what comes of them. -/
def follow (s : SharedPool) : List PoolAction → Option (List PoolEvent × SharedPool)
  | [] => some ([], s)
  | a :: as => do
    let (s', e) ← s.step a
    let (es, s'') ← s'.follow as
    return (e.toList ++ es, s'')

end SharedPool

end Recon
