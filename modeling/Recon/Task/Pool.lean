import Recon.Error

/-!
# Bounded pools

A pool runs at most so many jobs at a time.  A submission that finds no room waits in line; the
first in line gets the next room, and whoever comes later waits behind it.  A closed pool takes no
job any more, not even those in line, but lets its running jobs end.  A job that panics ends like
any other and is counted as such.
-/

namespace Recon

structure Pool (α : Type) where
  size : Nat
  /-- Jobs that run, oldest first. -/
  jobs : List α
  /-- Submissions that wait for room, first come first. -/
  waiting : List α
  submitted : Nat
  completed : Nat
  panicked : Nat
  closed : Bool
deriving Repr

namespace Pool

variable {α : Type}

/-- An empty pool; it has room for one job at least. -/
def ofSize (size : Nat) : Pool α := ⟨max size 1, [], [], 0, 0, 0, false⟩

def hasRoom (p : Pool α) : Bool := p.jobs.length < p.size

/-- Whether no job runs, which is what a drain waits for. -/
def isIdle (p : Pool α) : Bool := p.jobs.isEmpty

inductive Answer where
  | accepted
  | queued
  | refused
deriving DecidableEq, Repr

def start (p : Pool α) (job : α) : Pool α :=
  { p with jobs := p.jobs ++ [job], submitted := p.submitted + 1 }

def submit (p : Pool α) (job : α) : Answer × Pool α :=
  if p.closed then (.refused, p)
  else if p.waiting.isEmpty && p.hasRoom then (.accepted, p.start job)
  else (.queued, { p with waiting := p.waiting ++ [job] })

def admit? (p : Pool α) : Option (α × Pool α) :=
  match p.waiting with
  | [] => none
  | job :: rest =>
    if !p.closed && p.hasRoom then some (job, start { p with waiting := rest } job) else none

def reject? (p : Pool α) : Option (α × Pool α) :=
  match p.waiting with
  | [] => none
  | job :: rest => if p.closed then some (job, { p with waiting := rest }) else none

def withdraw (p : Pool α) (i : Nat) : Pool α := { p with waiting := p.waiting.eraseIdx i }

def finish (p : Pool α) (i : Nat) (panicked : Bool) : Pool α :=
  if i < p.jobs.length then
    { p with
      jobs := p.jobs.eraseIdx i
      completed := p.completed + 1
      panicked := if panicked then p.panicked + 1 else p.panicked }
  else p

def update (p : Pool α) (i : Nat) (job : α) : Pool α := { p with jobs := p.jobs.set i job }

def close (p : Pool α) : Pool α := { p with closed := true }

def closedError (name : String) : Error := ⟨.taskState, name ++ " pool is closed"⟩

end Pool

end Recon
