import Recon.Task.Pool

/-!
# Rehearsals of a pool

A pool whose jobs take a known time, in a time of its own in milliseconds.  All jobs that end at a
moment end before any room is given away, and everything that can happen without time passing
happens before time goes on.
-/

namespace Recon

structure Chore where
  name : String
  millis : Nat
  breaks : Bool
deriving DecidableEq, Repr

structure Shift where
  ticket : Nat
  chore : Chore
  /-- Whether its submitter does nothing else until it is answered. -/
  isAwaited : Bool
  due : Nat
deriving DecidableEq, Repr

structure ShiftAnswer where
  shift : Shift
  moment : Nat
  isAccepted : Bool
deriving DecidableEq, Repr

structure Crew where
  pool : Pool Shift
  now : Nat
  tickets : Nat
  events : Array (Nat × String × Bool)
  answers : Array ShiftAnswer

namespace Crew

def ofSize (size : Nat) : Crew := ⟨.ofSize size, 0, 0, #[], #[]⟩

def end? (c : Crew) : Option Crew :=
  match c.pool.jobs.findIdx? fun s => s.due ≤ c.now with
  | none => none
  | some i =>
    (c.pool.jobs[i]?).map fun s =>
      { c with
        pool := c.pool.finish i s.chore.breaks
        events := if s.chore.breaks then c.events else c.events.push (c.now, s.chore.name, false) }

def endWithin : Nat → Crew → Crew
  | 0, c => c
  | fuel + 1, c =>
    match c.end? with
    | some c => endWithin fuel c
    | none => c

def endAll (c : Crew) : Crew := endWithin c.pool.jobs.length c

def answer (c : Crew) (shift : Shift) (isAccepted : Bool) : Crew :=
  { c with answers := c.answers.push ⟨shift, c.now, isAccepted⟩ }

def begin (c : Crew) (shift : Shift) : Crew :=
  { c.answer shift true with
    pool := c.pool.update (c.pool.jobs.length - 1) { shift with due := c.now + shift.chore.millis }
    events := c.events.push (c.now, shift.chore.name, true) }

def answer? (c : Crew) : Option Crew :=
  match c.pool.reject? with
  | some (shift, pool) => some ({ c with pool }.answer shift false)
  | none => c.pool.admit?.map fun (shift, pool) => { c with pool }.begin shift

def settleWithin : Nat → Crew → Crew
  | 0, c => c.endAll
  | fuel + 1, c =>
    let c := c.endAll
    match c.answer? with
    | some c => settleWithin fuel c
    | none => c

def settle (c : Crew) : Crew := settleWithin c.pool.waiting.length c

/-- Lets time go on until a moment, or until a condition holds when jobs have just ended. -/
def runUntil (limit : Nat) (isEnough : Crew → Bool) : Nat → Crew → Crew
  | 0, c => c
  | fuel + 1, c =>
    match (c.pool.jobs.map Shift.due).min? with
    | some due =>
      if due ≤ limit then
        let c := { c with now := max c.now due }.endAll
        if isEnough c then c.settle
        else
          let c := c.settle
          if isEnough c then c else runUntil limit isEnough fuel c
      else { c with now := limit }
    | none => { c with now := limit }

def load (c : Crew) : Nat := c.pool.jobs.length + c.pool.waiting.length

def pass (c : Crew) (millis : Nat) : Crew :=
  runUntil (c.now + millis) (fun _ => false) (c.load + 1) c

def await (c : Crew) (isEnough : Crew → Bool) : Crew :=
  if isEnough c || c.load == 0 then c
  else
    let longest := (c.pool.jobs ++ c.pool.waiting).foldl (fun n s => n + s.due + s.chore.millis) 0
    runUntil (c.now + longest) isEnough (c.load + 1) c

def answerTo? (c : Crew) (ticket : Nat) : Option ShiftAnswer :=
  c.answers.find? fun a => a.shift.ticket == ticket

def submit (c : Crew) (chore : Chore) (isAwaited : Bool) : Option ShiftAnswer × Crew :=
  let shift : Shift := ⟨c.tickets, chore, isAwaited, 0⟩
  let c := { c with tickets := c.tickets + 1 }
  let c :=
    match c.pool.submit shift with
    | (.accepted, pool) => { c with pool }.begin shift
    | (.queued, pool) => { c with pool }
    | (.refused, _) => c.answer shift false
  let c := c.settle
  let c := if isAwaited then c.await fun c => (c.answerTo? shift.ticket).isSome else c
  (if isAwaited then c.answerTo? shift.ticket else none, c)

def drain (c : Crew) : Crew := c.await fun c => c.pool.isIdle

def close (c : Crew) : Crew := settle { c with pool := c.pool.close }

def history (c : Crew) : List (Nat × String × Bool) :=
  c.events.toList.mergeSort fun (t, a, x) (u, b, y) =>
    t < u || t == u && (a < b || a == b && (!x || y))

def later (c : Crew) : List ShiftAnswer :=
  (c.answers.toList.filter fun a => !a.shift.isAwaited).mergeSort fun a b =>
    a.shift.chore.name ≤ b.shift.chore.name

end Crew

end Recon
