import Recon.Network.Machine
import Recon.Random.Draw

/-!
# The half-open scanner

A probe sends a single segment and goes on pending until its reply comes, its deadline passes, or
the scanner is released.  Calls of probes, the loop that reads replies, and the reports it hands
off run side by side; each is a chain of indivisible steps, and `HalfOpen.step` takes one of them.
Whatever removes a pending probe is what reports it.
-/

namespace Recon

abbrev ProbeKey := BitVec 32 × Port

structure PendingProbe where
  /-- The number of the call that registered it. -/
  call : Nat
  key : ProbeKey
  deadline : Nat
deriving DecidableEq, Repr

inductive CallPhase where
  | entering
  | counting
  | registering
  | sending
  | retracting
  /-- It is to report that nothing is open, for the probe of the call with this number: its own or,
  after a retraction, that of the call whose entry it has taken. -/
  | reporting (call : Nat)
  /-- It has reported for the probe of this call, which is to be counted down. -/
  | settling (call : Nat)
  | returned
  | refused
deriving DecidableEq, Repr

structure ProbeCall where
  endpoint : Endpoint
  phase : CallPhase
deriving DecidableEq, Repr

/-- A report that the loop has handed off; `delivered` once its receiver has it. -/
structure HandOff where
  call : Nat
  outcome : Option Endpoint
  delivered : Bool
deriving DecidableEq, Repr

inductive LoopPhase where
  | checking
  | receiving
  | sweeping
  | clearing
  | ended
deriving DecidableEq, Repr

structure HalfOpen where
  port : Port
  /-- The milliseconds that a reply may take. -/
  timeout : Nat
  /-- All calls, numbered from zero. -/
  calls : List ProbeCall
  pending : List PendingProbe
  /-- Probes that were counted and not yet counted down. -/
  inFlight : Nat
  finished : Nat
  handOffs : List HandOff
  /-- Reports that the receiver has got, with the calls that they are for. -/
  reports : List (Nat × Option Endpoint)
  closed : Bool
  loop : LoopPhase
deriving Repr

inductive ScannerAction where
  | call (e : Endpoint)
  /-- A call takes its next step; the time and whether its segment is sent matter to some steps. -/
  | proceed (call now : Nat) (isSent : Bool)
  | check
  | receive (r : Option Receipt)
  | sweep (now : Nat)
  | clear
  | deliver (i : Nat)
  | finish (i : Nat)
  | close
deriving DecidableEq, Repr

namespace HalfOpen

/-- Draws the port that replies come to, from 32768 up to 65534. -/
def drawPort {σ : Type} (d : Draws σ) (s : σ) : Port × σ :=
  let (n, s) := d.between s 32768 65535 (by decide)
  (UInt16.ofNat n, s)

def drawPorts {σ : Type} (d : Draws σ) (s : σ) : Nat → List Port
  | 0 => []
  | n + 1 =>
    let (p, s) := drawPort d s
    p :: drawPorts d s n

def start (port : Port) (timeout : Nat) : HalfOpen where
  port := port
  timeout := timeout
  calls := []
  pending := []
  inFlight := 0
  finished := 0
  handOffs := []
  reports := []
  closed := false
  loop := .checking

/-- Whether every probe that was counted is reported, which is what a drain waits for. -/
def isIdle (s : HalfOpen) : Bool := s.inFlight == 0

def isReleased (s : HalfOpen) : Bool := s.closed && s.loop == .ended && s.handOffs.isEmpty

def begun (s : HalfOpen) : Nat := s.inFlight + s.finished

def keyOf? (e : Endpoint) : Option ProbeKey :=
  match e.address with
  | .v4 a => some (a, e.port)
  | .v6 _ => none

def endpointOf (k : ProbeKey) : Endpoint := ⟨.v4 k.1, k.2⟩

def isPending (s : HalfOpen) (k : ProbeKey) : Bool := s.pending.any fun p => p.key == k

def put (s : HalfOpen) (i : Nat) (phase : CallPhase) : HalfOpen :=
  { s with calls := s.calls.modify i fun c => { c with phase } }

def countDown (s : HalfOpen) : HalfOpen :=
  { s with inFlight := s.inFlight - 1, finished := s.finished + 1 }

def handOff (s : HalfOpen) (outcome : PendingProbe → Option Endpoint) (ps : List PendingProbe) :
    HalfOpen :=
  { s with handOffs := s.handOffs ++ ps.map fun p => ⟨p.call, outcome p, false⟩ }

/-- Drops the pending probes that satisfy a condition and reports that nothing is open there. -/
def drop (s : HalfOpen) (isOver : PendingProbe → Bool) : HalfOpen :=
  let kept := { s with pending := s.pending.filter fun p => !isOver p }
  kept.handOff (fun _ => none) (s.pending.filter isOver)

/-- What a reply says of the endpoint that it comes from: open, or not.  Other replies, and those to
another port, say nothing. -/
def verdict? (port : Port) (bs : Wire.Bytes) : Option (ProbeKey × Bool) :=
  (Wire.Reply.ofDatagram? bs).bind fun r =>
    if r.targetPort == port && (r.isSynAck || r.isRst) then
      some ((r.source, r.sourcePort), r.isSynAck)
    else none

def hear (s : HalfOpen) (bs : Wire.Bytes) : HalfOpen :=
  match verdict? s.port bs with
  | none => s
  | some (key, isOpen) =>
    let kept := { s with pending := s.pending.filter fun p => p.key != key }
    kept.handOff (fun p => if isOpen then some (endpointOf p.key) else none)
      (s.pending.filter fun p => p.key == key)

def proceed (s : HalfOpen) (i now : Nat) (isSent : Bool) : Option HalfOpen :=
  match s.calls[i]? with
  | none => none
  | some c =>
    match c.phase with
    | .entering => some (s.put i (if s.closed then .refused else .counting))
    | .counting => some ({ s with inFlight := s.inFlight + 1 }.put i .registering)
    | .registering =>
      match keyOf? c.endpoint with
      | none => some (s.put i (.reporting i))
      | some key =>
        -- a second probe of the same endpoint is over at once
        if s.isPending key then some (s.put i (.reporting i))
        else
          let p : PendingProbe := ⟨i, key, now + s.timeout⟩
          some ({ s with pending := s.pending ++ [p] }.put i .sending)
    | .sending => some (s.put i (if isSent then .returned else .retracting))
    | .retracting =>
      match keyOf? c.endpoint with
      | none => none
      | some key =>
        -- an entry that is gone has been reported by whatever removed it, and one that is there
        -- may be of a later probe of the same endpoint
        match s.pending.find? fun p => p.key == key with
        | none => some (s.put i .returned)
        | some p =>
          let kept := { s with pending := s.pending.filter fun p => p.key != key }
          some (kept.put i (.reporting p.call))
    | .reporting call =>
      some ({ s with reports := s.reports ++ [(call, none)] }.put i (.settling call))
    | .settling _ => some (s.countDown.put i .returned)
    | .returned | .refused => none

def step (s : HalfOpen) : ScannerAction → Option HalfOpen
  | .call e => some { s with calls := s.calls ++ [⟨e, .entering⟩] }
  | .proceed i now isSent => s.proceed i now isSent
  | .check =>
    if s.loop = .checking then
      some { s with loop := if s.closed then .clearing else .receiving }
    else none
  | .receive r =>
    if s.loop = .receiving then
      -- whatever is read, overdue probes are dropped next
      let s := { s with loop := .sweeping }
      match r with
      | some (.datagram bs) => some (s.hear bs)
      | _ => some s
    else none
  | .sweep now =>
    if s.loop = .sweeping then
      some ({ s with loop := .checking }.drop fun p => p.deadline ≤ now)
    else none
  | .clear =>
    if s.loop = .clearing then some ({ s with loop := .ended }.drop fun _ => true) else none
  | .deliver i =>
    match s.handOffs[i]? with
    | some h =>
      if h.delivered then none
      else
        some { s with
          handOffs := s.handOffs.set i { h with delivered := true }
          reports := s.reports ++ [(h.call, h.outcome)] }
    | none => none
  | .finish i =>
    match s.handOffs[i]? with
    | some h =>
      if h.delivered then some { s.countDown with handOffs := s.handOffs.eraseIdx i } else none
    | none => none
  | .close => some { s with closed := true }

end HalfOpen

end Recon
