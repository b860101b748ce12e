import Recon.Network.Liveness

/-!
# Inquiries step by step

The attempts to connect to the ports of a prober go on side by side and are taken as they end, until
one of them shows the host.  The wait for the answer to an echo request goes turn by turn, each with
the time that is left to read for.  Times are in nanoseconds.
-/

namespace Recon

/-! ### Attempts to connect -/

inductive Dial where
  | accepted (after : Nat)
  | failed (f : SystemFault) (after : Nat)
  | silent
deriving DecidableEq, Repr

def Dial.within (limit : Nat) : Dial → Connection
  | .accepted after => if after ≤ limit then .accepted else .unanswered
  | .failed f after => if after ≤ limit then .failed f else .unanswered
  | .silent => .unanswered

/-- Attempts that go on side by side, until they have shown the host or have all ended. -/
inductive Race where
  | running (attempts : List Connection)
  | decided (isUp : Bool)
deriving DecidableEq, Repr

namespace Race

/-- Waits for one of some attempts to end.  Where there is none the host is not shown. -/
def awaiting : List Connection → Race
  | [] => .decided false
  | attempts => .running attempts

def finish? : Race → Nat → Option Race
  | .decided _, _ => none
  | .running attempts, i =>
    attempts[i]?.map fun c => if c.showsHost then .decided true else awaiting (attempts.eraseIdx i)

def follow? (r : Race) : List Nat → Option Race
  | [] => some r
  | i :: rest => (r.finish? i).bind (follow? · rest)

def verdict? : Race → Option Bool
  | .running _ => none
  | .decided isUp => some isUp

end Race

/-! ### Waiting for the answer to an echo request -/

namespace Wire.Echo

/-- A turn of waiting: when it begins, why the time to read for cannot be set, if it cannot, and
what there is to read next after how long. -/
structure Turn where
  now : Nat
  limitFault : Option SystemFault
  after : Nat
  receipt : Receipt
deriving DecidableEq, Repr

def room : Nat := 1500

def Turn.read (t : Turn) (deadline : Nat) : Except Error (Option Bytes) :=
  match t.limitFault with
  | some f => .error f.toError
  | none =>
    if t.now + t.after ≤ deadline then t.receipt.read.map fun bs => bs.map fun bs => bs.take room
    else .ok none

def turn? (e : Echo) (target : BitVec 32) (deadline : Nat) (t : Turn) :
    Option (Except Error Bool) :=
  if deadline ≤ t.now then some (.ok false)
  else
    match t.read deadline with
    | .error f => some (.error f)
    | .ok none => none
    | .ok (some bs) => if e.isAnswer target bs then some (.ok true) else none

def await? (e : Echo) (target : BitVec 32) (deadline : Nat) (turns : List Turn) :
    Option (Except Error Bool) :=
  turns.findSome? (e.turn? target deadline)

inductive Exchange where
  | broken (why : String)
  | unopened (f : SystemFault)
  | unsent (f : SystemFault)
  | sent (now : Nat) (turns : List Turn)
deriving DecidableEq, Repr

def answer? (e : Echo) (target : BitVec 32) (limit : Nat) : Exchange → Option (Except Error Bool)
  | .broken why => some (.error ⟨.network, why⟩)
  | .unopened f => some (.error f.toOpenError)
  | .unsent f => some (.error f.toError)
  | .sent now turns => e.await? target (now + limit) turns

end Wire.Echo

/-! ### Inquiries -/

/-- The circumstances of an inquiry: how long each wait may take, what tells its echo request apart
and how that goes, and what comes of the attempts to connect, of which there may be several to one
port. -/
structure Inquiry where
  limit : Nat
  echo : Wire.Echo
  exchange : Wire.Echo.Exchange
  dial : Nat → Endpoint → Dial

def Inquiry.attempts (n : Inquiry) (a : Address) (ports : List Port) : List Connection :=
  ports.mapIdx fun i p => (n.dial i ⟨a, p⟩).within n.limit

namespace Prober

end Prober

end Recon
