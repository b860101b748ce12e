import Recon.Network.Machine

/-!
# Liveness of hosts

A host is up if it answers an echo request or shows itself on one of a few ports.  A prober that is
denied raw sockets does without echo requests, and a failure to send or to read one counts as no
answer.
-/

namespace Recon

/-- Whether the answer to an echo request is among what is read, in the order in which it is read.
A failure to read ends the search. -/
def Wire.Echo.listen (e : Wire.Echo) (target : BitVec 32) : List Receipt → Except Error Bool
  | [] => .ok false
  | r :: rest =>
    match r.read with
    | .error f => .error f
    | .ok none => listen e target rest
    | .ok (some bs) => if e.isAnswer target bs then .ok true else listen e target rest

structure Prober where
  name : String
  sendsEcho : Bool
  ports : List Port
deriving DecidableEq, Repr

namespace Prober

def usualPorts : List Port := [80, 443, 22, 445, 3389]

def icmp : Prober := ⟨"icmp", true, []⟩

def tcp (ports : List Port) : Prober := ⟨"tcp", false, ports⟩

def composite (m : Machine) : Prober := ⟨"composite", m.rawFault.isNone, usualPorts⟩

def identifier : UInt16 := 0x5243

def ping (m : Machine) (earlier : Nat) (sequence : UInt16) (target : BitVec 32) :
    Except Error Bool :=
  match m.echoFault (.v4 target) earlier with
  | some f => .error f.toError
  | none => (Wire.Echo.mk identifier sequence).listen target (m.echoReceipts (.v4 target) earlier)

def answersEcho (m : Machine) (sent : List Address) : Address → Bool
  | .v4 target =>
    match ping m (sent.count (.v4 target)) (UInt16.ofNat sent.length) target with
    | .ok answer => answer
    | .error _ => false
  | .v6 _ => false

def answersPort (m : Machine) (a : Address) (ports : List Port) : Bool :=
  ports.any fun p => (m.connect ⟨a, p⟩).showsHost

def isLive (p : Prober) (m : Machine) (sent : List Address) (a : Address) : Bool :=
  (p.sendsEcho && answersEcho m sent a) || answersPort m a p.ports

/-- Whether a prober sends an echo request to an address; only short addresses get one. -/
def sends (p : Prober) (a : Address) : Bool := p.sendsEcho && a.family == .v4

/-- Which of some addresses are up, asked one after the other, and how many echo requests that
takes. -/
def areLive (p : Prober) (m : Machine) (sent : List Address) : List Address → List Bool × Nat
  | [] => ([], sent.length)
  | a :: rest =>
    let live := p.isLive m sent a
    let (lives, n) := areLive p m (if p.sends a then sent ++ [a] else sent) rest
    (live :: lives, n)

end Prober

end Recon
