import Recon.Network.SystemFault
import Recon.Probe.Mode
import Recon.Report.Endpoint
import Recon.Wire.Echo

/-!
# Machines

What the machine and the network around it do for a program: who may use raw sockets, how
connections go, which datagrams cannot be sent, and what is read after one is sent.
-/

namespace Recon

inductive Connection where
  | accepted
  | failed (f : SystemFault)
  | unanswered
deriving DecidableEq, Repr

/-- Whether a host shows that it is there: it accepts a connection or refuses it. -/
def Connection.showsHost : Connection → Bool
  | .accepted => true
  | .failed f => f.isRefusal
  | .unanswered => false

inductive Receipt where
  | datagram (bs : Wire.Bytes)
  | strange
  | failed (f : SystemFault)
deriving DecidableEq, Repr

/-- The datagram in a receipt.  There may be none yet, which is no failure. -/
def Receipt.read : Receipt → Except Error (Option Wire.Bytes)
  | .datagram bs => .ok (some bs)
  | .strange => .error ⟨.network, "Invalid socket address received"⟩
  | .failed f => if f.isPatience then .ok none else .error f.toReadError

structure Machine where
  isPrivileged : Bool
  rawFault : Option SystemFault
  routeFault : Option SystemFault
  connect : Endpoint → Connection
  /-- Why a segment cannot be sent to an endpoint that so many have been sent to before. -/
  segmentFault : Endpoint → Nat → Option SystemFault
  /-- Why an echo request cannot be sent to an address that so many have been sent to before. -/
  echoFault : Address → Nat → Option SystemFault
  /-- What is read until time is up, after so many echo requests were sent to an address before. -/
  echoReceipts : Address → Nat → List Receipt

namespace Machine

def offline : Machine where
  isPrivileged := true
  rawFault := some ⟨1⟩
  routeFault := some .unreachable
  connect _ := .failed .unreachable
  segmentFault _ _ := none
  echoFault _ _ := none
  echoReceipts _ _ := []

def opensRaw (m : Machine) : Except Error Unit :=
  match m.rawFault with
  | some f => .error f.toOpenError
  | none => .ok ()

def findsAddress (m : Machine) : Except Error Unit :=
  match m.routeFault with
  | some f => .error f.toError
  | none => .ok ()

def opensScanner (m : Machine) (mode : ScanMode) (o : ScannerOption) : Except Error Unit := do
  o.check mode
  if mode.needsRawSocket then
    if m.isPrivileged then
      m.opensRaw
      m.findsAddress
    else .error ⟨.permission, "SYN scan requires root privileges"⟩
  else .ok ()

end Machine

end Recon
