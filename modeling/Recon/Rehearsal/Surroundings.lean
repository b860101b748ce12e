import Recon.Data.Json
import Recon.Network.Liveness
import Recon.Rehearsal.Script

/-!
# Surroundings of a rehearsal

A machine that a document describes.  The document says who the user is, which calls of the system
fail and with what number, and what happens to datagrams and connections by endpoint, by address, or
anywhere.  The machine is on no network: what is not described fails to connect, and nothing that is
sent finds its way back.
-/

namespace Recon

open Data

namespace Machine

def lookup? (table : Value) (keys : List String) : Option Value :=
  match table with
  | .object fields => keys.findSome? fun k => (fields.find? fun f => f.1 == some k).map (·.2)
  | _ => none

def fault? (v : Value) : Option SystemFault := (v.nat? UInt32.size).map SystemFault.mk

def faultOfAction? (s : String) : Option SystemFault :=
  match Text.cut ':' s.toList with
  | some (name, number) =>
    if name = "error".toList then
      (Text.foldDigits 10 Text.digitValue? 0 number).map SystemFault.mk
    else none
  | none => none

def faultOfActions? : Value → Option SystemFault
  | .string (some s) => faultOfAction? s
  | .array xs => xs.findSome? fun x => x.text?.bind faultOfAction?
  | _ => none

/-- Why the next datagram cannot be sent, after so many were.  Actions may be given for each
datagram in turn, the last of them for all that follow. -/
def sendFault? (earlier : Nat) : Value → Option SystemFault
  | .object [(some "each", .array turns)] =>
    (turns[min earlier (turns.length - 1)]?).bind faultOfActions?
  | v => faultOfActions? v

def keys (e : Endpoint) : List String :=
  let a := e.address.toString
  [a ++ ":" ++ String.ofList (Text.decimal e.port.toNat), a]

/-- How a connection to an endpoint goes: it fails at once with the fault in a table, or because
there is no way. -/
def connection (table : Value) (e : Endpoint) : Connection :=
  match e.address with
  | .v4 _ => .failed (((lookup? table (keys e)).bind fault?).getD .unreachable)
  | .v6 _ => .failed .unreachable

def ofValue (v : Value) : Machine :=
  let part := fun (name : String) => (lookup? v [name]).getD .null
  { isPrivileged := (fault? (part "euid")).all fun user => user.number == 0
    rawFault := fault? (part "socket_errno")
    routeFault := some ((fault? (part "route_errno")).getD .unreachable)
    connect := connection (part "tcp")
    segmentFault := fun e earlier =>
      (lookup? (part "syn") (keys e ++ ["*"])).bind (sendFault? earlier)
    echoFault := fun a earlier =>
      (lookup? (part "echo") [a.toString, "*"]).bind (sendFault? earlier)
    echoReceipts := fun _ _ => [] }

def ofJson (text : Option String) : Machine :=
  match text.bind Json.ofString? with
  | some v => ofValue v
  | none => offline

end Machine

/-- What a task meets on a machine.  A half-open scanner gets no replies. -/
def Script.ofMachine (m : Machine) (p : Prober) (mode : ScanMode) : Script :=
  { Script.silent with
    host := fun a => if p.isLive m [] a then .up else .down
    fate := fun e =>
      if !mode.needsRawSocket && m.connect e == .accepted then .isOpen else .closed
    isLimited := true
    refusal := fun mode o =>
      match m.opensScanner mode o with
      | .error e => some e
      | .ok () => none }

end Recon
