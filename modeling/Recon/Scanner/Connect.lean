import Recon.Network.Machine

/-!
# The connecting scanner

Every probe is an attempt to connect, and all attempts are under way at once.  An accepted
connection is reported as an open endpoint, anything else as nothing.
-/

namespace Recon

structure ConnectScanner where
  flying : List Endpoint
  reports : List (Option Endpoint)
  closed : Bool
deriving Repr

namespace ConnectScanner

def empty : ConnectScanner := ⟨[], [], false⟩

def probe (s : ConnectScanner) (e : Endpoint) : Except Error ConnectScanner :=
  if s.closed then .error .closed else .ok { s with flying := s.flying ++ [e] }

def outcome (connect : Endpoint → Connection) (e : Endpoint) : Option Endpoint :=
  if connect e = .accepted then some e else none

def drain (connect : Endpoint → Connection) (s : ConnectScanner) : ConnectScanner :=
  { s with flying := [], reports := s.reports ++ s.flying.map (outcome connect) }

def release (connect : Endpoint → Connection) (s : ConnectScanner) : ConnectScanner :=
  drain connect { s with closed := true }

def found (s : ConnectScanner) : List Endpoint := s.reports.filterMap id

end ConnectScanner

end Recon
