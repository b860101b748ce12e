import Recon.Address.Text
import Recon.Port.Table

/-!
# Endpoints

An address with a port, and the service that usually listens on a port.
-/

namespace Recon

structure Endpoint where
  address : Address
  port : Port
deriving DecidableEq, Repr

namespace Endpoint

/-- An endpoint as text.  Brackets keep the colons of a long address apart from the port's. -/
def toString (e : Endpoint) : String :=
  let port := ":" ++ String.ofList (Text.decimal e.port.toNat)
  match e.address with
  | .v4 _ => e.address.toString ++ port
  | .v6 _ => "[" ++ e.address.toString ++ "]" ++ port

instance : ToString Endpoint := ⟨toString⟩

/-- Whether an endpoint comes no later than another: by address, short ones first, and then by
port. -/
def le (a b : Endpoint) : Bool :=
  if a.address = b.address then a.port ≤ b.port
  else if a.address.family = b.address.family then a.address.value ≤ b.address.value
  else a.address.family = .v4

def sort (es : List Endpoint) : List Endpoint := es.mergeSort le

end Endpoint

namespace Port

def services : List (Port × String) :=
  [(21, "ftp"), (22, "ssh"), (23, "telnet"), (25, "smtp"), (53, "dns"), (80, "http"),
    (110, "pop3"), (143, "imap"), (443, "https"), (445, "smb"), (993, "imaps"), (995, "pop3s"),
    (1433, "mssql"), (1521, "oracle"), (3306, "mysql"), (3389, "rdp"), (5432, "postgresql"),
    (5900, "vnc"), (6379, "redis"), (8080, "http"), (8443, "https"), (9200, "elasticsearch"),
    (11211, "memcached"), (27017, "mongodb")]

def service? (p : Port) : Option String := (services.find? fun s => s.1 == p).map (·.2)

end Port

end Recon
