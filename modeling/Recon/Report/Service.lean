import Recon.Data.Canonical
import Recon.Report.Endpoint
import Recon.Settings.Record

/-!
# Reports on endpoints

What is handed over for an open endpoint, and what may be found out about the service behind it,
with their forms as documents.
-/

namespace Recon

open Recon.Data

def Data.Value.port? (v : Value) : Option Port := (v.nat? 65535).map UInt16.ofNat

def Data.Value.address? (v : Value) : Option Address := v.text?.bind Address.ofString?

/-- The whole number of sixty-four bits, with a sign if it is negative, that a value is. -/
def Data.Value.int64? : Value → Option Int
  | .number ⟨true, whole, [], none⟩ =>
    if 0 < whole ∧ whole ≤ Nat.pow 2 63 then some (-(whole : Int)) else none
  | v => (v.nat? (Nat.pow 2 63 - 1)).map fun n => (n : Int)

def Data.Value.int (n : Int) : Value := .number ⟨n < 0, n.natAbs, [], none⟩

def Data.Value.texts? : Value → Option (List String)
  | .array xs => xs.mapM Value.text?
  | _ => none

def Data.Value.texts (xs : List String) : Value := .array (xs.map .text)

def Endpoint.ofValue? (style : Convention) (v : Value) : Option Endpoint := do
  let fields ← v.fields? style ["ip", "port"]
  let address ← required fields "ip" Value.address?
  let port ← required fields "port" Value.port?
  return ⟨address, port⟩

def Endpoint.toValue (e : Endpoint) : Value :=
  .record [("ip", .text e.address.toString), ("port", .nat e.port.toNat)]

/-- What is handed over for an open endpoint: where it is and what the task was asked to do. -/
structure Transfer where
  entry : Endpoint
  settings : Settings
deriving DecidableEq, Repr

def Transfer.ofValue? (style : Convention) (v : Value) : Option Transfer := do
  let fields ← v.fields? style ["entry", "param"]
  let entry ← required fields "entry" (Endpoint.ofValue? style)
  let settings ← required fields "param" (Settings.ofValue? style)
  return ⟨entry, settings⟩

def Transfer.toValue (t : Transfer) : Value :=
  .record [("entry", t.entry.toValue), ("param", t.settings.toValue)]

structure WebInfo where
  status : Nat
  length : Int
  url : String
  location : String
  title : String
  server : String
  body : String
  header : String
  faviconHash : String
  faviconDigest : String
  screenshot : String
  fingerprints : List String
  commonName : String
  dnsNames : List String

namespace WebInfo

def fieldNames : List String :=
  ["status_code", "content_length", "url", "location", "title", "server", "body", "header",
    "favicon_mh3", "favicon_md5", "screenshot_url", "fingerprints", "tls_common_name",
    "tls_dns_names"]

def ofValue? (style : Convention) (v : Value) : Option WebInfo := do
  let fields ← v.fields? style fieldNames
  let status ← required fields "status_code" (Value.nat? 65535)
  let length ← required fields "content_length" Value.int64?
  let url ← required fields "url" Value.text?
  let location ← required fields "location" Value.text?
  let title ← required fields "title" Value.text?
  let server ← required fields "server" Value.text?
  let body ← required fields "body" Value.text?
  let header ← required fields "header" Value.text?
  let faviconHash ← required fields "favicon_mh3" Value.text?
  let faviconDigest ← required fields "favicon_md5" Value.text?
  let screenshot ← required fields "screenshot_url" Value.text?
  let fingerprints ← required fields "fingerprints" Value.texts?
  let commonName ← required fields "tls_common_name" Value.text?
  let dnsNames ← required fields "tls_dns_names" Value.texts?
  return ⟨status, length, url, location, title, server, body, header, faviconHash, faviconDigest,
    screenshot, fingerprints, commonName, dnsNames⟩

def toValue (w : WebInfo) : Value :=
  .record [("status_code", .nat w.status), ("content_length", .int w.length), ("url", .text w.url),
    ("location", .text w.location), ("title", .text w.title), ("server", .text w.server),
    ("body", .text w.body), ("header", .text w.header), ("favicon_mh3", .text w.faviconHash),
    ("favicon_md5", .text w.faviconDigest), ("screenshot_url", .text w.screenshot),
    ("fingerprints", .texts w.fingerprints), ("tls_common_name", .text w.commonName),
    ("tls_dns_names", .texts w.dnsNames)]

end WebInfo

structure Service where
  endpoint : Endpoint
  tls : Bool
  protocol : String
  transport : String
  version : String
  banner : Option Value
  web : Option WebInfo

namespace Service

def fieldNames : List String :=
  ["ip", "port", "tls", "protocol", "transport", "version", "banner", "http_info"]

def encrypted : List String := ["https", "imaps", "pop3s"]

def ofEndpoint (e : Endpoint) : Service :=
  let protocol := e.port.service?.getD "unknown"
  ⟨e, encrypted.contains protocol, protocol, "tcp", "", none, none⟩

/-- The service that a record describes.  Only banner and web server may be missing. -/
def ofValue? (style : Convention) (v : Value) : Option Service := do
  if !v.isComplete fieldNames then none
  let fields ← v.fields? style fieldNames
  let address ← required fields "ip" Value.address?
  let port ← required fields "port" Value.port?
  let tls ← required fields "tls" Value.bool?
  let protocol ← required fields "protocol" Value.text?
  let transport ← required fields "transport" Value.text?
  let version ← required fields "version" Value.text?
  let banner ← field fields "banner" none
    (Value.optional (Value.canonical? (maxNesting - 1)))
  let web ← field fields "http_info" none (Value.optional (WebInfo.ofValue? style))
  return ⟨⟨address, port⟩, tls, protocol, transport, version, banner, web⟩

def toValue (s : Service) : Value :=
  .record [("ip", .text s.endpoint.address.toString), ("port", .nat s.endpoint.port.toNat),
    ("tls", .bool s.tls), ("protocol", .text s.protocol), ("transport", .text s.transport),
    ("version", .text s.version), ("banner", s.banner.getD .null),
    ("http_info", match s.web with | some w => w.toValue | none => .null)]

def toJson (s : Service) : String := Json.toString s.toValue

end Service

inductive Severity where
  | debug
  | info
  | error
deriving DecidableEq, Repr

structure LogLine where
  severity : Severity
  message : String
deriving DecidableEq, Repr

def LogLine.ofEndpoint (e : Endpoint) : LogLine := ⟨.info, (Service.ofEndpoint e).toJson⟩

def LogLine.ofError (e : Error) : LogLine := ⟨.error, "task failed: " ++ e.message⟩

def LogLine.closed : LogLine := ⟨.debug, "dispatch closed"⟩

end Recon
