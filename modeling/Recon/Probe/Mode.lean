import Recon.Error
import Recon.Text.Blank

/-!
# Scan modes and the options of a scanner

A scan either completes each connection or, with raw sockets, stops at the reply to the first
segment.  A scanner is built with a rate and a timeout, which the half-open one checks both and the
connecting one only as to the timeout.
-/

namespace Recon

inductive ScanMode where
  | syn
  | connect
deriving DecidableEq, Repr

namespace ScanMode

def name : ScanMode → String
  | .syn => "syn"
  | .connect => "connect"

def title : ScanMode → String
  | .syn => "SYN"
  | .connect => "Connect"

def scannerName : ScanMode → String
  | .syn => "TCP SYN"
  | .connect => "TCP Connect"

def needsRawSocket : ScanMode → Bool
  | .syn => true
  | .connect => false

/-- The mode with this name in settings; connecting has two older names. -/
def ofName? (s : String) : Option ScanMode :=
  if s = "syn" then some .syn
  else if s = "connect" ∨ s = "tcp" ∨ s = "pn" then some .connect
  else none

/-- The mode that a text asks for.  Every text but the name of the half-open mode, in any case and
with blanks around it, asks for connections. -/
def ofText (s : String) : ScanMode :=
  if (Text.trim s.toList).map Char.toLower = "syn".toList then .syn else .connect

end ScanMode

/-- The rate, in probes a second, and the timeout, in milliseconds, that a scanner is built with. -/
structure ScannerOption where
  rate : Nat
  timeout : Nat
deriving DecidableEq, Repr

namespace ScannerOption

def minRate : Nat := 10

def checkTimeout (o : ScannerOption) : Except Error Unit :=
  if o.timeout = 0 then .error ⟨.config, "timeout can not set to 0"⟩ else .ok ()

def validate (o : ScannerOption) : Except Error Unit :=
  if o.rate < minRate then .error ⟨.config, "rate can not set < 10"⟩ else o.checkTimeout

def check (o : ScannerOption) : ScanMode → Except Error Unit
  | .syn => o.validate
  | .connect => o.checkTimeout

end ScannerOption

instance : Inhabited ScannerOption := ⟨⟨500, 800⟩⟩

end Recon
