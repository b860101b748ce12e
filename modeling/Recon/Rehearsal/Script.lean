import Recon.Probe.Mode
import Recon.Report.Endpoint
import Recon.Time.Clock

/-!
# Scripts

What a task meets in a rehearsal: how hosts and ports answer and how long that takes, whether the
scanner opens, and how the receiver of open endpoints behaves.  Times are in milliseconds.
-/

namespace Recon

open Time

inductive HostAnswer where
  | up
  | down
  | breaks
deriving DecidableEq, Repr

inductive Fate where
  | isOpen
  | closed
  | refused
  | lost
deriving DecidableEq, Repr

structure Script where
  host : Address → HostAnswer
  hostDelay : Nat
  fate : Endpoint → Fate
  rateDelay : Nat
  isLimited : Bool
  refusal : ScanMode → ScannerOption → Option Error
  receiverDelay : Nat
  receiverBreaks : Endpoint → Bool
  endBreaks : Bool

def Script.silent : Script where
  host _ := .down
  hostDelay := 0
  fate _ := .closed
  rateDelay := 0
  isLimited := false
  refusal _ _ := none
  receiverDelay := 0
  receiverBreaks _ := false
  endBreaks := false

end Recon
