import Recon.Settings.Basic

/-!
# Calls that change settings

Settings can be changed where they are, by one call after the other.  A call may be refused; then
whoever made it goes on with the settings as they stand.
-/

namespace Recon

def Settings.setWindow (spec : String) : ExceptT WindowFault (StateM Settings) Unit := do
  if Settings.isBlankText spec then
    modify fun s => { s with window := none }
  else
    let w ← ExceptT.mk (pure (Window.ofString spec))
    modify fun s => { s with window := some w }

inductive Change where
  | rate (n : UInt32)
  | timeout (n : UInt64)
  | pingPool (n : UInt64)
  | scanPool (n : UInt64)
  | fingerPool (n : UInt64)
  | pool (p : PoolSizes)
  | excluded (spec : String)
  | window (spec : String)
  | ports (spec : String)
  | mode (m : ScanMode)
  | ping (b : Bool)
  | name (text : String)
  | debug (b : Bool)
  | clamp
deriving DecidableEq, Repr

namespace Change

def run : Change → ExceptT WindowFault (StateM Settings) Unit
  | rate n => modify (·.withRate n)
  | timeout n => modify (·.withTimeout n)
  | pingPool n => modify (·.withPingPool n)
  | scanPool n => modify (·.withScanPool n)
  | fingerPool n => modify (·.withFingerPool n)
  | pool p => modify (·.withPool p)
  | excluded spec => modify (·.withExcluded spec)
  | window spec => Settings.setWindow spec
  | ports spec => modify fun s => { s with ports := spec }
  | mode m => modify fun s => { s with mode := m }
  | ping b => modify fun s => { s with ping := b }
  | name text => modify fun s => { s with name := text }
  | debug b => modify fun s => { s with debug := b }
  | clamp => modify (·.clamped)

/-- The settings that a call leaves behind, refused or not. -/
def apply (c : Change) (s : Settings) : Settings := (c.run.run.run s).2

end Change

def Settings.after (s : Settings) (cs : List Change) : Settings := cs.foldl (fun s c => c.apply s) s

end Recon
