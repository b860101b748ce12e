import Recon.Probe.Mode
import Recon.Schedule.Window

/-!
# Settings of a task

What a task is asked to do.  Every number has bounds: a setter clamps its argument into them, and
`clamped` does so for all numbers at once, which is how settings from a document are made safe.
Only the window is refused when its text is wrong.
-/

namespace Recon

structure PoolSizes where
  ping : UInt64
  scan : UInt64
  finger : UInt64
deriving DecidableEq, Repr

structure Settings where
  location : String
  name : String
  target : String
  excluded : String
  ports : String
  mode : ScanMode
  /-- Probes a second. -/
  rate : UInt32
  /-- Milliseconds that a probe waits for its answer. -/
  timeout : UInt64
  pool : PoolSizes
  ping : Bool
  httpx : Bool
  screenshot : Bool
  report : Bool
  window : Option Window
  debug : Bool
deriving DecidableEq, Repr

structure Bounds (α : Type) where
  lo : α
  hi : α

def Bounds.clamp {α : Type} [Max α] [Min α] (b : Bounds α) (x : α) : α := min (max x b.lo) b.hi

namespace Settings

def defaultPool : PoolSizes := ⟨10, 10, 50⟩

def default : Settings where
  location := ""
  name := ""
  target := ""
  excluded := ""
  ports := "top1000"
  mode := .connect
  rate := 500
  timeout := 800
  pool := defaultPool
  ping := false
  httpx := false
  screenshot := false
  report := false
  window := none
  debug := false

instance : Inhabited Settings := ⟨default⟩

def ofTarget (target : String) : Settings := { default with target }

/-- Probes a second. -/
def rateBounds : Bounds UInt32 := ⟨1, 1000⟩

/-- Milliseconds of a probe. -/
def timeoutBounds : Bounds UInt64 := ⟨100, 10000⟩

def pingBounds : Bounds UInt64 := ⟨1, 1000⟩

def scanBounds : Bounds UInt64 := ⟨1, 500⟩

def fingerBounds : Bounds UInt64 := ⟨1, 500⟩

def withRate (s : Settings) (n : UInt32) : Settings := { s with rate := rateBounds.clamp n }

def withTimeout (s : Settings) (n : UInt64) : Settings :=
  { s with timeout := timeoutBounds.clamp n }

def withPingPool (s : Settings) (n : UInt64) : Settings :=
  { s with pool.ping := pingBounds.clamp n }

def withScanPool (s : Settings) (n : UInt64) : Settings :=
  { s with pool.scan := scanBounds.clamp n }

def withFingerPool (s : Settings) (n : UInt64) : Settings :=
  { s with pool.finger := fingerBounds.clamp n }

def withPool (s : Settings) (p : PoolSizes) : Settings :=
  ((s.withPingPool p.ping).withScanPool p.scan).withFingerPool p.finger

def withExcluded (s : Settings) (spec : String) : Settings :=
  { s with excluded := String.ofList (Text.trim spec.toList) }

def isBlankText (s : String) : Bool := (Text.trim s.toList).isEmpty

def withWindow (s : Settings) (spec : String) : Except WindowFault Settings :=
  if isBlankText spec then .ok { s with window := none }
  else
    match Window.ofString spec with
    | .ok w => .ok { s with window := some w }
    | .error f => .error f

/-- The settings with every number clamped into its bounds. -/
def clamped (s : Settings) : Settings := ((s.withRate s.rate).withTimeout s.timeout).withPool s.pool

inductive Fault where
  | noTarget
  | noRate
  | emptyPool
deriving DecidableEq, Repr

def Fault.message : Fault → String
  | .noTarget => "target cannot be empty"
  | .noRate => "rate must be greater than 0"
  | .emptyPool => "pool sizes must be at least 1"

def Fault.toError (f : Fault) : Error := ⟨.config, f.message⟩

def validate (s : Settings) : Except Fault Unit :=
  if isBlankText s.target then .error .noTarget
  else if s.rate = 0 then .error .noRate
  else if s.pool.ping = 0 ∨ s.pool.scan = 0 ∨ s.pool.finger = 0 then .error .emptyPool
  else .ok ()

def scannerOption (s : Settings) : ScannerOption := ⟨s.rate.toNat, s.timeout.toNat⟩

end Settings

end Recon
