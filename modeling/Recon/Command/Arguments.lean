import Recon.Settings.Engine

/-!
# Arguments of the command line

The options that the program knows, how a list of arguments is taken apart, and what task the
options ask for.  An option with a value takes it from the same argument, behind its letter or an
equals sign, or else from the next argument, and its value is checked only when the next option is
met or the arguments end; so an unknown argument right behind a bad value is what is reported.
-/

namespace Recon.Command

inductive Flag where
  | target
  | exclude
  | ports
  | mode
  | rate
  | timeout
  | ping
  | poolPing
  | poolScan
  | poolFinger
  | excludeTime
  | config
  | ulimit
  | noProgress
  | debug
  | help
  | version
deriving DecidableEq, Repr

namespace Flag

def all : List Flag :=
  [.target, .exclude, .ports, .mode, .rate, .timeout, .ping, .poolPing, .poolScan, .poolFinger,
    .excludeTime, .config, .ulimit, .noProgress, .debug, .help, .version]

def name : Flag → String
  | .target => "target"
  | .exclude => "exclude"
  | .ports => "ports"
  | .mode => "mode"
  | .rate => "rate"
  | .timeout => "timeout"
  | .ping => "ping"
  | .poolPing => "pool-ping"
  | .poolScan => "pool-scan"
  | .poolFinger => "pool-finger"
  | .excludeTime => "exclude-time"
  | .config => "config"
  | .ulimit => "ulimit"
  | .noProgress => "no-progress"
  | .debug => "debug"
  | .help => "help"
  | .version => "version"

def letter? : Flag → Option Char
  | .target => some 't'
  | .exclude => some 'e'
  | .ports => some 'p'
  | .mode => some 'm'
  | .rate => some 'r'
  | .config => some 'c'
  | .ulimit => some 'u'
  | .debug => some 'd'
  | .help => some 'h'
  | .version => some 'V'
  | _ => none

def takesValue : Flag → Bool
  | .ping | .noProgress | .debug | .help | .version => false
  | _ => true

def ofName? (name : List Char) : Option Flag := all.find? fun f => f.name.toList == name

def ofLetter? (c : Char) : Option Flag := all.find? fun f => f.letter? == some c

end Flag

inductive UsageFault where
  | missingRequired
  | unknownArgument
  | invalidValue
  | valueValidation
  | repeated
  | tooManyValues
  | help
  | version
deriving DecidableEq, Repr

def modeNames : List String := ["syn", "connect", "tcp"]

def readLarge (s : String) : Option UInt64 :=
  ((Text.readNumber (UInt64.size - 1) s.toList).toOption).map UInt64.ofNat

/-- A number of thirty-two bits.  It is read as a signed number, so zero may have a minus sign. -/
def readSmall (s : String) : Option UInt32 :=
  let n :=
    match s.toList with
    | '-' :: [] => none
    | '-' :: '+' :: _ => none
    | '-' :: rest => (Text.readNumber 0 rest).toOption
    | cs => (Text.readNumber (UInt32.size - 1) cs).toOption
  n.map UInt32.ofNat

def checkValue (f : Flag) (s : String) : Except UsageFault Unit :=
  match f with
  | .mode => if s ∈ modeNames then .ok () else .error .invalidValue
  | .rate => if (readSmall s).isSome then .ok () else .error .valueValidation
  | .timeout | .poolPing | .poolScan | .poolFinger | .ulimit =>
    if (readLarge s).isSome then .ok () else .error .valueValidation
  | _ => .ok ()

structure Reading where
  taken : List (Flag × String)
  pending : Option (Flag × Option String)
deriving DecidableEq, Repr

namespace Reading

def take (r : Reading) (f : Flag) (value : Option String) : Except UsageFault Reading :=
  if f.takesValue ∧ value = none then .error .invalidValue
  else if f = .help then .error .help
  else if f = .version then .error .version
  else if r.taken.any fun t => t.1 == f then .error .repeated
  else
    (checkValue f (value.getD "")).map fun _ => { r with taken := r.taken ++ [(f, value.getD "")] }

def settle (r : Reading) : Except UsageFault Reading :=
  match r.pending with
  | some (f, value) => take { r with pending := none } f value
  | none => .ok r

def meet (r : Reading) (f : Flag) (value : Option String) : Except UsageFault Reading := do
  -- only now is the value of the option before this one checked
  let r ← r.settle
  if f.takesValue ∧ value = none then return { r with pending := some (f, none) }
  r.take f value

def isWaiting (r : Reading) : Bool :=
  match r.pending with
  | some (_, none) => true
  | _ => false

def letters (r : Reading) : List Char → Except UsageFault Reading
  | [] => .ok r
  | c :: cs =>
    match Flag.ofLetter? c with
    | none => .error .unknownArgument
    | some f =>
      if f.takesValue then
        match cs with
        | [] => r.meet f none
        | '=' :: cs => r.meet f (some (String.ofList cs))
        | cs => r.meet f (some (String.ofList cs))
      else
        match r.meet f none with
        | .error e => .error e
        | .ok r => letters r cs

def long (r : Reading) (cs : List Char) : Except UsageFault Reading :=
  let (name, value) :=
    match Text.cut '=' cs with
    | some (name, value) => (name, some (String.ofList value))
    | none => (cs, none)
  match Flag.ofName? name with
  -- a fault of the option before this one is not reported any more
  | none => .error .unknownArgument
  | some f =>
    if !f.takesValue && value.isSome then .error .tooManyValues else r.meet f value

def plain (r : Reading) (arg : String) : Except UsageFault Reading :=
  match r.pending with
  | some (f, none) => .ok { r with pending := some (f, some arg) }
  | _ => .error .unknownArgument

/-- Takes all arguments.  None may follow two dashes that stand alone. -/
def args (r : Reading) : List String → Except UsageFault Reading
  | [] => r.settle
  | arg :: rest =>
    match arg.toList with
    | ['-', '-'] => if rest.isEmpty then r.settle else .error .unknownArgument
    | '-' :: '-' :: cs =>
      match r.long cs with
      | .ok r => args r rest
      | .error e => .error e
    | '-' :: c :: cs =>
      match r.letters (c :: cs) with
      | .ok r => args r rest
      | .error e => .error e
    | _ =>
      match r.plain arg with
      | .ok r => args r rest
      | .error e => .error e

def value? (r : Reading) (f : Flag) : Option String :=
  (r.taken.find? fun t => t.1 == f).map (·.2)

end Reading

structure Arguments where
  target : String
  exclude : Option String
  ports : Option String
  mode : Option ScanMode
  rate : Option UInt32
  timeout : Option UInt64
  ping : Bool
  poolPing : Option UInt64
  poolScan : Option UInt64
  poolFinger : Option UInt64
  excludeTime : Option String
  config : Option String
  ulimit : Option UInt64
  noProgress : Bool
  debug : Bool
deriving DecidableEq, Repr

namespace Arguments

def read (args : List String) : Except UsageFault Arguments := do
  let r ← Reading.args ⟨[], none⟩ args
  let large := fun f => (r.value? f).bind readLarge
  let isSet := fun f => (r.value? f).isSome
  match r.value? .target with
  | none => .error .missingRequired
  | some target =>
    return ⟨target, r.value? .exclude, r.value? .ports, (r.value? .mode).map ScanMode.ofText,
      (r.value? .rate).bind readSmall, large .timeout, isSet .ping, large .poolPing,
      large .poolScan, large .poolFinger, r.value? .excludeTime, r.value? .config, large .ulimit,
      isSet .noProgress, isSet .debug⟩

def apply {α : Type} (change : Settings → α → Settings) (value : Option α) (s : Settings) :
    Settings :=
  match value with
  | some a => change s a
  | none => s

/-- The settings of a configuration with the changes that the arguments ask for, but for the
window. -/
def amend (a : Arguments) (s : Settings) : Settings :=
  let s := apply Settings.withExcluded a.exclude s
  let s := apply (fun s p => { s with ports := p }) a.ports s
  let s := apply (fun s m => { s with mode := m }) a.mode s
  let s := apply Settings.withRate a.rate s
  let s := apply Settings.withTimeout a.timeout s
  let s := { s with ping := s.ping || a.ping }
  let s := apply Settings.withPingPool a.poolPing s
  let s := apply Settings.withScanPool a.poolScan s
  let s := apply Settings.withFingerPool a.poolFinger s
  { s with debug := s.debug || a.debug }

def settings (a : Arguments) (e : EngineSettings) : Except Error Settings :=
  let s := a.amend (e.newTask a.target)
  let s := match a.excludeTime with
    | some spec => (s.withWindow spec).mapError WindowFault.toError
    | none => .ok s
  match s with
  | .error f => .error f
  | .ok s => (s.validate.mapError Settings.Fault.toError).map fun _ => s

def engine? (a : Arguments) (named home : Option String) : Option EngineSettings :=
  let engine :=
    match a.config with
    | some _ => named.bind EngineSettings.ofToml?
    | none => some (EngineSettings.ofHome home)
  engine.map fun e => { e with debug := e.debug || a.debug }

end Arguments

end Recon.Command
