/-!
# Failures of the engine

A failure has a kind and a detail.  Each part of the library names its own causes and words them;
`Error` is the form in which they reach a caller.
-/

namespace Recon

inductive ErrorKind where
  | network
  | permission
  | invalidTarget
  | portRange
  | timeout
  | config
  | io
  | parse
  | rateLimit
  | rawSocket
  | schedule
  | taskState
  | scannerClosed
deriving DecidableEq, Repr

def ErrorKind.isFatal : ErrorKind → Bool
  | .permission | .invalidTarget | .portRange | .config | .parse | .rawSocket | .schedule => true
  | .network | .timeout | .io | .rateLimit | .taskState | .scannerClosed => false

structure Error where
  kind : ErrorKind
  detail : String
deriving DecidableEq, Repr

def Error.isFatal (e : Error) : Bool := e.kind.isFatal

/-- The full wording.  A timeout, an exceeded rate and a closed scanner have nothing to add to
their kind. -/
def Error.message (e : Error) : String :=
  match e.kind with
  | .network => "Network error: " ++ e.detail
  | .permission => "Permission denied: " ++ e.detail
  | .invalidTarget => "Invalid target: " ++ e.detail
  | .portRange => "Port range error: " ++ e.detail
  | .timeout => "Timeout error"
  | .config => "Configuration error: " ++ e.detail
  | .io => "IO error: " ++ e.detail
  | .parse => "Parse error: " ++ e.detail
  | .rateLimit => "Rate limit exceeded"
  | .rawSocket => "Raw socket error: " ++ e.detail
  | .schedule => "Schedule error: " ++ e.detail
  | .taskState => "Task state error: " ++ e.detail
  | .scannerClosed => "scanner is closed"

def Error.closed : Error := ⟨.scannerClosed, ""⟩

end Recon
