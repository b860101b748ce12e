import Recon.Command.Arguments

/-!
# Usage of the program

What the program tells someone whose arguments it does not take.
-/

namespace Recon.Command

def UsageFault.message : UsageFault → String
  | .missingRequired => "a required argument is missing"
  | .unknownArgument => "an argument is unknown"
  | .invalidValue => "a value is not among those allowed"
  | .valueValidation => "a value is not a number in range"
  | .repeated => "an option is given twice"
  | .tooManyValues => "an option has a value that it cannot take"
  | .help => "usage"
  | .version => "version"

def Flag.usage (f : Flag) : String :=
  let short :=
    match f.letter? with
    | some c => String.ofList ['-', c, ',', ' ']
    | none => ""
  short ++ "--" ++ f.name ++ if f.takesValue then " <value>" else ""

def usage : List String := Flag.all.map fun f => "  " ++ f.usage

end Recon.Command
