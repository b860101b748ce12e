import Std.Data.HashSet
import Recon.Port.Table
import Recon.Text.Blank

/-!
# Port presets

Three named lists of ports, each in the order in which it is probed: essential services first, then
the ports that are open most often, then every other port in ascending order.
-/

namespace Recon.Port

open Recon.Text

def all : List Port := (List.range' 1 65535).map UInt16.ofNat

/-- The ports of a list that are in none of the taken ones, in the order of the list. -/
def without (ports : List Port) (taken : List Port) : List Port :=
  let set := Std.HashSet.ofList taken
  ports.filter fun p => !set.contains p

def top1000 : List Port :=
  let first := essential.filter frequent.contains
  first ++ without frequent first

/-- The essential ports, filled up from the frequent ones to two hundred. -/
def top200 : List Port :=
  (essential ++ (without top1000 essential).take (200 - essential.length)).take 200

/-- The thousand most frequent ports and the four thousand lowest others. -/
def top5000 : List Port := top1000 ++ (without all top1000).take 4000

end Recon.Port

namespace Recon

open Recon.Text

inductive Preset where
  | top200
  | top1000
  | top5000
deriving DecidableEq, Repr, Inhabited

namespace Preset

def all : List Preset := [.top200, .top1000, .top5000]

def name : Preset → String
  | .top200 => "top200"
  | .top1000 => "top1000"
  | .top5000 => "top5000"

def ports : Preset → List Port
  | .top200 => Port.top200
  | .top1000 => Port.top1000
  | .top5000 => Port.top5000

def read (cs : List Char) : Option Preset :=
  let name := String.ofList ((trim cs).map Char.toLower)
  all.find? fun p => p.name == name

def ofName? (s : String) : Option Preset := read s.toList

end Preset

end Recon
