import Recon.Data.Value
import Recon.Schedule.Window

/-!
# Windows in documents

A window is a record of three texts, which are read as the parts of its one-line text are.
-/

namespace Recon

open Recon.Data

def Window.fieldNames : List String := ["daily", "begin", "end"]

def Window.ofValue? (style : Convention) (v : Value) : Option Window := do
  let fields ← v.fields? style fieldNames
  let name ← required fields "daily" Value.text?
  let start ← required fields "begin" Value.text?
  let stop ← required fields "end" Value.text?
  (Window.ofParts name.toList start.toList stop.toList).toOption

def Window.toValue (w : Window) : Value :=
  .record [("daily", .text w.recurrence.name), ("begin", .text (String.ofList w.start.write)),
    ("end", .text (String.ofList w.stop.write))]

end Recon
