import Recon.Address.Basic
import Recon.Address.Text
import Recon.Command.Arguments
import Recon.Command.Run
import Recon.Command.Usage
import Recon.Data.Canonical
import Recon.Data.Json
import Recon.Data.Toml.Document
import Recon.Data.Toml.Scalar
import Recon.Data.Toml.Table
import Recon.Data.Value
import Recon.Error
import Recon.Main
import Recon.Network.Inquiry
import Recon.Network.Liveness
import Recon.Network.Machine
import Recon.Network.SystemFault
import Recon.Number.Double
import Recon.Port.Order
import Recon.Port.Preset
import Recon.Port.Sequence
import Recon.Port.Spec
import Recon.Port.Table
import Recon.Probe.Mode
import Recon.Random.Draw
import Recon.Random.KeyStream
import Recon.Random.Traversal
import Recon.Random.Word
import Recon.Rate.Bucket
import Recon.Rate.Limiter
import Recon.Rate.Meter
import Recon.Rehearsal.Crew
import Recon.Rehearsal.Performance
import Recon.Rehearsal.Record
import Recon.Rehearsal.Script
import Recon.Rehearsal.Station
import Recon.Rehearsal.Surroundings
import Recon.Rehearsal.Time
import Recon.Report.Endpoint
import Recon.Report.Service
import Recon.Scanner.Connect
import Recon.Scanner.HalfOpen
import Recon.Schedule.Reading
import Recon.Schedule.Record
import Recon.Schedule.Window
import Recon.Settings.Basic
import Recon.Settings.Change
import Recon.Settings.Engine
import Recon.Settings.Record
import Recon.Station.Callers
import Recon.Station.Incident
import Recon.Station.Slot
import Recon.Target.Block
import Recon.Target.Exclusion
import Recon.Target.Space
import Recon.Task.Identifier
import Recon.Task.Info
import Recon.Task.Monitor
import Recon.Task.Plan
import Recon.Task.Pool
import Recon.Task.SharedPool
import Recon.Task.Snapshot
import Recon.Task.State
import Recon.Task.Status
import Recon.Task.Step
import Recon.Text.Blank
import Recon.Text.Digits
import Recon.Text.Split
import Recon.Time.Clock
import Recon.Time.Date
import Recon.Time.Stamp
import Recon.Wire.Bytes
import Recon.Wire.Echo
import Recon.Wire.Segment
import Recon.Proofs.List.Sum
import Recon.Proofs.Port.Order
import Recon.Proofs.Random.Traversal
import Recon.Proofs.Random.Drawn
import Recon.Proofs.Scanner.Move
import Recon.Proofs.Scanner.Reports
import Recon.Proofs.Scanner.Release
import Recon.Proofs.Target.Block
import Recon.Proofs.Target.Exclusion
import Recon.Proofs.Target.Union
import Recon.Proofs.Task.Conservation
import Recon.Proofs.Task.Coverage
import Recon.Proofs.Task.Dispatch
import Recon.Proofs.Task.Journal
import Recon.Proofs.Task.Ledger
import Recon.Proofs.Task.Move
import Recon.Proofs.Task.Order
import Recon.Proofs.Task.Plan
import Recon.Proofs.Task.Pool
import Recon.Proofs.Task.Run
import Recon.Proofs.Task.Control
import Recon.Proofs.Task.Cancellation
import Recon.Proofs.Task.Repetition
import Recon.Proofs.Task.Silence
import Recon.Proofs.Task.Setup
import Recon.Proofs.Task.Rest
import Recon.Proofs.Task.Gate
import Recon.Proofs.Station.Move
import Recon.Proofs.Station.Occupancy
import Recon.Proofs.Station.Happening
import Recon.Proofs.Station.Inquiry
import Recon.Proofs.Settings.Clamp
import Recon.Proofs.Settings.Origin
import Recon.Target.Word
import Recon.Proofs.List.Ascending
import Recon.Proofs.Text.Split
import Recon.Proofs.Text.Digits
import Recon.Proofs.Address.Text
import Recon.Proofs.Port.Preset
import Recon.Proofs.Port.Spec
import Recon.Proofs.Port.Expansion
import Recon.Proofs.Target.Item
import Recon.Proofs.Target.Index
import Recon.Proofs.Scanner.Decision
import Recon.Proofs.Wire.Number
import Recon.Proofs.Wire.Checksum
import Recon.Proofs.Wire.Segment
import Recon.Wire.Access
import Recon.Proofs.Wire.Access
import Recon.Proofs.Wire.Reply
import Recon.Proofs.Wire.Echo
import Recon.Proofs.Rate.Demand
import Recon.Proofs.Rate.Admission
import Recon.Proofs.Schedule.Activity
import Recon.Proofs.Port.Sequence
import Recon.Proofs.Data.Json
import Recon.Proofs.Time.Clock
import Recon.Proofs.Schedule.Text
import Recon.Proofs.Data.Record
import Recon.Proofs.Settings.Document
import Recon.Proofs.List.Traverse
import Recon.Proofs.Target.Composition
import Recon.Proofs.Port.Grammar
import Recon.Proofs.Network.Liveness
import Recon.Proofs.Task.SharedPool
import Recon.Proofs.Task.Discipline
import Recon.Proofs.Rehearsal.Crew
