import Hazard.Explore
import Hazard.Location
import Hazard.Worded
import Hazard.FlowGraph.Basic
import Hazard.FlowGraph.Dominance
import Hazard.FlowGraph.ExitPath
import Hazard.Decimal.Binary
import Hazard.Decimal.Digits
import Hazard.Decimal.Layout
import Hazard.Number
import Hazard.Text.CharSet
import Hazard.Text.Blank
import Hazard.Text.Digit
import Hazard.Text.Letter
import Hazard.Text.Name
import Hazard.Text.CharacterName
import Hazard.Text.Printable
import Hazard.Text.Case
import Hazard.Text.Order
import Hazard.Text.Quoted
import Hazard.Text.Numeral
import Hazard.Value.Basic
import Hazard.Value.Text
import Hazard.Waiver
import Hazard.Model.Entity
import Hazard.Model.Query
import Hazard.Model.Memo
import Hazard.Document.Error
import Hazard.Document.Place
import Hazard.Document.Field
import Hazard.Document.Reader
import Hazard.Pattern.Basic
import Hazard.Pattern.Search
import Hazard.Pattern.Error
import Hazard.Pattern.Parser
import Hazard.Diagnostic
import Hazard.Fault
import Hazard.Rule.Basic
import Hazard.Rule.Race
import Hazard.Rule.Scaling
import Hazard.Rule.Time
import Hazard.Rule.Table
import Hazard.Config.Error
import Hazard.Config.Catalog
import Hazard.Config.Basic
import Hazard.Engine.Notice
import Hazard.Engine.Ingest
import Hazard.Engine.Schedule
import Hazard.Engine.Pass
import Hazard.Engine.Analysis
import Hazard.Report.Json
import Hazard.Report.Basic
import Hazard.Yaml.Cursor
import Hazard.Yaml.Error
import Hazard.Yaml.ScalarText
import Hazard.Yaml.Token
import Hazard.Yaml.Node
import Hazard.Yaml.Plain
import Hazard.Yaml.Load
import Hazard.Text.Utf8
import Hazard.Files.Basic
import Hazard.Files.Tree
import Hazard.Engine.DocumentFile
import Hazard.Config.File
import Hazard.CommandLine.Word
import Hazard.CommandLine.Invocation
import Hazard.CommandLine.Run
import Hazard.Main
import Hazard.Proofs.Explore
import Hazard.Proofs.Explore.Layers
import Hazard.Proofs.FlowGraph.Path
import Hazard.Proofs.FlowGraph.Dominance
import Hazard.Proofs.LockState
import Hazard.Proofs.Engine.Interruption
import Hazard.Proofs.Except
import Hazard.Proofs.Rule.Origin
import Hazard.Proofs.Config.Enabled
import Hazard.Proofs.Pattern.Names
import Hazard.Proofs.Engine.Verdict
import Hazard.Proofs.Engine.Workers
import Hazard.Proofs.Text.Order
import Hazard.Proofs.Diagnostic.Sorted
import Hazard.Proofs.Rule.Reads
import Hazard.Proofs.Engine.Undisturbed
import Hazard.Proofs.Engine.UnitOrder
import Hazard.Proofs.Engine.Isolation
import Hazard.Proofs.Engine.Independence
import Hazard.Proofs.Engine.Suppression
import Hazard.Proofs.Document.Written
import Hazard.Proofs.Document.RoundTrip
import Hazard.Proofs.Document.Breakdown
import Hazard.Proofs.Document.Collections
import Hazard.Proofs.Config.Thresholds
import Hazard.Proofs.FlowGraph.ExitPath
import Hazard.Proofs.FlowGraph.ParentSearch
import Hazard.Proofs.Rule.Returns
import Hazard.Proofs.Engine.Faultless
import Hazard.Proofs.Number
import Hazard.Proofs.Config.Refusal
import Hazard.Proofs.Config.Loading
import Hazard.Proofs.Config.Composition
import Hazard.Proofs.Model.Calls
import Hazard.Proofs.Rule.Sites
import Hazard.Proofs.Rule.MoreTasks
import Hazard.Proofs.Rule.Monotone
import Hazard.Proofs.Rule.SharedAccess
import Hazard.Proofs.Rule.HandlerAccess
import Hazard.Proofs.Rule.LeakedReturn
import Hazard.Proofs.Rule.StoreAfterMiss
import Hazard.Proofs.Rule.UnstoppedTimer
import Hazard.Proofs.LiveCode
import Hazard.Proofs.Document.PlaceRoundTrip
import Hazard.Proofs.Rule.RepeatedNames
import Hazard.Proofs.Rule.DeadAccess
import Hazard.Proofs.Rule.LostReading
import Hazard.Proofs.Model.CallSearch
import Hazard.Proofs.Model.Remembered
