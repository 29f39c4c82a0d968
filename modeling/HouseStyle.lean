import HouseStyle.CommandLine.Command
import HouseStyle.CommandLine.Run
import HouseStyle.CommandLine.Words
import HouseStyle.Convention.Basic
import HouseStyle.Convention.Observed
import HouseStyle.Convention.Saved
import HouseStyle.Count
import HouseStyle.EntryName
import HouseStyle.Grammar.Cut
import HouseStyle.Grammar.Form
import HouseStyle.Grammar.GoForms
import HouseStyle.Grammar.GoReader
import HouseStyle.Grammar.GoTokens
import HouseStyle.Grammar.PythonForms
import HouseStyle.Grammar.PythonReader
import HouseStyle.Grammar.PythonTokens
import HouseStyle.Grammar.Reading
import HouseStyle.Grammar.RustForms
import HouseStyle.Grammar.RustReader
import HouseStyle.Grammar.RustTokens
import HouseStyle.Grammar.Token
import HouseStyle.Grammar.Tree
import HouseStyle.Grammar.Walk
import HouseStyle.Json.Document
import HouseStyle.Json.Shape
import HouseStyle.Json.Value
import HouseStyle.Json.Writer
import HouseStyle.Language
import HouseStyle.Main
import HouseStyle.Number.Reading
import HouseStyle.Number.Scalar
import HouseStyle.Number.Shortest
import HouseStyle.Number.Text
import HouseStyle.Overview.Advice
import HouseStyle.Overview.Basic
import HouseStyle.Overview.Comparison
import HouseStyle.Overview.Saved
import HouseStyle.Path
import HouseStyle.Profile.Basic
import HouseStyle.Profile.Maturity
import HouseStyle.Profile.Rules
import HouseStyle.Profile.Saved
import HouseStyle.Profile.Strictness
import HouseStyle.Project.Disk
import HouseStyle.Project.Fault
import HouseStyle.Project.Glob
import HouseStyle.Project.Learn
import HouseStyle.Project.Tree
import HouseStyle.Proofs.CommandLine.Adaptation
import HouseStyle.Proofs.CommandLine.AdaptedOverview
import HouseStyle.Proofs.CommandLine.Failure
import HouseStyle.Proofs.CommandLine.Session
import HouseStyle.Proofs.CommandLine.Slots
import HouseStyle.Proofs.Convention.Bounds
import HouseStyle.Proofs.Convention.Catalog
import HouseStyle.Proofs.Convention.Confidence
import HouseStyle.Proofs.Convention.Evidence
import HouseStyle.Proofs.Convention.Floor
import HouseStyle.Proofs.Convention.Naming
import HouseStyle.Proofs.Convention.Shown
import HouseStyle.Proofs.Count
import HouseStyle.Proofs.EntryName
import HouseStyle.Proofs.Grammar.Nesting
import HouseStyle.Proofs.Grammar.Visits
import HouseStyle.Proofs.Grammar.Walk
import HouseStyle.Proofs.Json.Numeral
import HouseStyle.Proofs.Json.Quoted
import HouseStyle.Proofs.Json.Readable
import HouseStyle.Proofs.Json.Shape
import HouseStyle.Proofs.Json.Spelling
import HouseStyle.Proofs.Json.WholeNumber
import HouseStyle.Proofs.Number.Binary
import HouseStyle.Proofs.Number.BinaryCounts
import HouseStyle.Proofs.Number.Capped
import HouseStyle.Proofs.Number.DecimalFraction
import HouseStyle.Proofs.Number.Exact
import HouseStyle.Proofs.Number.Laws
import HouseStyle.Proofs.Number.Order
import HouseStyle.Proofs.Number.Packing
import HouseStyle.Proofs.Number.Rounding
import HouseStyle.Proofs.Overview.Bounds
import HouseStyle.Proofs.Overview.Comparisons
import HouseStyle.Proofs.Overview.Consistency
import HouseStyle.Proofs.Overview.Improvement
import HouseStyle.Proofs.Overview.Index
import HouseStyle.Proofs.Overview.Rules
import HouseStyle.Proofs.Profile.Approach
import HouseStyle.Proofs.Profile.Bounds
import HouseStyle.Proofs.Profile.Maturity
import HouseStyle.Proofs.Profile.Overlay
import HouseStyle.Proofs.Profile.Setting
import HouseStyle.Proofs.Profile.Strictness
import HouseStyle.Proofs.Project.Along
import HouseStyle.Proofs.Project.Checked
import HouseStyle.Proofs.Project.HiddenState
import HouseStyle.Proofs.Project.Ignored
import HouseStyle.Proofs.Project.Inventory
import HouseStyle.Proofs.Project.Listed
import HouseStyle.Proofs.Project.Loadable
import HouseStyle.Proofs.Project.NewDirectories
import HouseStyle.Proofs.Project.Outcome
import HouseStyle.Proofs.Project.Place
import HouseStyle.Proofs.Project.Restriction
import HouseStyle.Proofs.Project.Schedule
import HouseStyle.Proofs.Project.SharedScan
import HouseStyle.Proofs.Project.Unextractable
import HouseStyle.Proofs.Project.Unread
import HouseStyle.Proofs.Project.Walk
import HouseStyle.Proofs.Project.Way
import HouseStyle.Proofs.Project.Work
import HouseStyle.Proofs.Script.ClassBodies
import HouseStyle.Proofs.Script.Comments
import HouseStyle.Proofs.Script.DocComment
import HouseStyle.Proofs.Script.Extent
import HouseStyle.Proofs.Script.Guarded
import HouseStyle.Proofs.Script.Imports
import HouseStyle.Proofs.Script.Inside
import HouseStyle.Proofs.Script.Literals
import HouseStyle.Proofs.Script.OnePass
import HouseStyle.Proofs.Script.Recorded
import HouseStyle.Proofs.Script.Slices
import HouseStyle.Proofs.Settings.Check
import HouseStyle.Proofs.Snapshot.Contents
import HouseStyle.Proofs.Snapshot.Interference
import HouseStyle.Proofs.Snapshot.Kept
import HouseStyle.Proofs.Snapshot.Race
import HouseStyle.Proofs.Snapshot.Ranges
import HouseStyle.Proofs.Snapshot.Resaving
import HouseStyle.Proofs.Snapshot.RoundTrip
import HouseStyle.Proofs.Snapshot.Save
import HouseStyle.Proofs.SortedMap
import HouseStyle.Proofs.Survey.Documentation
import HouseStyle.Proofs.Survey.FileOrder
import HouseStyle.Proofs.Survey.Found
import HouseStyle.Proofs.Survey.InStep
import HouseStyle.Proofs.Survey.Measure
import HouseStyle.Proofs.Survey.Metrics
import HouseStyle.Proofs.Survey.NamingStyle
import HouseStyle.Proofs.Survey.Steps
import HouseStyle.Proofs.Tally
import HouseStyle.Proofs.Tally.Recording
import HouseStyle.Proofs.Text.ByteOrder
import HouseStyle.Proofs.Text.Expression
import HouseStyle.Proofs.Text.Lines
import HouseStyle.Proofs.Text.Utf8
import HouseStyle.Report.Piece
import HouseStyle.Report.Results
import HouseStyle.Script.Forms
import HouseStyle.Script.Lookahead
import HouseStyle.Script.Reader
import HouseStyle.Script.Scanner
import HouseStyle.Settings.Basic
import HouseStyle.Settings.Check
import HouseStyle.Settings.Discover
import HouseStyle.Settings.Saved
import HouseStyle.Snapshot.Check
import HouseStyle.Snapshot.Store
import HouseStyle.SortedMap
import HouseStyle.Survey.Extract
import HouseStyle.Survey.Facts
import HouseStyle.Survey.LanguageFacts
import HouseStyle.Survey.Layout
import HouseStyle.Survey.Measure
import HouseStyle.Survey.Metrics
import HouseStyle.Survey.Names
import HouseStyle.Survey.NamingStyle
import HouseStyle.Tally
import HouseStyle.Text.Expression
import HouseStyle.Text.Lines
import HouseStyle.Text.Quoted
import HouseStyle.Text.Utf8
import HouseStyle.Text.Word
import HouseStyle.Yaml.Reader
import HouseStyle.Yaml.Scalar
import HouseStyle.Yaml.Value
import HouseStyle.Yaml.Writer
