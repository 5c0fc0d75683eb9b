import ScriptHost.Binding.Console
import ScriptHost.Binding.Conversion
import ScriptHost.Binding.Core
import ScriptHost.Binding.Function
import ScriptHost.Binding.Pool
import ScriptHost.Binding.Text
import ScriptHost.Calendar
import ScriptHost.CommandLine.Basic
import ScriptHost.CommandLine.Options
import ScriptHost.Fault
import ScriptHost.Files.Path
import ScriptHost.Files.Tree
import ScriptHost.Host.Basic
import ScriptHost.Host.Channels
import ScriptHost.Host.Display
import ScriptHost.Host.Renderer
import ScriptHost.Host.Terminal
import ScriptHost.Main
import ScriptHost.Mode
import ScriptHost.Namespace
import ScriptHost.Number.Binary
import ScriptHost.Number.Decimal
import ScriptHost.Proofs.Binding.Conserving
import ScriptHost.Proofs.Binding.Listening
import ScriptHost.Proofs.Binding.Looking
import ScriptHost.Proofs.Binding.Registering
import ScriptHost.Proofs.Binding.Splitting
import ScriptHost.Proofs.Binding.Tagging
import ScriptHost.Proofs.Files.Components
import ScriptHost.Proofs.Files.Lookup
import ScriptHost.Proofs.Files.Programs
import ScriptHost.Proofs.Files.Spots
import ScriptHost.Proofs.Host.Delivery
import ScriptHost.Proofs.Host.Pixels
import ScriptHost.Proofs.Host.Tables
import ScriptHost.Proofs.Host.Typing
import ScriptHost.Proofs.Namespace.Answers
import ScriptHost.Proofs.Namespace.Binding
import ScriptHost.Proofs.Namespace.Building
import ScriptHost.Proofs.Namespace.Capabilities
import ScriptHost.Proofs.Namespace.Freeze
import ScriptHost.Proofs.Namespace.Guarded
import ScriptHost.Proofs.Namespace.Handing
import ScriptHost.Proofs.Namespace.Helpers
import ScriptHost.Proofs.Namespace.Keepers
import ScriptHost.Proofs.Namespace.Keeping
import ScriptHost.Proofs.Namespace.Lasting
import ScriptHost.Proofs.Namespace.Passing
import ScriptHost.Proofs.Namespace.Safety
import ScriptHost.Proofs.Namespace.Sealed
import ScriptHost.Proofs.Namespace.Transparency
import ScriptHost.Proofs.Report.Bounds
import ScriptHost.Proofs.Report.Causes
import ScriptHost.Proofs.Report.Dumps
import ScriptHost.Proofs.Report.Emission
import ScriptHost.Proofs.Report.Inline
import ScriptHost.Proofs.Report.Lines
import ScriptHost.Proofs.Report.Recorded
import ScriptHost.Proofs.Report.Spelling
import ScriptHost.Proofs.Report.Unwrapping
import ScriptHost.Proofs.Report.Whereabouts
import ScriptHost.Proofs.Script.Activation
import ScriptHost.Proofs.Script.Attempts
import ScriptHost.Proofs.Script.Calls
import ScriptHost.Proofs.Script.Captures
import ScriptHost.Proofs.Script.Deeds
import ScriptHost.Proofs.Script.Instructions
import ScriptHost.Proofs.Script.Objects
import ScriptHost.Proofs.Script.Prelude
import ScriptHost.Proofs.Script.Table
import ScriptHost.Proofs.Script.Varargs
import ScriptHost.Proofs.Session.Cleanup
import ScriptHost.Proofs.Session.Closing
import ScriptHost.Proofs.Session.Course
import ScriptHost.Proofs.Session.Exit
import ScriptHost.Proofs.Session.Frames
import ScriptHost.Proofs.Session.History
import ScriptHost.Proofs.Session.Logging
import ScriptHost.Proofs.Session.Nesting
import ScriptHost.Proofs.Session.Passage
import ScriptHost.Proofs.Session.Recording
import ScriptHost.Proofs.Session.Resources
import ScriptHost.Proofs.Session.Signals
import ScriptHost.Proofs.Session.Sourcing
import ScriptHost.Proofs.Session.Work
import ScriptHost.Proofs.Settings.Grammar
import ScriptHost.Proofs.Settings.Members
import ScriptHost.Proofs.Settings.Numerals
import ScriptHost.Proofs.Settings.Objects
import ScriptHost.Proofs.Settings.Reading
import ScriptHost.Proofs.Settings.Skipping
import ScriptHost.Proofs.Settings.Spelled
import ScriptHost.Proofs.Settings.Survival
import ScriptHost.Proofs.Settings.Values
import ScriptHost.Proofs.Sharing.Aftermath
import ScriptHost.Proofs.Sharing.Crowd
import ScriptHost.Proofs.Sharing.Isolation
import ScriptHost.Proofs.Sharing.Ownership
import ScriptHost.Proofs.Sharing.Refusals
import ScriptHost.Proofs.Sharing.Terminals
import ScriptHost.Proofs.Stream.Sources
import ScriptHost.Proofs.Text.Lines
import ScriptHost.Proofs.Text.Utf8
import ScriptHost.Report.Basic
import ScriptHost.Report.Emit
import ScriptHost.Report.Layers
import ScriptHost.Script.Act
import ScriptHost.Script.Arith
import ScriptHost.Script.Builtin
import ScriptHost.Script.Code
import ScriptHost.Script.Emit
import ScriptHost.Script.Execute
import ScriptHost.Script.Heap
import ScriptHost.Script.Library
import ScriptHost.Script.Library.Arguments
import ScriptHost.Script.Library.Base
import ScriptHost.Script.Library.Clock
import ScriptHost.Script.Library.Coroutine
import ScriptHost.Script.Library.Format
import ScriptHost.Script.Library.Maths
import ScriptHost.Script.Library.Pack
import ScriptHost.Script.Library.Pattern
import ScriptHost.Script.Library.Strings
import ScriptHost.Script.Library.Tables
import ScriptHost.Script.Library.Texts
import ScriptHost.Script.Machine
import ScriptHost.Script.Naming
import ScriptHost.Script.Numeral
import ScriptHost.Script.Parse
import ScriptHost.Script.Scope
import ScriptHost.Script.Step
import ScriptHost.Script.Table
import ScriptHost.Script.Token
import ScriptHost.Script.Value
import ScriptHost.Session.Access
import ScriptHost.Session.Handle
import ScriptHost.Session.Holding
import ScriptHost.Session.Job
import ScriptHost.Session.Resources
import ScriptHost.Session.State
import ScriptHost.Settings.Basic
import ScriptHost.Settings.Json
import ScriptHost.Stream.Pipe
import ScriptHost.Stream.Reader
import ScriptHost.Stream.Writer
import ScriptHost.Text.Blank
import ScriptHost.Text.Bytes
import ScriptHost.Text.Printable
import ScriptHost.Text.Utf8
import ScriptHost.World
