import BuildHooks.CommandLine.Help
import BuildHooks.CommandLine.Parse
import BuildHooks.CommandLine.Settings
import BuildHooks.Decimal.Binary64
import BuildHooks.Decimal.Notation
import BuildHooks.Decimal.Shortest
import BuildHooks.Dispatch.Basic
import BuildHooks.Dispatch.Exposition
import BuildHooks.Dispatch.Measured
import BuildHooks.Endpoint
import BuildHooks.Event.Basic
import BuildHooks.Event.Builtin
import BuildHooks.Event.Page
import BuildHooks.Event.Path
import BuildHooks.Event.Registry
import BuildHooks.Event.Sample
import BuildHooks.Event.Task
import BuildHooks.Event.Template
import BuildHooks.Failure
import BuildHooks.Host.Config
import BuildHooks.Host.Credentials
import BuildHooks.Host.Der
import BuildHooks.Host.Files
import BuildHooks.Host.Pem
import BuildHooks.Host.Server
import BuildHooks.Host.Serving
import BuildHooks.Host.Serving.Course
import BuildHooks.Host.Site
import BuildHooks.Host.Step
import BuildHooks.Http.Encoding
import BuildHooks.Http.Gzip
import BuildHooks.Http.Identifier
import BuildHooks.Http.Message
import BuildHooks.Http.Origin
import BuildHooks.Http.Route
import BuildHooks.Http.Target
import BuildHooks.Http.Wire
import BuildHooks.Job.Basic
import BuildHooks.Job.Catalog
import BuildHooks.Job.Codec
import BuildHooks.Json.Basic
import BuildHooks.Json.Fault
import BuildHooks.Json.Indented
import BuildHooks.Json.Numeral
import BuildHooks.Json.Passing
import BuildHooks.Json.Printer
import BuildHooks.Json.Reader
import BuildHooks.Json.Record
import BuildHooks.Json.Slot
import BuildHooks.Json.StringReader
import BuildHooks.Lifecycle
import BuildHooks.Log.Filter
import BuildHooks.Log.Format
import BuildHooks.Log.Record
import BuildHooks.Main
import BuildHooks.Payload.Document
import BuildHooks.Payload.Field
import BuildHooks.Program
import BuildHooks.Push.Basic
import BuildHooks.Push.Codec
import BuildHooks.Push.Extract
import BuildHooks.Scheduler
import BuildHooks.Text.Base64
import BuildHooks.Text.Blank
import BuildHooks.Text.CaseTable
import BuildHooks.Text.Cut
import BuildHooks.Text.Integer
import BuildHooks.Text.Lowercase
import BuildHooks.Text.Percent
import BuildHooks.Text.Quoted
import BuildHooks.Text.Styled
import BuildHooks.Text.Utf8
import BuildHooks.Text.VisibleTable
import BuildHooks.Proofs.Json.Fits
import BuildHooks.Proofs.Json.Numerals
import BuildHooks.Proofs.Json.Strings
import BuildHooks.Proofs.Task.Run
import BuildHooks.Proofs.Dispatch.Course
import BuildHooks.Proofs.Json.RoundTrip
import BuildHooks.Proofs.Payload.Field
import BuildHooks.Proofs.Event.Builtin
import BuildHooks.Proofs.Event.Handing
import BuildHooks.Proofs.Dispatch.DefaultCalls
import BuildHooks.Proofs.Json.Damage
import BuildHooks.Proofs.Host.Driving
import BuildHooks.Proofs.Host.DamagedBody
import BuildHooks.Proofs.Host.Sound
import BuildHooks.Proofs.Host.InFlight
import BuildHooks.Proofs.Event.Registered
import BuildHooks.Proofs.Lifecycle.History
import BuildHooks.Proofs.Dispatch.Digest
import BuildHooks.Proofs.Dispatch.Triggering
import BuildHooks.Proofs.Dispatch.Spelling
import BuildHooks.Proofs.Dispatch.Page
import BuildHooks.Proofs.Json.TooDeep
import BuildHooks.Proofs.Dispatch.Echo
import BuildHooks.Proofs.Host.Identified
import BuildHooks.Proofs.Text.Percent
import BuildHooks.Proofs.Task.Silent
import BuildHooks.Proofs.Host.TrailingSegments
import BuildHooks.Proofs.Dispatch.Tally
import BuildHooks.Proofs.Task.Yields
import BuildHooks.Proofs.Dispatch.Counted
import BuildHooks.Proofs.Decimal.Rounding
import BuildHooks.Proofs.Decimal.Shortest
import BuildHooks.Proofs.Json.Spelling
import BuildHooks.Proofs.Json.Stored
import BuildHooks.Proofs.Json.Passing
import BuildHooks.Proofs.Json.Slots
import BuildHooks.Proofs.Json.Records
import BuildHooks.Proofs.Push.Respelled
import BuildHooks.Proofs.Job.Respelled
import BuildHooks.Proofs.Host.Serving
import BuildHooks.Proofs.Job.Outcomes
import BuildHooks.Proofs.Text.Cut
import BuildHooks.Proofs.Push.Collection
import BuildHooks.Proofs.Push.Flat
import BuildHooks.Proofs.Text.Ends
import BuildHooks.Proofs.Job.Repository
import BuildHooks.Proofs.Event.Filling
import BuildHooks.Proofs.FirstWrong
import BuildHooks.Proofs.Job.Loading
import BuildHooks.Proofs.Payload.Following
import BuildHooks.Proofs.Payload.Checks
import BuildHooks.Proofs.Push.Checks
import BuildHooks.Proofs.Event.Markup
import BuildHooks.Proofs.Text.Escapes
import BuildHooks.Proofs.Host.Pathless
import BuildHooks.Proofs.Host.Escaped
import BuildHooks.Proofs.Task.Stateful
import BuildHooks.Proofs.Dispatch.Logged
import BuildHooks.Proofs.Json.Written
import BuildHooks.Proofs.Json.Local
import BuildHooks.Proofs.Dispatch.Numbers
import BuildHooks.Proofs.Payload.Routes
