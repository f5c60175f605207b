import MetricsBridge.Backend.Call
import MetricsBridge.Backend.Client
import MetricsBridge.Backend.Envelope
import MetricsBridge.Backend.Error
import MetricsBridge.Backend.Labels
import MetricsBridge.Backend.Options
import MetricsBridge.Backend.Plan
import MetricsBridge.Backend.Request
import MetricsBridge.Catalogue.Category
import MetricsBridge.Catalogue.Schema
import MetricsBridge.Catalogue.Tool
import MetricsBridge.CommandLine.Basic
import MetricsBridge.CommandLine.Startup
import MetricsBridge.Config.Basic
import MetricsBridge.Config.Load
import MetricsBridge.Config.OfJson
import MetricsBridge.Config.OfYaml
import MetricsBridge.Config.Preset
import MetricsBridge.Connection
import MetricsBridge.Json.Basic
import MetricsBridge.Json.Cursor
import MetricsBridge.Json.Decoder
import MetricsBridge.Json.Error
import MetricsBridge.Json.Numeral
import MetricsBridge.Json.Printer
import MetricsBridge.Json.Reader
import MetricsBridge.Json.Skip
import MetricsBridge.Main
import MetricsBridge.Number.Double
import MetricsBridge.Number.Literal
import MetricsBridge.Number.Shortest
import MetricsBridge.Program
import MetricsBridge.Proofs.Backend.Envelope
import MetricsBridge.Proofs.Backend.ErrorAnswer
import MetricsBridge.Proofs.Backend.Excerpt
import MetricsBridge.Proofs.Backend.Paths
import MetricsBridge.Proofs.Backend.Patience
import MetricsBridge.Proofs.Backend.Sending
import MetricsBridge.Proofs.Config.Overlay
import MetricsBridge.Proofs.Json.Decoder
import MetricsBridge.Proofs.Json.Lookup
import MetricsBridge.Proofs.Json.Members
import MetricsBridge.Proofs.Json.Numeral
import MetricsBridge.Proofs.Json.Readable
import MetricsBridge.Proofs.Json.RoundTrip
import MetricsBridge.Proofs.Json.Scalar
import MetricsBridge.Proofs.Json.Skip
import MetricsBridge.Proofs.Number.Digits
import MetricsBridge.Proofs.Number.Double
import MetricsBridge.Proofs.Number.Exact
import MetricsBridge.Proofs.Number.Finite
import MetricsBridge.Proofs.Number.Nearest
import MetricsBridge.Proofs.Number.Rendering
import MetricsBridge.Proofs.Number.Scientific
import MetricsBridge.Proofs.Server.Backtracking
import MetricsBridge.Proofs.Server.Calling
import MetricsBridge.Proofs.Server.Completeness
import MetricsBridge.Proofs.Server.Credentials
import MetricsBridge.Proofs.Server.ErrorPage
import MetricsBridge.Proofs.Server.Fidelity
import MetricsBridge.Proofs.Server.Headers
import MetricsBridge.Proofs.Server.Matching
import MetricsBridge.Proofs.Server.Numbering
import MetricsBridge.Proofs.Server.Offering
import MetricsBridge.Proofs.Server.Parameters
import MetricsBridge.Proofs.Server.Presentation
import MetricsBridge.Proofs.Server.Queries
import MetricsBridge.Proofs.Server.Redaction
import MetricsBridge.Proofs.Server.RefusedAddress
import MetricsBridge.Proofs.Server.Required
import MetricsBridge.Proofs.Server.Secrecy
import MetricsBridge.Proofs.Server.SeriesLine
import MetricsBridge.Proofs.Server.Spelling
import MetricsBridge.Proofs.Server.Target
import MetricsBridge.Proofs.Server.Telltale
import MetricsBridge.Proofs.Server.Truncation
import MetricsBridge.Proofs.Server.Validation
import MetricsBridge.Proofs.Server.Warnings
import MetricsBridge.Proofs.Session.Cancellation
import MetricsBridge.Proofs.Session.Endpoint
import MetricsBridge.Proofs.Session.Hub
import MetricsBridge.Proofs.Session.Serving
import MetricsBridge.Proofs.Session.Streams
import MetricsBridge.Proofs.Success
import MetricsBridge.Proofs.Text.Base64
import MetricsBridge.Proofs.Text.Boundary
import MetricsBridge.Proofs.Text.Occurrence
import MetricsBridge.Proofs.Text.Percent
import MetricsBridge.Proofs.Text.Quoted
import MetricsBridge.Proofs.Text.Split
import MetricsBridge.Proofs.Text.Table
import MetricsBridge.Proofs.Text.Utf8
import MetricsBridge.Proofs.Time.Calendar
import MetricsBridge.Proofs.Time.NormalForm
import MetricsBridge.Proofs.Time.Parts
import MetricsBridge.Proofs.Time.Rfc3339
import MetricsBridge.Proofs.Time.Seconds
import MetricsBridge.Proofs.Time.Span
import MetricsBridge.Proofs.Time.Timestamp
import MetricsBridge.Proofs.Url.Credentials
import MetricsBridge.Proofs.Url.Fault
import MetricsBridge.Proofs.Url.Path
import MetricsBridge.Server.Arguments
import MetricsBridge.Server.Dispatch
import MetricsBridge.Server.Job
import MetricsBridge.Server.Redaction
import MetricsBridge.Server.Render
import MetricsBridge.Session.Basic
import MetricsBridge.Session.Endpoint
import MetricsBridge.Session.EventStream
import MetricsBridge.Session.Inbound
import MetricsBridge.Session.Message
import MetricsBridge.Session.Response
import MetricsBridge.Session.Streamable
import MetricsBridge.Text.Base64
import MetricsBridge.Text.Basic
import MetricsBridge.Text.Blank
import MetricsBridge.Text.Cut
import MetricsBridge.Text.Decimal
import MetricsBridge.Text.Form
import MetricsBridge.Text.Hex
import MetricsBridge.Text.Invisible
import MetricsBridge.Text.Percent
import MetricsBridge.Text.Quoted
import MetricsBridge.Text.Table
import MetricsBridge.Text.Utf8
import MetricsBridge.Time.Calendar
import MetricsBridge.Time.Rfc3339
import MetricsBridge.Time.Span
import MetricsBridge.Time.Timestamp
import MetricsBridge.Url.Basic
import MetricsBridge.Url.Host
import MetricsBridge.Url.Parse
import MetricsBridge.Url.Path
import MetricsBridge.Yaml.Node
import MetricsBridge.Yaml.Place
import MetricsBridge.Yaml.Property
import MetricsBridge.Yaml.Scalar
import MetricsBridge.Yaml.Token
