import JsonService.Address
import JsonService.App
import JsonService.Beers.Entry
import JsonService.Beers.Run
import JsonService.Beers.Service
import JsonService.Beers.Store
import JsonService.Check
import JsonService.Config
import JsonService.Config.Environment
import JsonService.Config.Setting
import JsonService.Contexts
import JsonService.Decimal.Layout
import JsonService.Decimal.Nearest
import JsonService.Decimal.Parts
import JsonService.Decimal.Shortest
import JsonService.Decode
import JsonService.Duration
import JsonService.Entries
import JsonService.ErrorBody
import JsonService.Failure
import JsonService.FieldErrors
import JsonService.Handler
import JsonService.Health
import JsonService.Http.Body
import JsonService.Http.Header
import JsonService.Http.Method
import JsonService.Http.Status
import JsonService.Http.Target
import JsonService.Json.Document
import JsonService.Json.Fault
import JsonService.Json.Mismatch
import JsonService.Json.Printer
import JsonService.Json.Reader
import JsonService.Json.Shape
import JsonService.Json.Token
import JsonService.Json.Value
import JsonService.Layers
import JsonService.Log.Event
import JsonService.Log.Filter
import JsonService.Log.Output
import JsonService.Log.Style
import JsonService.Main
import JsonService.Metrics
import JsonService.Page
import JsonService.Proofs.Addresses
import JsonService.Proofs.App.Alone
import JsonService.Proofs.App.Cancellation
import JsonService.Proofs.App.Concurrent
import JsonService.Proofs.App.Counting
import JsonService.Proofs.App.Ending
import JsonService.Proofs.App.Flights
import JsonService.Proofs.App.FullLog
import JsonService.Proofs.App.InTurn
import JsonService.Proofs.App.Independent
import JsonService.Proofs.App.OneShutdown
import JsonService.Proofs.App.Own
import JsonService.Proofs.App.PathParameters
import JsonService.Proofs.App.Steady
import JsonService.Proofs.App.TraceHeader
import JsonService.Proofs.App.Turns
import JsonService.Proofs.App.Unreached
import JsonService.Proofs.App.Unshadowed
import JsonService.Proofs.Beers.Consistency
import JsonService.Proofs.Beers.Exchanges
import JsonService.Proofs.Beers.Handlers
import JsonService.Proofs.Beers.Listings
import JsonService.Proofs.Beers.Operations
import JsonService.Proofs.Config.Overlays
import JsonService.Proofs.Config.RoundTrip
import JsonService.Proofs.Config.Words
import JsonService.Proofs.Contexts.Responding
import JsonService.Proofs.Contexts.Sharing
import JsonService.Proofs.Durations
import JsonService.Proofs.Entries
import JsonService.Proofs.ErrorBodies
import JsonService.Proofs.Json.Documents
import JsonService.Proofs.Json.Grammar
import JsonService.Proofs.Json.Meaning
import JsonService.Proofs.Json.Nulls
import JsonService.Proofs.Json.Printing
import JsonService.Proofs.Json.Reading
import JsonService.Proofs.Json.Scanning
import JsonService.Proofs.Layers.Always
import JsonService.Proofs.Layers.Answers
import JsonService.Proofs.Layers.Effects
import JsonService.Proofs.Layers.LogAndWire
import JsonService.Proofs.Layers.Nesting
import JsonService.Proofs.Layers.Outcome
import JsonService.Proofs.Layers.Paths
import JsonService.Proofs.Layers.Returns
import JsonService.Proofs.Layers.Run
import JsonService.Proofs.Layers.Secrets
import JsonService.Proofs.Metrics.Sinks
import JsonService.Proofs.Metrics.Table
import JsonService.Proofs.Pages.Asked
import JsonService.Proofs.Pages.Partition
import JsonService.Proofs.Responses
import JsonService.Proofs.Route.Filling
import JsonService.Proofs.Route.Found
import JsonService.Proofs.Route.Growth
import JsonService.Proofs.Route.Insertion
import JsonService.Proofs.Route.Nodes
import JsonService.Proofs.Route.Normal
import JsonService.Proofs.Route.Occupied
import JsonService.Proofs.Route.Params
import JsonService.Proofs.Route.Pieces
import JsonService.Proofs.Route.Places
import JsonService.Proofs.Route.Readings
import JsonService.Proofs.Route.Reference
import JsonService.Proofs.Route.Refusals
import JsonService.Proofs.Route.Routes
import JsonService.Proofs.Route.Sane
import JsonService.Proofs.Route.Search
import JsonService.Proofs.Route.Segments
import JsonService.Proofs.Route.Spelling
import JsonService.Proofs.Route.Tokens
import JsonService.Proofs.Route.Traces
import JsonService.Proofs.Route.Values
import JsonService.Proofs.Route.Variants
import JsonService.Proofs.Route.Written
import JsonService.Proofs.Shutdown.OneSignal
import JsonService.Proofs.Shutdown.Winner
import JsonService.Proofs.Text.Digits
import JsonService.Proofs.Text.Encoding
import JsonService.Proofs.Text.Form
import JsonService.Proofs.Text.Hyphenated
import JsonService.Proofs.Text.Identifiers
import JsonService.Proofs.Text.Letters
import JsonService.Proofs.Text.Runs
import JsonService.Proofs.Text.Symbols
import JsonService.Proofs.Tokens
import JsonService.Proofs.Validation
import JsonService.Request
import JsonService.Response
import JsonService.Route.Pattern
import JsonService.Route.Spelling
import JsonService.Route.Table
import JsonService.Route.Tree
import JsonService.Script.Inspection
import JsonService.Script.Payload
import JsonService.Script.Scene
import JsonService.Server
import JsonService.Setup
import JsonService.Shutdown
import JsonService.Task
import JsonService.Text.Alphanumeric
import JsonService.Text.Blank
import JsonService.Text.Digits
import JsonService.Text.Form
import JsonService.Text.Pattern
import JsonService.Text.Pattern.Reader
import JsonService.Text.Quoted
import JsonService.Text.Shown
import JsonService.Text.Utf8
import JsonService.Time
import JsonService.Tokens
import JsonService.Uuid
