import ClusterHerald.Address
import ClusterHerald.Backoff
import ClusterHerald.Cache
import ClusterHerald.Change
import ClusterHerald.Clock
import ClusterHerald.Config.Basic
import ClusterHerald.Config.Environment
import ClusterHerald.Config.File
import ClusterHerald.Config.Kinds
import ClusterHerald.Config.Source
import ClusterHerald.Controller
import ClusterHerald.Counters
import ClusterHerald.Difference
import ClusterHerald.Dispatch
import ClusterHerald.Endpoint
import ClusterHerald.Feed
import ClusterHerald.Http
import ClusterHerald.Http.Target
import ClusterHerald.IgnoredFields
import ClusterHerald.Instant
import ClusterHerald.Json.Basic
import ClusterHerald.Json.Binary64
import ClusterHerald.Json.Reader
import ClusterHerald.Json.Writer
import ClusterHerald.Key
import ClusterHerald.Kind.Registry
import ClusterHerald.Kind.Watched
import ClusterHerald.Log
import ClusterHerald.Main
import ClusterHerald.Notice
import ClusterHerald.Object
import ClusterHerald.Observer
import ClusterHerald.Pipeline
import ClusterHerald.Proofs.Difference
import ClusterHerald.Proofs.Dispatch
import ClusterHerald.Proofs.Key
import ClusterHerald.Proofs.Location
import ClusterHerald.Proofs.Newsroom.Basic
import ClusterHerald.Proofs.Newsroom.Creation
import ClusterHerald.Proofs.Newsroom.InStep
import ClusterHerald.Proofs.Newsroom.Series
import ClusterHerald.Proofs.Newsroom.Update
import ClusterHerald.Proofs.Queue.Comeback
import ClusterHerald.Proofs.Queue.Desk
import ClusterHerald.Proofs.Queue.Line
import ClusterHerald.Proofs.Queue.Map
import ClusterHerald.Proofs.Queue.Newest
import ClusterHerald.Proofs.Queue.Order
import ClusterHerald.Proofs.Queue.Run
import ClusterHerald.Proofs.Queue.Scheduled
import ClusterHerald.Proofs.Queue.Timer
import ClusterHerald.Proofs.Run
import ClusterHerald.Proofs.Shift
import ClusterHerald.Proofs.Table
import ClusterHerald.Proofs.Watch.Listing
import ClusterHerald.Proofs.Watch.Mirror
import ClusterHerald.Proofs.Watch.Once
import ClusterHerald.Proofs.Watch.Relisting
import ClusterHerald.Proofs.Watch.Scene
import ClusterHerald.Proofs.Watch.Uniform
import ClusterHerald.Proofs.Watch.Versions
import ClusterHerald.Proofs.Worker
import ClusterHerald.Prune
import ClusterHerald.Queue.Basic
import ClusterHerald.Queue.Shared
import ClusterHerald.Queue.Timed
import ClusterHerald.Resolution
import ClusterHerald.Sink.Basic
import ClusterHerald.Sink.Setup
import ClusterHerald.Store
import ClusterHerald.Sync
import ClusterHerald.Table
import ClusterHerald.Text.Blank
import ClusterHerald.Text.Digit
import ClusterHerald.Text.Invisible
import ClusterHerald.Text.Quoted
import ClusterHerald.Watch
import ClusterHerald.Worker
import ClusterHerald.Yaml.Cursor
import ClusterHerald.Yaml.Name
import ClusterHerald.Yaml.Node
import ClusterHerald.Yaml.Place
import ClusterHerald.Yaml.Scalar
import ClusterHerald.Yaml.Token
import ClusterHerald.Proofs.Queue.Failures
import ClusterHerald.Proofs.Shift.Failures
import ClusterHerald.Proofs.Queue.Closing
import ClusterHerald.Proofs.Queue.Getters
import ClusterHerald.Proofs.Queue.Crowd
import ClusterHerald.Proofs.Shift.Memory
import ClusterHerald.Proofs.Watch.Nameless
import ClusterHerald.Proofs.Queue.Wakeup
import ClusterHerald.Proofs.Watch.Lookup
import ClusterHerald.Proofs.Config.Spelling
import ClusterHerald.Proofs.Config.RoundTrip
import ClusterHerald.Proofs.Shift.Startup
import ClusterHerald.Proofs.IgnoredFields
import ClusterHerald.Proofs.Pruning
import ClusterHerald.Proofs.Position
import ClusterHerald.Proofs.Processing
import ClusterHerald.Proofs.Backoff
import ClusterHerald.Proofs.Watch.Naming
import ClusterHerald.Proofs.Config.Kinds
import ClusterHerald.Proofs.Config.Gaps
import ClusterHerald.Proofs.Redaction
import ClusterHerald.Proofs.Config.Sinks
import ClusterHerald.Proofs.Bureau.Basic
import ClusterHerald.Proofs.Bureau.Label
import ClusterHerald.Proofs.Bureau.Counting
import ClusterHerald.Proofs.Queue.Delays
import ClusterHerald.Proofs.Shift.Steady
import ClusterHerald.Proofs.Newsroom.Telling
import ClusterHerald.Proofs.Newsroom.Origin
import ClusterHerald.Proofs.Queue.Clock
import ClusterHerald.Proofs.Shift.Lifetime
