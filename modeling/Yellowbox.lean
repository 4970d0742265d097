import Yellowbox.Base.Counters
import Yellowbox.Base.Cuts
import Yellowbox.Base.Decimals
import Yellowbox.Base.Effects
import Yellowbox.Base.Generators
import Yellowbox.Base.Grouping
import Yellowbox.Base.HttpMessages
import Yellowbox.Base.Iteration
import Yellowbox.Base.Json
import Yellowbox.Base.KeyedFolds
import Yellowbox.Base.KeyedWrites
import Yellowbox.Base.Linearization
import Yellowbox.Base.LruCache
import Yellowbox.Base.OrderedMatch
import Yellowbox.Base.Overwrites
import Yellowbox.Base.PercentEncoding
import Yellowbox.Base.PercentFormat
import Yellowbox.Base.PercentQuoting
import Yellowbox.Base.ScopePrograms
import Yellowbox.Base.ScopedLog
import Yellowbox.Base.SplitCounts
import Yellowbox.Base.StepRuns
import Yellowbox.Base.StreamSplit
import Yellowbox.Base.TarArchives
import Yellowbox.Base.TextLines
import Yellowbox.Docker.Containers
import Yellowbox.Docker.CreateTar
import Yellowbox.Docker.FileTransfer
import Yellowbox.Docker.ImageCache
import Yellowbox.Docker.ImageReferences
import Yellowbox.Docker.Killing
import Yellowbox.Docker.NetworkScopes
import Yellowbox.Docker.Networks
import Yellowbox.Docker.Ports
import Yellowbox.Docker.Removing
import Yellowbox.Docker.Run
import Yellowbox.Docker.SafeCreate
import Yellowbox.Docker.Stop
import Yellowbox.Docker.TempNetworks
import Yellowbox.FakeGcs.Buckets
import Yellowbox.FakeGcs.ClearBucket
import Yellowbox.FakeGcs.DeletedNames
import Yellowbox.FakeGcs.Deletions
import Yellowbox.FakeGcs.PatchGcloud
import Yellowbox.FakeGcs.RepeatedClearing
import Yellowbox.HttpService.Handlers
import Yellowbox.HttpService.Patches
import Yellowbox.HttpService.Responses
import Yellowbox.HttpService.Routing
import Yellowbox.ImageBuild.BuildLog
import Yellowbox.ImageBuild.Contexts
import Yellowbox.ImageBuild.Framing
import Yellowbox.ImageBuild.OutputIndependence
import Yellowbox.ImageBuild.Verdicts
import Yellowbox.Logstash.Connection
import Yellowbox.Logstash.Delimiters
import Yellowbox.Logstash.LogLevels
import Yellowbox.Logstash.Reassembly
import Yellowbox.Logstash.Rounds
import Yellowbox.Logstash.Runs
import Yellowbox.Logstash.Service
import Yellowbox.Logstash.Survival
import Yellowbox.RabbitMq.ResetState
import Yellowbox.Redis.AppendState
import Yellowbox.Redis.SetState
import Yellowbox.RequestCapture.AnyTranscript
import Yellowbox.RequestCapture.Assertions
import Yellowbox.RequestCapture.ExpectedRequest
import Yellowbox.RequestCapture.ExpectedTranscript
import Yellowbox.RequestCapture.HeaderExpectations
import Yellowbox.RequestCapture.OrderedRequests
import Yellowbox.RequestCapture.RaisingBodies
import Yellowbox.RequestCapture.Recorders
import Yellowbox.RequestCapture.ReprRoundTrip
import Yellowbox.RequestCapture.RequestCriteria
import Yellowbox.RequestCapture.ScopeExpectation
import Yellowbox.RequestCapture.Submultimaps
import Yellowbox.Retry.Deadlines
import Yellowbox.Retry.Outcomes
import Yellowbox.Retry.RetrySpec
import Yellowbox.Sql.ConnectionStrings
import Yellowbox.Sql.DatabaseScopes
import Yellowbox.Sql.OptionStrings
import Yellowbox.Vault.ClearSecrets
import Yellowbox.Vault.Secrets
import Yellowbox.WebServer.CallSteps
import Yellowbox.WebServer.Calls
import Yellowbox.WebServer.CaptureCompleteness
import Yellowbox.WebServer.CaptureNesting
import Yellowbox.WebServer.CaptureOrder
import Yellowbox.WebServer.CaptureScopes
import Yellowbox.WebServer.ClassEndpoints
import Yellowbox.WebServer.Dispatch
import Yellowbox.WebServer.HandlerSteps
import Yellowbox.WebServer.Handlers
import Yellowbox.WebServer.PatchedEndpoints
import Yellowbox.WebServer.PendingExceptions
import Yellowbox.WebServer.Recording
import Yellowbox.WebServer.Registration
import Yellowbox.WebServer.Scopes
import Yellowbox.WebServer.StableVerdicts
import Yellowbox.WebServer.Starting
import Yellowbox.WebServer.State
import Yellowbox.WebServer.Steps
import Yellowbox.WebServer.WsCaptures
import Yellowbox.WebSocket.Recorder
import Yellowbox.WebSocket.TranscriptClose
import Yellowbox.WebSocket.TranscriptLog
import Yellowbox.WebsocketService.Closing
import Yellowbox.WebsocketService.Delivery
import Yellowbox.WebsocketService.LastBound
import Yellowbox.WebsocketService.PatchScopes
import Yellowbox.WebsocketService.RouteOrder
import Yellowbox.WebsocketService.Routes
import Yellowbox.WebsocketService.Session
import Yellowbox.Base.SentPaths
