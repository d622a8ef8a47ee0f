import YureiGeyser.Library.Positional
import YureiGeyser.Library.Execution
import YureiGeyser.Library.Search
import YureiGeyser.Library.Channel
import YureiGeyser.Library.Station
import YureiGeyser.Library.Slots
import YureiGeyser.Library.Replay
import YureiGeyser.Library.Peak
import YureiGeyser.Library.Tuples
import YureiGeyser.Library.Progress
import YureiGeyser.Library.Ledger
import YureiGeyser.Library.Snapshot
import YureiGeyser.CString
import YureiGeyser.Base64
import YureiGeyser.Base64Codec
import YureiGeyser.Base64Bits
import YureiGeyser.Base58
import YureiGeyser.Base58Codec
import YureiGeyser.Event
import YureiGeyser.Metrics
import YureiGeyser.HighWater
import YureiGeyser.Layout
import YureiGeyser.ProtocolDetector
import YureiGeyser.PumpfunParser
import YureiGeyser.RaydiumParser
import YureiGeyser.RaydiumReads
import YureiGeyser.EventQueue
import YureiGeyser.QueueThreads
import YureiGeyser.Wakeups
import YureiGeyser.QueueMetrics
import YureiGeyser.GeyserClient
import YureiGeyser.Ingest
import YureiGeyser.LogTrades
import YureiGeyser.LogLines
import YureiGeyser.Routing
import YureiGeyser.SubscribeRequest
import YureiGeyser.Config
import YureiGeyser.CompletionQueue
import YureiGeyser.Subscription
import YureiGeyser.Completions
import YureiGeyser.Backoff
import YureiGeyser.OpenCall
import YureiGeyser.StreamEnd
import YureiGeyser.ReplayFallback
import YureiGeyser.Reconnect
import YureiGeyser.Statement
import YureiGeyser.DbWriter
import YureiGeyser.StatementText
import YureiGeyser.WriterRuns
import YureiGeyser.WriterClock
import YureiGeyser.SkippedRows
import YureiGeyser.Shutdown
import YureiGeyser.Process
import YureiGeyser.ProcessObjects
import YureiGeyser.Committed
import YureiGeyser.Provenance
import YureiGeyser.EndToEnd
import YureiGeyser.Deliveries
import YureiGeyser.StopLatency
import YureiGeyser.Components
import YureiGeyser.Liveness
import YureiGeyser.Exit
import YureiGeyser.GrpcObjects
import YureiGeyser.DbObjects
import YureiGeyser.Summary
