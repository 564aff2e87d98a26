import Netra.Association.Engine
import Netra.Behavior.Confirmation
import Netra.Behavior.Causes
import Netra.Lib.Noninterference
import Netra.Pipeline.Frames
import Netra.Risk.Cooldown
import Netra.Risk.Severity
import Netra.Pipeline.Isolation
import Netra.Behavior.Votes
import Netra.Pipeline.Trace
import Netra.Pipeline.Evidence
import Netra.Association.Registry
import Netra.Lib.Relabel
import Netra.Association.Numbering
import Netra.Shm.Interleaving
import Netra.Lib.SharedMemory
import Netra.Shm.Restart
import Netra.Behavior.Worker
import Netra.Risk.Worker
import Netra.Pipeline.Progress
import Netra.Behavior.Delivery
import Netra.Wire.Codecs
import Netra.Wire.RoundTrip
import Netra.Wire.Reference
import Netra.Behavior.Window
import Netra.Association.Zones
import Netra.Pipeline.Visits
import Netra.Association.Pickups
import Netra.Behavior.Heard
import Netra.Pipeline.Picks
import Netra.Lib.Table
import Netra.Store.Schema
import Netra.Store.Persistence
import Netra.Lib.Calls
import Netra.Store.ModelRegistry
import Netra.Store.Rollback
import Netra.Store.ActiveModel
import Netra.Store.Reviews
import Netra.Store.Verdicts
import Netra.Store.Labels
import Netra.Lib.Lines
import Netra.Wire.JsonLines
import Netra.Wire.Producers
import Netra.Store.Carried
import Netra.Store.Escalated
import Netra.Store.Repeats
import Netra.Ingest.FrameQueue
import Netra.Ingest.Order
import Netra.Alerting.Cooldown
import Netra.Lib.Feed
import Netra.Gateway.Feeds
import Netra.Gateway.Hub
import Netra.Gateway.Gauge
import Netra.Lib.Outbox
import Netra.Gateway.Dispatch
import Netra.Gateway.EvalLog
import Netra.Behavior.Track
import Netra.Lib.Leaky
import Netra.Behavior.Score
import Netra.Behavior.LateFrames
import Netra.Behavior.Expiry
import Netra.Behavior.Hands
import Netra.Risk.Freshness
import Netra.Risk.Overlay
import Netra.Core.Circuit
import Netra.Core.HalfOpen
import Netra.Core.EdgeSync
import Netra.Store.EvidenceFrames
import Netra.Behavior.Mirror
import Netra.Alerting.Priority
import Netra.Lib.Argmax
import Netra.Eval.ThresholdTuner
import Netra.Store.Export
import Netra.Analytics.Correlation
import Netra.Lib.Keys
import Netra.Shopformer.PoseBuffer
import Netra.Shopformer.Windows
import Netra.Shopformer.Skeleton
import Netra.Association.Occlusion
import Netra.Dashboard.Incidents
import Netra.Shm.SlidingWindow
import Netra.Wire.RedisKeys
import Netra.Analytics.Heatmap
import Netra.Lib.Matching
import Netra.Eval.SimpleTracker
import Netra.Shm.Underway
import Netra.Ingest.Chain
import Netra.Ingest.InHand
import Netra.Ingest.Room
import Netra.Lib.Lagging
import Netra.Streaming.Broadcaster
import Netra.Pipeline.Services
import Netra.Lib.Group
import Netra.Alerting.Worker
import Netra.Alerting.Turns
import Netra.Inference.Detector
import Netra.Alerting.Backlog
import Netra.Gateway.IncidentList
import Netra.Gateway.Cameras
import Netra.Behavior.Quiet
import Netra.Pipeline.Goods
import Netra.Pipeline.System
import Netra.Pipeline.Grounds
import Netra.Lib.Routes
import Netra.Gateway.Routes
import Netra.Gateway.Requests
import Netra.Gateway.Access
import Netra.Dashboard.Sse
import Netra.Dashboard.Live
import Netra.Gateway.Health
