import Coatheal.Library.Numeric
import Coatheal.Library.Run
import Coatheal.Library.SlidingWindow
import Coatheal.Library.Text
import Coatheal.Library.Decimal
import Coatheal.Library.Trace
import Coatheal.Mission
import Coatheal.Link.Budget
import Coatheal.Link.History
import Coatheal.Link.OpenHolds
import Coatheal.Library.TokenBucket
import Coatheal.Link.Window
import Coatheal.Link.Urgency
import Coatheal.Motion.Rig
import Coatheal.Heater.Pid
import Coatheal.Heater.Interlock
import Coatheal.Heater.Controller
import Coatheal.Heater.Energy
import Coatheal.Heater.Latch
import Coatheal.Fallback.Safety
import Coatheal.Link.Shaper
import Coatheal.Library.Consecutive
import Coatheal.Library.SortedMap
import Coatheal.Queue.Frame
import Coatheal.Queue.Backlog
import Coatheal.Queue.Index
import Coatheal.Queue.TelemetryQueue
import Coatheal.Queue.Consistency
import Coatheal.Queue.Durability
import Coatheal.Library.OutStream
import Coatheal.Queue.Compaction
import Coatheal.Queue.Progress
import Coatheal.Delivery.System
import Coatheal.Delivery.AtLeastOnce
import Coatheal.Fallback.LinkLoss
import Coatheal.Fallback.FlightPhase
import Coatheal.Heater.Quiet
import Coatheal.Heater.Feedback
import Coatheal.Heater.Pwm
import Coatheal.Heater.PwmSlices
import Coatheal.Link.Silence
import Coatheal.Link.Targeting
import Coatheal.Link.Failover
import Coatheal.Motion.Deck
import Coatheal.Motion.OutsideRun
import Coatheal.Motion.Hold
import Coatheal.Motion.Watch
import Coatheal.Motion.SequenceOrder
import Coatheal.Motion.Travel
import Coatheal.Motion.TravelLimit
import Coatheal.Command.Parser
import Coatheal.Command.Addressing
import Coatheal.Command.HeaterLines
import Coatheal.Command.Spelling
import Coatheal.Fallback.PlanChange
import Coatheal.Library.DecimalReading
import Coatheal.Fallback.PlanRoundTrip
import Coatheal.Fallback.TornPlan
import Coatheal.Fallback.QuietPlan
import Coatheal.Fallback.Disarm
import Coatheal.Fallback.PlanFollow
import Coatheal.Motion.BendWatch
import Coatheal.Fallback.Settling
import Coatheal.Motion.PlanTruth
import Coatheal.Motion.PullEvents
import Coatheal.Library.PyText
import Coatheal.Ground.Protocol
import Coatheal.Ground.Receiver
import Coatheal.Ground.Acknowledgement
import Coatheal.Ground.PullLog
import Coatheal.Ground.LinkLedger
import Coatheal.Ground.Silence
import Coatheal.Link.Wire
import Coatheal.Link.Holds
import Coatheal.Link.NoLeak
import Coatheal.Link.Exchange
import Coatheal.Link.ExchangeRun
import Coatheal.Link.ExchangeCharge
import Coatheal.Link.ExchangeSegments
import Coatheal.Heater.Allocation
import Coatheal.Motion.Pulses
import Coatheal.Motion.Rest
import Coatheal.Motion.RateEnvelope
import Coatheal.Motion.PullCycle
import Coatheal.Wiring.Specimens
import Coatheal.Wiring.Plain
import Coatheal.Wiring.Layout
import Coatheal.Library.Literal
import Coatheal.Wiring.Loader
import Coatheal.Wiring.Migration
import Coatheal.Wiring.Carrying
import Coatheal.Wiring.SameWires
import Coatheal.Ground.Layout
import Coatheal.Ground.LogManager
import Coatheal.Ground.SessionRecords
import Coatheal.Motion.Refusal
import Coatheal.Motion.Current
import Coatheal.Motion.Tmc5160
import Coatheal.Motion.StallGuard
import Coatheal.Heater.Autotune
import Coatheal.Library.Halving
import Coatheal.Library.Utf8
import Coatheal.Library.Zlib
import Coatheal.Link.TelemetryCodec
import Coatheal.Ground.LinkCodec
import Coatheal.Link.Framing
import Coatheal.Library.StableInsert
import Coatheal.Ground.SeriesStore
import Coatheal.Queue.Bisection
import Coatheal.Config.Checks
import Coatheal.Config.Accepted
import Coatheal.Config.Relied
import Coatheal.Library.Checked
import Coatheal.Library.Chunks
import Coatheal.Config.Ini
import Coatheal.Ground.Framing
import Coatheal.Library.Json
import Coatheal.Library.Ranges
import Coatheal.Ground.SeqSet
import Coatheal.Ground.Dict
import Coatheal.Ground.OnboardState
import Coatheal.Ground.Alarms
import Coatheal.Library.Dictionary
import Coatheal.Ground.Discovery
import Coatheal.Wiring.Placement
import Coatheal.Wiring.BootBlock
import Coatheal.Wiring.Association
import Coatheal.Wiring.Composition
import Coatheal.Library.Lines
import Coatheal.Library.PyDict
import Coatheal.Ground.ThermalPresets
import Coatheal.Ground.PresetStore
import Coatheal.Ground.PresetCommands
import Coatheal.Library.Calendar
import Coatheal.Ground.SessionDir
import Coatheal.Sensors.Resistance
import Coatheal.Telemetry.Sensed
import Coatheal.Sensors.Max31865
import Coatheal.Link.PacedReply
import Coatheal.Link.CommandExchange
import Coatheal.Ground.StatusReply
import Coatheal.Library.DurableFile
import Coatheal.Storage.StorageManager
import Coatheal.Sensors.SequentRtd
import Coatheal.Clock.RtcAdapter
