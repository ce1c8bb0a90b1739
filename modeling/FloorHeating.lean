import FloorHeating.Lib.Runs
import FloorHeating.ControlLogic
import FloorHeating.Control
import FloorHeating.Spec.History
import FloorHeating.Priority
import FloorHeating.Lib.Changes
import FloorHeating.Account
import FloorHeating.Overheat
import FloorHeating.Maintenance
import FloorHeating.Stutter
import FloorHeating.Spec.Store
import FloorHeating.Thresholds
import FloorHeating.NewThresholds
import FloorHeating.Interleaving
import FloorHeating.Counters
import FloorHeating.Code.Api
import FloorHeating.Code.Ingest
import FloorHeating.Spec.Api
import FloorHeating.Api
import FloorHeating.Lib.Ring
import FloorHeating.Code.History
import FloorHeating.Spec.Samples
import FloorHeating.History
import FloorHeating.Code.Events
import FloorHeating.Events
import FloorHeating.Spec.Document
import FloorHeating.Code.Task
import FloorHeating.Spec.Task
import FloorHeating.Stream
import FloorHeating.TimeAxis
import FloorHeating.Notification
import FloorHeating.Attribution
import FloorHeating.Code.Commands
import FloorHeating.Spec.Commands
import FloorHeating.Commands
import FloorHeating.Lib.Rounding
import FloorHeating.SettingsPatch
import FloorHeating.Code.TempSensor
import FloorHeating.Lib.Streak
import FloorHeating.Sensor
import FloorHeating.Code.Database
import FloorHeating.Spec.Summary
import FloorHeating.Summary
import FloorHeating.Code.Http
import FloorHeating.Spec.Machine
import FloorHeating.Documents
import FloorHeating.Spec.Timing
import FloorHeating.Timing
import FloorHeating.App
import FloorHeating.Buttons
import FloorHeating.Chart
import FloorHeating.Chatter
import FloorHeating.Durable
import FloorHeating.Pipeline
import FloorHeating.Relay
import FloorHeating.Code.Page
import FloorHeating.Spec.Visit
import FloorHeating.Visit
import FloorHeating.Reload
import FloorHeating.Locks
import FloorHeating.Reply
