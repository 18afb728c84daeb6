import HostBridge.Text.Blank
import HostBridge.Text.Hex
import HostBridge.Text.Unprintable
import HostBridge.Text.Quoted
import HostBridge.Number.Binary
import HostBridge.Number.Decimal
import HostBridge.Number.Scaling
import HostBridge.Json.Basic
import HostBridge.Json.Printer
import HostBridge.Json.Reader
import HostBridge.Keyed
import HostBridge.Duration
import HostBridge.Json.Decode
import HostBridge.EngineError
import HostBridge.Error
import HostBridge.Row
import HostBridge.Metadata
import HostBridge.Options
import HostBridge.Request
import HostBridge.Lifecycle
import HostBridge.Log
import HostBridge.Build
import HostBridge.Cancellation
import HostBridge.Registry
import HostBridge.Bridge.Host
import HostBridge.Bridge.Script
import HostBridge.Bridge.Machine
import HostBridge.Loop.Basic
import HostBridge.Loop.Script
import HostBridge.Loop.Machine
import HostBridge.Loop.Worker
import HostBridge.Engine.Stream
import HostBridge.Engine.Basic
import HostBridge.Engine.Bench
import HostBridge.Session.Result
import HostBridge.Session.Executor
import HostBridge.Session.Instance
import HostBridge.Session.Manual
import HostBridge.Session.Basic
import HostBridge.Session.Connection
import HostBridge.Session.Consumption
import HostBridge.Session.Waiting
import HostBridge.Session
import HostBridge.Proofs.Registry
import HostBridge.Proofs.Keyed
import HostBridge.Proofs.Json.Canonical
import HostBridge.Proofs.Json.Decode
import HostBridge.Proofs.Json.Reader
import HostBridge.Proofs.Metadata
import HostBridge.Proofs.EngineError
import HostBridge.Proofs.Options
import HostBridge.Proofs.Cancellation.Futures
import HostBridge.Proofs.Cancellation.Plain
import HostBridge.Proofs.Cancellation.Wakes
import HostBridge.Proofs.Bridge.Ownership
import HostBridge.Proofs.Bridge.Machine
import HostBridge.Proofs.Bridge.Tally
import HostBridge.Proofs.Bridge.Delivery
import HostBridge.Proofs.Bridge.Teardown
import HostBridge.Proofs.Bridge.Weight
import HostBridge.Proofs.Bridge.Frames
import HostBridge.Proofs.Bridge.Draining
import HostBridge.Proofs.Bridge.Waiting
import HostBridge.Proofs.Loop
import HostBridge.Proofs.Loop.Map
import HostBridge.Proofs.Loop.Run
import HostBridge.Proofs.Loop.Moves
import HostBridge.Proofs.Loop.Drain
import HostBridge.Proofs.Loop.Fates
import HostBridge.Proofs.Loop.Panics
import HostBridge.Proofs.Engine.Cancelled
import HostBridge.Proofs.Engine.Tasks
import HostBridge.Proofs.Engine.Calm
import HostBridge.Proofs.Engine.Turn
import HostBridge.Proofs.Engine.Requests
import HostBridge.Proofs.Engine.Progress
import HostBridge.Proofs.Engine.Queued
import HostBridge.Proofs.Engine.Effect
import HostBridge.Proofs.Engine.Busy
import HostBridge.Proofs.Engine.Run
import HostBridge.Proofs.Engine.Moves
import HostBridge.Proofs.Engine.Ledger
import HostBridge.Proofs.Engine.Completion
import HostBridge.Proofs.Engine.Closing
import HostBridge.Proofs.Engine.Replay
import HostBridge.Proofs.Engine.Output
import HostBridge.Proofs.Session.Run
import HostBridge.Proofs.Session.Step
import HostBridge.Proofs.Session.Perform
import HostBridge.Proofs.Session.Creation
import HostBridge.Proofs.Session.Calm
import HostBridge.Proofs.Session.Later
import HostBridge.Proofs.Session.Scene
import HostBridge.Proofs.Session.Guarded
import HostBridge.Proofs.Session.Shutdown
import HostBridge.Proofs.Session.Endings
import HostBridge.Proofs.Session.Orderly
import HostBridge.Proofs.Session.Accounted
import HostBridge.Proofs.Session.Delivery
import HostBridge.Proofs.Session.Invariant
import HostBridge.Proofs.Session.Ledger
import HostBridge.Proofs.Session.Looks
import HostBridge.Proofs.Session.Completion
import HostBridge.Proofs.Session.Cancellation
import HostBridge.Proofs.Session.Running
import HostBridge.Proofs.Session.Script
import HostBridge.Proofs.Session.Rows
import HostBridge.Proofs.Session.Effect
import HostBridge.Proofs.Session.Employed
import HostBridge.Proofs.Session.Reported
import HostBridge.Proofs.Session.Address
import HostBridge.Proofs.Session.Summary
import HostBridge.Proofs.Session.Strikes
import HostBridge.Proofs.Session.Aborts
import HostBridge.Proofs.Session.Traffic
import HostBridge.Proofs.Session.Rejection
import HostBridge.Proofs.Session.Sight
import HostBridge.Proofs.Session.Sight.Outlook
import HostBridge.Proofs.Session.Sight.Calls
import HostBridge.Proofs.Session.Sight.Turns
import HostBridge.Proofs.Session.Sight.Reports
import HostBridge.Proofs.Session.Isolation
import HostBridge.Proofs.Ownership
