import PushBuild.Text.Cut
import PushBuild.Text.Number
import PushBuild.Text.Quoted
import PushBuild.Time.Rfc3339
import PushBuild.Json.Reader
import PushBuild.Json.Printer
import PushBuild.SortedMap
import PushBuild.Document
import PushBuild.Resource.Condition
import PushBuild.Resource.Metadata
import PushBuild.Resource.Request
import PushBuild.Resource.Template
import PushBuild.Resource.Execution
import PushBuild.Resource.Strategy
import PushBuild.Resource.Policy
import PushBuild.Error
import PushBuild.Image
import PushBuild.Push.Event
import PushBuild.Trigger
import PushBuild.Program
import PushBuild.Retry
import PushBuild.Controller.Ownership
import PushBuild.Controller.Template
import PushBuild.Controller.Reconcile
import PushBuild.Store.Memory
import PushBuild.Simulation.World
import PushBuild.Digest.Hmac
import PushBuild.Digest.Base64
import PushBuild.Webhook.Server
import PushBuild.Network.Proxy
import PushBuild.Config.Source
import PushBuild.Cluster.Response
import PushBuild.Main
import PushBuild.Proofs.Interleaving.Act
import PushBuild.Proofs.Interleaving.System
import PushBuild.Proofs.Interleaving.Schedule
import PushBuild.Proofs.Interleaving.Clock
import PushBuild.Proofs.Time.Instant
import PushBuild.Proofs.Text.Digits
import PushBuild.Proofs.Text.Integer
import PushBuild.Proofs.Text.Number
import PushBuild.Proofs.Text.Trim
import PushBuild.Proofs.Text.Utf8
import PushBuild.Proofs.Push.Address
import PushBuild.Proofs.Image.Reference
import PushBuild.Proofs.Retry.Timetable
import PushBuild.Proofs.Controller.Name
import PushBuild.Proofs.Controller.Convergence
import PushBuild.Proofs.Controller.Duty
import PushBuild.Proofs.Store.Effect
import PushBuild.Proofs.Store.Dated
import PushBuild.Proofs.Store.Version
import PushBuild.Proofs.Store.Generation
import PushBuild.Proofs.Store.Template
import PushBuild.Proofs.Store.Execution
import PushBuild.Proofs.Status.Modify
import PushBuild.Proofs.Status.Conditions
import PushBuild.Proofs.Status.Linear
import PushBuild.Proofs.OnCommit.Change
import PushBuild.Proofs.OnCommit.Numbering
import PushBuild.Proofs.OnCommit.History
import PushBuild.Proofs.OnCommit.Admission
import PushBuild.Proofs.OnCommit.Recording
import PushBuild.Proofs.OnCommit.Report
import PushBuild.Proofs.Specification.Shown
import PushBuild.Proofs.Controller.Foreign
import PushBuild.Proofs.Controller.Template
import PushBuild.Proofs.Specification.Observed
import PushBuild.Proofs.Specification.Built
import PushBuild.Proofs.Specification.Latest
import PushBuild.Proofs.Specification.Published
import PushBuild.Proofs.Recovery.Contents
import PushBuild.Proofs.Recovery.Decision
import PushBuild.Proofs.Recovery.Frame
import PushBuild.Proofs.Recovery.Settle
import PushBuild.Proofs.Recovery.Ends
import PushBuild.Proofs.Recovery.Follow
import PushBuild.Proofs.Recovery.Parts
import PushBuild.Proofs.Recovery.Start
import PushBuild.Proofs.Recovery.Pass
import PushBuild.Proofs.Recovery.Resume
import PushBuild.Proofs.OnCommit.Pending
import PushBuild.Proofs.Interleaving.Exchange
import PushBuild.Proofs.Interleaving.Course
import PushBuild.Proofs.Specification.Standing
import PushBuild.Proofs.Specification.Exact
import PushBuild.Proofs.Controller.Obstacle
import PushBuild.Proofs.Controller.Blocked
import PushBuild.Proofs.OnCommit.Alone
import PushBuild.Proofs.OnCommit.Attended
import PushBuild.Proofs.OnCommit.Burst
import PushBuild.Proofs.OnCommit.Flight
import PushBuild.Proofs.OnCommit.Stale
import PushBuild.Proofs.OnCommit.Wait
import PushBuild.Proofs.Store.Order
import PushBuild.Proofs.Store.Operation
import PushBuild.Proofs.Webhook.Headers
import PushBuild.Proofs.Webhook.Delivery
import PushBuild.Proofs.Webhook.Recorded
import PushBuild.Proofs.Webhook.Effect
import PushBuild.Proofs.Webhook.Credential
import PushBuild.Proofs.Webhook.Payload
import PushBuild.Proofs.Webhook.Secret
import PushBuild.Proofs.Webhook.Response
import PushBuild.Proofs.Time.Calendar
import PushBuild.Proofs.Time.Text
import PushBuild.Proofs.Cluster.Merge
import PushBuild.Proofs.Cluster.Status
import PushBuild.Proofs.Json.Text
import PushBuild.Proofs.Resource.RoundTrip
import PushBuild.Proofs.Config.Setting
import PushBuild.Proofs.Config.File
import PushBuild.Proofs.Config.Layer
import PushBuild.Proofs.CommandLine.Edit
