import MissionControl.Foundations.JsText
import MissionControl.Foundations.HeaderText
import MissionControl.Foundations.Lists
import MissionControl.Foundations.PosixPath
import MissionControl.Foundations.Query
import MissionControl.Foundations.RegularExpression
import MissionControl.Foundations.Schema
import MissionControl.Foundations.Transition
import MissionControl.Foundations.ReadModifyWrite
import MissionControl.Foundations.Noninterference
import MissionControl.Foundations.Batches
import MissionControl.Foundations.JsonValues
import MissionControl.Foundations.SqlValues
import MissionControl.Foundations.KeyedLines
import MissionControl.Foundations.Numbers
import MissionControl.Foundations.PathWalks
import MissionControl.Foundations.Pages
import MissionControl.Foundations.LikePatterns
import MissionControl.Foundations.JsObjects
import MissionControl.Foundations.Ranks
import MissionControl.Foundations.Calendar
import MissionControl.Foundations.Dictionaries
import MissionControl.Foundations.JsonText
import MissionControl.Foundations.JsonSpelling
import MissionControl.Foundations.Doubles
import MissionControl.Foundations.TimeZones
import MissionControl.Foundations.JsonPlaces
import MissionControl.Foundations.FixedWindows
import MissionControl.Foundations.TrimmedSplits
import MissionControl.Auth.Accounts
import MissionControl.Auth.Routes
import MissionControl.Auth.AccountSteps
import MissionControl.Auth.Principals
import MissionControl.Auth.GoogleIdentity
import MissionControl.Auth.Deauthorization
import MissionControl.Auth.SelfScope
import MissionControl.Provisioning.Plans
import MissionControl.Provisioning.Daemon
import MissionControl.Provisioning.PlanAcceptance
import MissionControl.Provisioning.Allowlist
import MissionControl.Provisioning.Ownership
import MissionControl.Provisioning.Jobs
import MissionControl.Provisioning.JobSteps
import MissionControl.Provisioning.TwoPerson
import MissionControl.Provisioning.TenantStatus
import MissionControl.Provisioning.Confinement
import MissionControl.Provisioning.DryRuns
import MissionControl.Pipelines.Run
import MissionControl.Pipelines.Handlers
import MissionControl.Pipelines.HandlerSteps
import MissionControl.Pipelines.SpawnOnce
import MissionControl.Pipelines.TerminalStates
import MissionControl.Pipelines.SerialShape
import MissionControl.Pipelines.Progress
import MissionControl.Pipelines.ManualAdvance
import MissionControl.Tasks.Validation
import MissionControl.Tasks.Database
import MissionControl.Tasks.Routes
import MissionControl.Tasks.RouteSteps
import MissionControl.Tasks.UpdateFrame
import MissionControl.Tasks.QualityGate
import MissionControl.Tasks.WorkspaceView
import MissionControl.Projects.Routes
import MissionControl.Projects.TicketNumbers
import MissionControl.Projects.Migration
import MissionControl.Projects.TicketRefs
import MissionControl.Webhooks.Deliveries
import MissionControl.Webhooks.DeliverySteps
import MissionControl.Webhooks.RetryChains
import MissionControl.Webhooks.CircuitBreaker
import MissionControl.Webhooks.PendingRetries
import MissionControl.Webhooks.Listener
import MissionControl.Webhooks.Origins
import MissionControl.Webhooks.Routing
import MissionControl.Webhooks.RetriedMessages
import MissionControl.Tokens.UsageFile
import MissionControl.Tokens.UsageLoss
import MissionControl.Tokens.TaskCosts
import MissionControl.Tokens.CostConservation
import MissionControl.Tokens.CountedOnce
import MissionControl.Tokens.ProviderPrefix
import MissionControl.DataRooms.Rooms
import MissionControl.DataRooms.Routes
import MissionControl.DataRooms.LinkSessions
import MissionControl.DataRooms.EntryLimit
import MissionControl.DataRooms.RecordedEvents
import MissionControl.DataRooms.PageViews
import MissionControl.Standups.WorkspaceReports
import MissionControl.Search.Routes
import MissionControl.Search.Isolation
import MissionControl.Gateway.ConfigRoute
import MissionControl.Gateway.ProtectedFields
import MissionControl.Gateway.DeepMerge
import MissionControl.Gateway.AgentFile
import MissionControl.Gateway.LostUpdates
import MissionControl.Gateway.AgentSave
import MissionControl.Gateway.Rollback
import MissionControl.Gateway.AgentSync
import MissionControl.Gateway.StoresAgree
import MissionControl.Gateway.SyncTwice
import MissionControl.Gateway.SyncPreview
import MissionControl.Gateway.Commenting
import MissionControl.Gateway.Redaction
import MissionControl.Gateway.MergeLaws
import MissionControl.Gateways.Routes
import MissionControl.Gateways.Primary
import MissionControl.Integrations.EnvFile
import MissionControl.Integrations.RoundTrip
import MissionControl.Documents.Files
import MissionControl.Documents.AllowedRoots
import MissionControl.Documents.WithinBase
import MissionControl.Maintenance.Cleanup
import MissionControl.Maintenance.CleanupCounts
import MissionControl.Maintenance.CleanupAgreement
import MissionControl.Maintenance.Migrations
import MissionControl.Cron.Routes
import MissionControl.Cron.Store
import MissionControl.Cron.Occurrences
import MissionControl.Cron.Expressions
import MissionControl.Cron.FixedOffset
import MissionControl.Cron.ClockChanges
import MissionControl.Cron.FieldDenotation
import MissionControl.Events.Bus
import MissionControl.Events.Stores
import MissionControl.Events.Producers
import MissionControl.Events.Stream
import MissionControl.Events.Announcements
import MissionControl.Events.Connections
import MissionControl.Events.RoomView
import MissionControl.Events.RoomSteps
import MissionControl.Events.RoomRuns
import MissionControl.Events.Delivery
import MissionControl.Notifications.Delivery
import MissionControl.Notifications.SentOnce
import MissionControl.Notifications.Blocked
import MissionControl.Scheduler.Ticks
import MissionControl.Conductor.Files
import MissionControl.Conductor.Sync
import MissionControl.Conductor.Rows
import MissionControl.Conductor.Companies
import MissionControl.Conductor.Convergence
import MissionControl.Conductor.Retries
import MissionControl.Conductor.SyncEvents
import MissionControl.Workload.GitHubImport
import MissionControl.Workload.Operations
import MissionControl.Workload.CompletionTimes
import MissionControl.Workload.References
import MissionControl.Workload.Dispatch
import MissionControl.Workload.RouteEvents
import MissionControl.Workload.BulkEvents
import MissionControl.Workload.TruthfulEvents
import MissionControl.Comments.Mentions
import MissionControl.Comments.Routes
import MissionControl.Comments.Notices
import MissionControl.Comments.Tokens
import MissionControl.Comments.Resolution
import MissionControl.Comments.Threads
import MissionControl.Heartbeats.Routes
import MissionControl.Heartbeats.TaskOrder
import MissionControl.Heartbeats.Mentions
import MissionControl.Proxy.RequestGate
import MissionControl.Proxy.Agreement
import MissionControl.Proxy.HostAllowlist
import MissionControl.Client.Actions
import MissionControl.Client.UniqueIds
import MissionControl.Client.Unread
import MissionControl.Client.ServerEvents
import MissionControl.Sockets.Hook
import MissionControl.Sockets.Superseded
import MissionControl.Sockets.Disconnect
import MissionControl.Attribution.Partition
import MissionControl.Outcomes.Routes
import MissionControl.Outcomes.Counting
import MissionControl.Outcomes.Conservation
import MissionControl.Regression.Routes
import MissionControl.Regression.Metrics
import MissionControl.Exports.RoundTrip
import MissionControl.Limits.Bounds
import MissionControl.Sessions.ClaudeSessions
import MissionControl.Sessions.ActiveFlags
import MissionControl.Agents.WorkingMemory
import MissionControl.Agents.ReadBack
import MissionControl.Alerts.Rules
import MissionControl.Alerts.Cooldown
import MissionControl.Alerts.Spacing
import MissionControl.Office.Placement
