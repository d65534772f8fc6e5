import RmqttThings.Effects.Prog
import RmqttThings.Effects.Hoare
import RmqttThings.Effects.Pool
import RmqttThings.Effects.RowLock
import RmqttThings.Effects.Transactions
import RmqttThings.Json
import RmqttThings.Time
import RmqttThings.RuleEngine.Evaluator
import RmqttThings.RuleEngine.World
import RmqttThings.RuleEngine.Cache
import RmqttThings.RuleEngine.Actions
import RmqttThings.RuleEngine.Engine
import RmqttThings.RuleEngine.Keys
import RmqttThings.RuleEngine.Semantics
import RmqttThings.RuleEngine.Footprint
import RmqttThings.RuleEngine.Runs
import RmqttThings.RuleEngine.AlarmTable
import RmqttThings.RuleEngine.InMemoryRuns
import RmqttThings.RuleEngine.StoreParity
import RmqttThings.RuleEngine.Suppression
import RmqttThings.RuleEngine.RedisFaults
import RmqttThings.RuleEngine.RedisDuration
import RmqttThings.RuleEngine.Reference
import RmqttThings.RuleEngine.Rounds
import RmqttThings.RuleEngine.Refinement
import RmqttThings.Api.AlarmModels
import RmqttThings.Api.AlarmHandlers
import RmqttThings.Api.SharedRules
import RmqttThings.Api.Invalidation
import RmqttThings.Api.Marking
import RmqttThings.Api.Throttle
import RmqttThings.Api.AlarmLifecycle
import RmqttThings.Api.WebhookTruth
import RmqttThings.Api.RetryCourse
import RmqttThings.JsonMap
import RmqttThings.Commands.Topics
import RmqttThings.Commands.Table
import RmqttThings.Shadow.Desired
import RmqttThings.Commands.Handlers
import RmqttThings.Commands.Runs
import RmqttThings.Commands.StatusMachine
import RmqttThings.Commands.Orphans
import RmqttThings.Commands.PublicationOrder
import RmqttThings.Commands.SubscriptionGate
import RmqttThings.Shadow.Convergence
import RmqttThings.Commands.OfflineShadow
import RmqttThings.Commands.MergeOrder
import RmqttThings.Commands.DesiredUpserts
import RmqttThings.Access.Isolation
import RmqttThings.Access.Identity
import RmqttThings.Devices.Status
import RmqttThings.Factory.Tables
import RmqttThings.Factory.Views
import RmqttThings.Factory.Transactions
import RmqttThings.Factory.ChangeLog
import RmqttThings.Factory.Listing
import RmqttThings.Factory.Replace
import RmqttThings.Devices.LatestProperties
import RmqttThings.Templates.Table
import RmqttThings.Templates.Progress
import RmqttThings.Templates.Uniqueness
import RmqttThings.Templates.SchemaCache
import RmqttThings.Templates.CacheProtocol
import RmqttThings.Templates.CacheCoherence
import RmqttThings.Api.StoredRules
import RmqttThings.Api.AlarmLevels
import RmqttThings.Ota.Versions
import RmqttThings.Ota.World
import RmqttThings.Ota.Handlers
import RmqttThings.Ota.Reports
import RmqttThings.Ota.DeviceVersions
import RmqttThings.Ota.Debounce
import RmqttThings.Ota.Offers
import RmqttThings.Binary64.Nearest
import RmqttThings.Binary64.Unpacked
import RmqttThings.Binary64.Floats
import RmqttThings.Binary64.Difference
import RmqttThings.Binary64.Integers
import RmqttThings.RuleEngine.Comparison
import RmqttThings.Api.FiringConditions
import RmqttThings.Commands.TopicMatching
import RmqttThings.Access.Passwords
import RmqttThings.Commands.Replies
import RmqttThings.Devices.DeltaReports
import RmqttThings.Devices.Webhooks
import RmqttThings.Shadow.NumericEquality
import RmqttThings.Files.Directories
import RmqttThings.Files.Uploads
import RmqttThings.Access.Redirects
import RmqttThings.Commands.ServiceStatus
import RmqttThings.Files.Downloads
import RmqttThings.Files.Patterns
import RmqttThings.Certs.Handlers
import RmqttThings.Certs.Issuing
import RmqttThings.Certs.Revocation
import RmqttThings.Paging.Slices
import RmqttThings.Paging.Ties
import RmqttThings.Queries.CommandPages
import RmqttThings.Queries.DeviceOperations
import RmqttThings.Queries.PageArithmetic
import RmqttThings.Paging.Samples
import RmqttThings.Queries.Series
import RmqttThings.Js.Objects
import RmqttThings.Schema.Editor
import RmqttThings.Schema.Fields
import RmqttThings.Templates.CacheKeys
import RmqttThings.RuleEngine.ScanLoop
import RmqttThings.RuleEngine.Isolation
import RmqttThings.Js.Promises
import RmqttThings.Session.Refresh
import RmqttThings.Session.Account
import RmqttThings.Session.SingleFlight
import RmqttThings.Encoding.Base64
import RmqttThings.Encoding.FormUrlencoded
import RmqttThings.Encoding.JsonString
import RmqttThings.Text
import RmqttThings.Login.Cookies
import RmqttThings.Access.ClientIp
import RmqttThings.Access.Guards
import RmqttThings.Access.Routes
import RmqttThings.Access.Mediation
import RmqttThings.Effects.Solo
import RmqttThings.Login.Handlers
import RmqttThings.Login.CookieJson
import RmqttThings.Login.Protocol
import RmqttThings.Login.Sessions
import RmqttThings.Login.Completion
import RmqttThings.Login.Exchanges
import RmqttThings.Registry.Handlers
import RmqttThings.Relational.UniqueTable
import RmqttThings.Effects.Stages
import RmqttThings.Registry.Protocol
import RmqttThings.Registry.Soundness
import RmqttThings.Registry.Runs
import RmqttThings.Registry.Admission
import RmqttThings.Registry.Provisioning
import RmqttThings.Registry.Atomic
