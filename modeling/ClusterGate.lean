import ClusterGate.Lib.Act
import ClusterGate.Lib.Run
import ClusterGate.Lib.Table
import ClusterGate.Lib.Text
import ClusterGate.Lib.Json
import ClusterGate.Lib.Zod
import ClusterGate.Lib.Url
import ClusterGate.Errors
import ClusterGate.Caller
import ClusterGate.Auth.Store
import ClusterGate.Auth.Login
import ClusterGate.Auth.Authenticate
import ClusterGate.Auth.SecondFactor
import ClusterGate.Store.Column
import ClusterGate.World
import ClusterGate.Target.Policy
import ClusterGate.Store.State
import ClusterGate.Route.PathAllowlist
import ClusterGate.Route.Schema
import ClusterGate.Route.Access
import ClusterGate.Route.Service
import ClusterGate.Route.Lifecycle
import ClusterGate.Change.Service
import ClusterGate.Body
import ClusterGate.Change.Router
import ClusterGate.Route.Router
import ClusterGate.Children.Targets
import ClusterGate.Children.Transforms
import ClusterGate.Grouping.Folders
import ClusterGate.Endpoint
import ClusterGate.Route.Effects
import ClusterGate.Route.Frame
import ClusterGate.Tenancy
import ClusterGate.Change.Frame
import ClusterGate.Children.Frame
import ClusterGate.Grouping.Frame
import ClusterGate.Frame
import ClusterGate.Route.Written
import ClusterGate.OrgMoves
import ClusterGate.TargetInvariant
import ClusterGate.Change.Lifecycle
import ClusterGate.Change.Atomicity
import ClusterGate.StoredValidity
import ClusterGate.ChangePolicy
import ClusterGate.ApprovedUpdate
import ClusterGate.Lib.SetCookie
import ClusterGate.Lib.Sql
import ClusterGate.Log.Service
import ClusterGate.Log.Buckets
import ClusterGate.Lib.Collate
import ClusterGate.Proxy.Routing
import ClusterGate.Lib.Number
import ClusterGate.Lib.Ip
import ClusterGate.Proxy.IpAllowlist
import ClusterGate.Lib.Percent
import ClusterGate.Proxy.PathAllowlist
import ClusterGate.Proxy.TargetPath
import ClusterGate.Lib.UrlJoin
import ClusterGate.Proxy.Origin
import ClusterGate.SecretsAtRest
import ClusterGate.Proxy.Admission
import ClusterGate.Route.FolderFrame
import ClusterGate.FolderTenancy
import ClusterGate.Lib.TwoRuns
import ClusterGate.Route.Answers
import ClusterGate.Route.Veiled
import ClusterGate.Route.UpdateTwice
import ClusterGate.Route.AnswersTwice
import ClusterGate.Redaction
import ClusterGate.Lib.Async
import ClusterGate.Breaker.Service
import ClusterGate.Breaker.Reference
import ClusterGate.Breaker.Probe
import ClusterGate.Breaker.Failures
import ClusterGate.Proxy.RateLimit
import ClusterGate.Proxy.Cookies
import ClusterGate.Proxy.Gates
import ClusterGate.Keys.Epoch
import ClusterGate.Keys.Service
import ClusterGate.Keys.Staleness
import ClusterGate.Keys.Withdrawal
import ClusterGate.Lib.JsonText
import ClusterGate.Lib.Relational
import ClusterGate.Backup.Schema
import ClusterGate.Backup.Service
import ClusterGate.Backup.RoundTrip
import ClusterGate.Backup.Download
import ClusterGate.Lib.History
import ClusterGate.Accounts.Store
import ClusterGate.Accounts.Sessions
import ClusterGate.Accounts.Users
import ClusterGate.Accounts.Organizations
import ClusterGate.Accounts.Invites
import ClusterGate.Accounts.TwoFactor
import ClusterGate.Accounts.RecoveryCodes
import ClusterGate.Accounts.Lockout
import ClusterGate.Accounts.Login
import ClusterGate.Accounts.Challenge
import ClusterGate.Accounts.Authenticate
import ClusterGate.Accounts.Revocation
import ClusterGate.Lib.UrlRecord
import ClusterGate.Lib.UrlReparse
import ClusterGate.Auth.Resume
import ClusterGate.Auth.Csrf
import ClusterGate.Route.Links
import ClusterGate.Proxy.Webhook
import ClusterGate.Proxy.UpstreamHeaders
import ClusterGate.Proxy.GatewayHeaders
import ClusterGate.Proxy.ForwardedBody
import ClusterGate.Proxy.RoundRobin
import ClusterGate.Lib.Turns
import ClusterGate.Lib.JsonParse
import ClusterGate.Lib.JsonCompact
import ClusterGate.Route.Names
import ClusterGate.Duplicates
import ClusterGate.Archive
import ClusterGate.Route.VersionRestore
import ClusterGate.ExportImport
import ClusterGate.VersionHistory
import ClusterGate.Target.Connect
import ClusterGate.Target.Address
import ClusterGate.Target.Allowlist
import ClusterGate.Target.DenyList
import ClusterGate.Target.ForUser
import ClusterGate.Target.Guard
import ClusterGate.Target.Metadata
import ClusterGate.Lib.FormUrlencoded
import ClusterGate.Lib.UrlQuery
import ClusterGate.Proxy.Query
import ClusterGate.Lib.Shares
import ClusterGate.Proxy.Weighted
import ClusterGate.Lib.Words
import ClusterGate.Route.Slug
import ClusterGate.Route.FreeSlug
import ClusterGate.Lib.Utf8
import ClusterGate.Capture.Service
import ClusterGate.Capture.Note
import ClusterGate.Capture.Prefix
import ClusterGate.Capture.Streamed
import ClusterGate.Update.Version
import ClusterGate.Update.Service
import ClusterGate.Lib.Regex
import ClusterGate.Lib.JsonLexemes
import ClusterGate.Sanitizer.Service
import ClusterGate.Sanitizer.Origin
import ClusterGate.Sanitizer.Cards
import ClusterGate.Sanitizer.Patterns
import ClusterGate.Sanitizer.Strings
import ClusterGate.Sanitizer.Numbers
import ClusterGate.Sanitizer.Digits
import ClusterGate.Sanitizer.Groups
import ClusterGate.Sanitizer.Phone
import ClusterGate.Sanitizer.Readable
import ClusterGate.Proxy.OwnCookies
import ClusterGate.Capture.Frames
import ClusterGate.Lib.JsValue
import ClusterGate.Proxy.NestedValue
import ClusterGate.Proxy.RemovedHeader
import ClusterGate.Lib.Rank
import ClusterGate.Log.Stats
import ClusterGate.Lib.ZodWrapped
import ClusterGate.Route.PartialUpdate
import ClusterGate.Lib.Tally
import ClusterGate.Keys.Usage
import ClusterGate.Incidents.Service
import ClusterGate.Incidents.Resolution
import ClusterGate.Incidents.Automatic
import ClusterGate.Achievements.Service
import ClusterGate.Proxy.TargetHealth
import ClusterGate.Backup.Retention
import ClusterGate.Accounts.Enrolment
import ClusterGate.Log.Listing
import ClusterGate.Proxy.Upstream
import ClusterGate.Lib.Lines
import ClusterGate.Lib.JsonDocument
import ClusterGate.Capture.StreamText
import ClusterGate.Capture.TestPanel
import ClusterGate.Lib.Since
import ClusterGate.Keys.Router
import ClusterGate.Keys.Grants
import ClusterGate.Templates.Entries
import ClusterGate.Templates.Router
import ClusterGate.Templates.Picker
