import BuildServer.Agent.Basic
import BuildServer.Agent.Registry
import BuildServer.Client.Address
import BuildServer.Client.Basic
import BuildServer.Client.Error
import BuildServer.Client.Host
import BuildServer.Client.Wire
import BuildServer.Digest.Sha256
import BuildServer.Job.Identifier
import BuildServer.Job.Instance
import BuildServer.Job.Plan
import BuildServer.Job.State
import BuildServer.Json.Basic
import BuildServer.Json.Decode
import BuildServer.Json.Magnitude
import BuildServer.Json.Printer
import BuildServer.Json.Reader
import BuildServer.Json.Token
import BuildServer.Main
import BuildServer.Material.Basic
import BuildServer.Material.Filter
import BuildServer.Material.Json
import BuildServer.Material.Revision
import BuildServer.Material.Url
import BuildServer.Network.IpAddress
import BuildServer.Pipeline.Basic
import BuildServer.Pipeline.Catalog
import BuildServer.Pipeline.Graph
import BuildServer.Pipeline.Json
import BuildServer.Pipeline.Resolve
import BuildServer.Pipeline.Summary
import BuildServer.Proofs.Agent.Json
import BuildServer.Proofs.Agent.Registry
import BuildServer.Proofs.Agent.Snapshot
import BuildServer.Proofs.Client.Address
import BuildServer.Proofs.Client.ReadBack
import BuildServer.Proofs.Json.Decode
import BuildServer.Proofs.Json.Reordered
import BuildServer.Proofs.Json.RoundTrip
import BuildServer.Proofs.Json.Serialized
import BuildServer.Proofs.Json.Token
import BuildServer.Proofs.Material.Identity
import BuildServer.Proofs.Material.Json
import BuildServer.Proofs.Material.Pattern
import BuildServer.Proofs.Pipeline.Catalog
import BuildServer.Proofs.Pipeline.Composition
import BuildServer.Proofs.Pipeline.Contents
import BuildServer.Proofs.Pipeline.Graph
import BuildServer.Proofs.Pipeline.Json
import BuildServer.Proofs.Pipeline.Materials
import BuildServer.Proofs.Pipeline.Naming
import BuildServer.Proofs.Pipeline.Outcome
import BuildServer.Proofs.Pipeline.Queue
import BuildServer.Proofs.Pipeline.Resolve
import BuildServer.Proofs.Rows
import BuildServer.Proofs.Schedule.Abandoned
import BuildServer.Proofs.Schedule.Cache
import BuildServer.Proofs.Schedule.Conservation
import BuildServer.Proofs.Schedule.Draws
import BuildServer.Proofs.Schedule.Failures
import BuildServer.Proofs.Schedule.History
import BuildServer.Proofs.Schedule.Latest
import BuildServer.Proofs.Schedule.Operations
import BuildServer.Proofs.Schedule.Plans
import BuildServer.Proofs.Schedule.Renewal
import BuildServer.Proofs.Schedule.Results
import BuildServer.Proofs.Schedule.Run
import BuildServer.Proofs.Schedule.StageCounters
import BuildServer.Proofs.Schedule.Tables
import BuildServer.Proofs.Schedule.Transaction
import BuildServer.Proofs.Schedule.Waiting
import BuildServer.Proofs.Schedule.Workspace
import BuildServer.Proofs.Server.IdleAgent
import BuildServer.Proofs.Server.Target
import BuildServer.Proofs.Text.Names
import BuildServer.Proofs.Text.Percent
import BuildServer.Rows
import BuildServer.Schedule.OrderKey
import BuildServer.Schedule.Scheduler
import BuildServer.Schedule.StatusCache
import BuildServer.Schedule.Store
import BuildServer.Server.Basic
import BuildServer.Server.Command
import BuildServer.Server.Http
import BuildServer.Server.MediaType
import BuildServer.Server.Messages
import BuildServer.Server.Route
import BuildServer.Server.Settings
import BuildServer.Server.Target
import BuildServer.Terminal.Arguments
import BuildServer.Terminal.Basic
import BuildServer.Terminal.ByteSize
import BuildServer.Terminal.Screen
import BuildServer.Terminal.Style
import BuildServer.Text.Blank
import BuildServer.Text.CaseProperties
import BuildServer.Text.Digits
import BuildServer.Text.Lowercase
import BuildServer.Text.LowercaseRuns
import BuildServer.Text.Percent
import BuildServer.Text.Pieces
import BuildServer.Time.Instant
import BuildServer.Time.Rfc3339
import BuildServer.Uuid
import BuildServer.Proofs.Material.Credentials
import BuildServer.Proofs.Material.Display
import BuildServer.Proofs.Schedule.Assignment
import BuildServer.Proofs.Schedule.Cancellation
import BuildServer.Proofs.Text.Spacing
import BuildServer.Proofs.Material.Filtering
import BuildServer.Proofs.Material.Paths
import BuildServer.Proofs.Material.Restated
import BuildServer.Proofs.Material.SameRepository
import BuildServer.Proofs.Text.Pieces
import BuildServer.Proofs.Material.Segments
import BuildServer.Proofs.Material.DoubledStar
import BuildServer.Regex.Basic
import BuildServer.Regex.Search
import BuildServer.Proofs.Regex.Meaning
import BuildServer.Proofs.Regex.Search
import BuildServer.Proofs.Material.Expression
import BuildServer.Proofs.Pipeline.MorePatterns
import BuildServer.Proofs.Pipeline.Unreached
