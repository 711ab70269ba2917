import All4One.Agent.Boot
import All4One.Agent.Machine
import All4One.Agent.Theorems.Credentials
import All4One.Agent.Theorems.Enrolled
import All4One.Agent.Theorems.Identity
import All4One.Agent.Theorems.Spared
import All4One.Common.Id
import All4One.Common.Job
import All4One.Common.Node
import All4One.Foundation.Broadcast
import All4One.Foundation.Bytes
import All4One.Foundation.Cycle
import All4One.Foundation.Diff
import All4One.Foundation.Files
import All4One.Foundation.HashMap
import All4One.Foundation.Json
import All4One.Foundation.LineReader
import All4One.Foundation.Lists
import All4One.Foundation.Path
import All4One.Foundation.Prog
import All4One.Foundation.Refinement
import All4One.Foundation.Serde
import All4One.Foundation.Sha256
import All4One.Foundation.Sled
import All4One.Foundation.Text
import All4One.Foundation.Threads
import All4One.Foundation.Transition
import All4One.Foundation.Triple
import All4One.Foundation.Url
import All4One.Foundation.Usize
import All4One.Grpc.Messages
import All4One.Jobs.Command
import All4One.Jobs.Completion
import All4One.Jobs.Listing
import All4One.Jobs.Output
import All4One.Jobs.Record
import All4One.Jobs.Scheduler
import All4One.Jobs.Submit
import All4One.Jobs.System
import All4One.Jobs.Theorems.AtMostOnce
import All4One.Jobs.Theorems.Cancel
import All4One.Jobs.Theorems.Coherence
import All4One.Jobs.Theorems.Command
import All4One.Jobs.Theorems.DeadlockFreedom
import All4One.Jobs.Theorems.Forward
import All4One.Jobs.Theorems.Listing
import All4One.Jobs.Theorems.NoOrphan
import All4One.Jobs.Theorems.Order
import All4One.Jobs.Theorems.Outcome
import All4One.Jobs.Theorems.Output
import All4One.Jobs.Theorems.Quiescence
import All4One.Jobs.Theorems.Records
import All4One.Jobs.Theorems.Scheduler
import All4One.Jobs.Theorems.Step
import All4One.Jobs.Theorems.Streams
import All4One.Jobs.Theorems.Writes
import All4One.Membership.Agent
import All4One.Membership.Certificates
import All4One.Membership.Config
import All4One.Membership.Discovery
import All4One.Membership.Enrolment
import All4One.Membership.Join
import All4One.Membership.Network
import All4One.Membership.Pki
import All4One.Membership.Theorems.Accuracy
import All4One.Membership.Theorems.Agent
import All4One.Membership.Theorems.Certificates
import All4One.Membership.Theorems.Credentials
import All4One.Membership.Theorems.Detection
import All4One.Membership.Theorems.Dissemination
import All4One.Membership.Theorems.Endpoints
import All4One.Membership.Theorems.Enrolment
import All4One.Membership.Theorems.Join
import All4One.Membership.Theorems.Joining
import All4One.Membership.Theorems.Network
import All4One.Membership.Theorems.Profiles
import All4One.Membership.Theorems.Provenance
import All4One.Membership.Theorems.Revocation
import All4One.Membership.Theorems.Tiers
import All4One.Membership.Theorems.View
import All4One.Ops.Theorems.Departures
import All4One.Ops.Theorems.Watchers
import All4One.Ops.Watchers
import All4One.Raft.Cluster
import All4One.Raft.Commands
import All4One.Raft.Log
import All4One.Raft.LogStore
import All4One.Raft.Snapshot
import All4One.Raft.SnapshotIds
import All4One.Raft.Store
import All4One.Raft.Theorems.Agreement
import All4One.Raft.Theorems.Cluster
import All4One.Raft.Theorems.Delivery
import All4One.Raft.Theorems.EnrollToken
import All4One.Raft.Theorems.LogCrash
import All4One.Raft.Theorems.LogState
import All4One.Raft.Theorems.LogStore
import All4One.Raft.Theorems.Registry
import All4One.Raft.Theorems.SnapshotIds
import All4One.Rest.Secret
import All4One.Rest.Theorems.Secret
import All4One.Roles.System
import All4One.Roles.Theorems.Enforced
import All4One.Storage.Chunks
import All4One.Storage.Concurrent
import All4One.Storage.DbCache
import All4One.Storage.Download
import All4One.Storage.Encoder
import All4One.Storage.Erasure
import All4One.Storage.Handlers
import All4One.Storage.Index
import All4One.Storage.Placement
import All4One.Storage.Policy
import All4One.Storage.Reference
import All4One.Storage.Replication
import All4One.Storage.Requests
import All4One.Storage.Store
import All4One.Storage.System
import All4One.Storage.Theorems.Buckets
import All4One.Storage.Theorems.Concurrent
import All4One.Storage.Theorems.Confinement
import All4One.Storage.Theorems.Corruption
import All4One.Storage.Theorems.DbCache
import All4One.Storage.Theorems.Deletion
import All4One.Storage.Theorems.Download
import All4One.Storage.Theorems.Erasure
import All4One.Storage.Theorems.FanOut
import All4One.Storage.Theorems.Get
import All4One.Storage.Theorems.Isolation
import All4One.Storage.Theorems.Listing
import All4One.Storage.Theorems.Naming
import All4One.Storage.Theorems.Overwrite
import All4One.Storage.Theorems.Placement
import All4One.Storage.Theorems.Put
import All4One.Storage.Theorems.Readers
import All4One.Storage.Theorems.Refinement
import All4One.Storage.Theorems.Replication
import All4One.Storage.Theorems.RoundTrip
import All4One.Storage.Theorems.Sidecars
import All4One.Storage.Theorems.Sound
import All4One.Storage.Theorems.Spared
import All4One.Storage.Theorems.Store
import All4One.Storage.Theorems.Tidy
import All4One.Storage.Theorems.Transfer
import All4One.Storage.Transfer
