import Baston.Lib.Map
import Baston.Lib.Inverse
import Baston.Lib.Bits
import Baston.Lib.Trace
import Baston.Lib.Delta
import Baston.Lib.WriteLog
import Baston.Lib.Counter
import Baston.Lib.Cells
import Baston.Lib.Coalesce
import Baston.Lib.Binary32
import Baston.Rage.Scalar
import Baston.Rage.Exact
import Baston.Rage.Buffer
import Baston.Rage.Clone
import Baston.Rage.Packet
import Baston.Rage.Quaternion
import Baston.Rage.SyncData
import Baston.Rage.SyncTrees
import Baston.Rage.SyncParse
import Baston.Rage.SyncWrite
import Baston.Rage.ObjectIds
import Baston.Rage.LiteralRun
import Baston.Rage.Reliability
import Baston.Zone.RoutingBucket
import Baston.Zone.InterestNg
import Baston.Zone.OneSync
import Baston.Zone.Ingest
import Baston.Zone.EntityManager
import Baston.Zone.StateIngest
import Baston.Zone.Spatial
import Baston.Zone.BoundaryLoop
import Baston.Zone.EntityMigration
import Baston.Zone.EntityTasks
import Baston.Gateway.StateAggregator
import Baston.Voice.Crypto
import Baston.Voice.Session
import Baston.Voice.Control
import Baston.Proofs.Buffer
import Baston.Proofs.Blobs
import Baston.Proofs.Records
import Baston.Proofs.Operations
import Baston.Proofs.Steps
import Baston.Proofs.IdTable
import Baston.Proofs.Authority
import Baston.Proofs.ServerOwned
import Baston.Proofs.Orphans
import Baston.Proofs.Leases
import Baston.Proofs.Tick
import Baston.Proofs.SendOrder
import Baston.Proofs.CloneStream
import Baston.Proofs.Views
import Baston.Proofs.Entries
import Baston.Proofs.Simulator
import Baston.Proofs.Nack
import Baston.Proofs.Acks
import Baston.Proofs.Merge
import Baston.Proofs.Replica
import Baston.Proofs.PackedWriter
import Baston.Proofs.Fragments
import Baston.Proofs.EntityLog
import Baston.Proofs.EntityTasks
import Baston.Proofs.Handoff
import Baston.Proofs.Ingest
import Baston.Proofs.Snapshots
import Baston.Proofs.PedAuthority
import Baston.Proofs.Downlink
import Baston.Proofs.FrameIds
import Baston.Proofs.SyncWalk
import Baston.Proofs.SyncAgree
import Baston.Proofs.SyncLeaves
import Baston.Proofs.SyncBlob
import Baston.Proofs.SyncVisit
import Baston.Proofs.SyncTwin
import Baston.Proofs.Isolation
import Baston.Proofs.Programs
import Baston.Proofs.LeafPrograms
import Baston.Proofs.LeafFields
import Baston.Lib.Checked
import Baston.Rage.Machine
import Baston.Proofs.Machine
import Baston.Proofs.Total
import Baston.Gateway.MeshForward
import Baston.Zone.HandoffManager
import Baston.Gateway.HandoffMesh
import Baston.Proofs.HandoffSteps
import Baston.Proofs.Agreement
import Baston.Gateway.QuadTree
import Baston.Gateway.ZoneRegistry
import Baston.Gateway.UdpServer
import Baston.Proofs.Forwarding
import Baston.Proofs.Publishing
import Baston.Proofs.QuadTree
import Baston.Proofs.Registry
import Baston.Proofs.ClientOps
import Baston.Proofs.ClientReplica
import Baston.Proofs.ScopeDeletes
import Baston.Proofs.GridScan
import Baston.Proofs.PushLoop
import Baston.Proofs.LostDeltas
import Baston.Proofs.SpeedCheck
import Baston.Proofs.Migration
import Baston.Proofs.Ocb2
import Baston.Proofs.Nonces
import Baston.Proofs.Replay
import Baston.Proofs.Channels
import Baston.Proofs.VoiceSessions
import Baston.Proofs.LinearScan
import Baston.Proofs.Exits
import Baston.Proofs.Deferrals
import Baston.Scripting.StateBag
import Baston.Scripting.Kvp
import Baston.Scripting.EntityWorld
import Baston.Scripting.RoutingControl
import Baston.Proofs.StateBags
import Baston.Proofs.KvpFile
import Baston.Proofs.Durability
import Baston.Proofs.VoiceCoherence
import Baston.Proofs.EntityWorld
import Baston.Proofs.Peers
import Baston.Proofs.SessionHost
import Baston.Gateway.Ticket
import Baston.Proofs.Ticket
import Baston.Gateway.Auth
import Baston.Proofs.TicketReuse
import Baston.Zone.Packfile
import Baston.Proofs.Packfile
import Baston.Proofs.QuadTreeQueries
import Baston.Lib.Layout
import Baston.Lib.Sorted
import Baston.Proofs.PackfileTable
import Baston.Proofs.PackfileBytes
import Baston.Proofs.PackfileReading
import Baston.Proofs.PackfileFidelity
import Baston.Proofs.ObjectIdList
import Baston.Rage.Session
import Baston.Proofs.Slots
import Baston.Proofs.WorldGrid
import Baston.Gateway.Rebalance
import Baston.Proofs.Rebalance
import Baston.Zone.Topo
import Baston.Lib.Precedence
import Baston.Proofs.Topo
import Baston.Proofs.WireBudget
import Baston.Proofs.FieldCodec
import Baston.Proofs.CreateDecode
import Baston.Proofs.Extents
import Baston.Proofs.LeafExtents
import Baston.Proofs.TruncatedLeaves
import Baston.Proofs.FieldsFromBeyond
import Baston.Proofs.TruncatedHealth
import Baston.Proofs.Truncation
import Baston.Proofs.ResourceManager
import Baston.Proofs.RoutingBuckets
import Baston.Proofs.Pds
import Baston.Proofs.VoicePackets
import Baston.Voice.Router
import Baston.Proofs.VoiceRouting
import Baston.Proofs.EventChain
import Baston.Proofs.Drain
import Baston.Proofs.ZoneResolution
import Baston.Proofs.PacketBudget
import Baston.Proofs.WriterRoom
import Baston.Proofs.AuthoredNodes
import Baston.Proofs.AuthoredPosition
import Baston.Proofs.PackfileCache
import Baston.Gateway.PackfileCache
import Baston.Proofs.SpeedCeiling
import Baston.Proofs.NackCodec
import Baston.Proofs.BitCopies
import Baston.Proofs.ChannelStore
import Baston.Proofs.LastValues
import Baston.Proofs.KvpRoundTrip
import Baston.Proofs.AdaptiveTick
import Baston.Gateway.Oob
import Baston.Lib.RateBound
import Baston.Proofs.Oob
import Baston.Gateway.Files
import Baston.Proofs.Files
import Baston.Lib.Base64
import Baston.Platform.Sidecar
import Baston.Platform.Broker
import Baston.Proofs.Sidecar
import Baston.Proofs.Broker
import Baston.Gateway.Connect
import Baston.Proofs.Verdict
import Baston.Proofs.Connect
import Baston.Proofs.Recovery
import Baston.Lib.Framing
import Baston.Voice.Framing
import Baston.Proofs.VoiceFraming
import Baston.Zone.Ownership
import Baston.Proofs.Ownership
