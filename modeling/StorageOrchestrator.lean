import StorageOrchestrator.Signer.Profiles
import StorageOrchestrator.Migration.CatchUp
import StorageOrchestrator.Blossom.Replicas
import StorageOrchestrator.Blossom.Upload
import StorageOrchestrator.Mesh.Apply
import StorageOrchestrator.Mesh.BroadOrder
import StorageOrchestrator.Mesh.Convergence
import StorageOrchestrator.Mesh.Order
import StorageOrchestrator.Mesh.Reach
import StorageOrchestrator.Mesh.ReadSerial
import StorageOrchestrator.Mesh.Rejected
import StorageOrchestrator.Mesh.Replay
import StorageOrchestrator.Wire.Describe
import StorageOrchestrator.Wire.Routing
import StorageOrchestrator.Read.Unions
import StorageOrchestrator.Read.Windows
import StorageOrchestrator.Accounts.Extension
import StorageOrchestrator.Accounts.Payments
import StorageOrchestrator.Accounts.Quota
import StorageOrchestrator.Accounts.Usage
import StorageOrchestrator.Lifecycle.Entitling
import StorageOrchestrator.Lifecycle.Monotone
import StorageOrchestrator.Nip98.Signing
import StorageOrchestrator.Notifier.Notices
import StorageOrchestrator.Notifier.Paging
import StorageOrchestrator.ControlPlane.Detachment
import StorageOrchestrator.Aggregate.Distinct
import StorageOrchestrator.Wire.Identity
import StorageOrchestrator.Blossom.AccessCache
import StorageOrchestrator.Blossom.Inflight
import StorageOrchestrator.Mesh.Dispatch
import StorageOrchestrator.ControlPlane.Backfill
import StorageOrchestrator.Blossom.Gate
import StorageOrchestrator.Aggregate.DistinctRows
