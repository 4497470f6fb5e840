import SimpleZfsCsi.Library.Program
import SimpleZfsCsi.Library.FinMap
import SimpleZfsCsi.Library.Text
import SimpleZfsCsi.Library.Informer
import SimpleZfsCsi.Api.Errors
import SimpleZfsCsi.Api.Objects
import SimpleZfsCsi.Api.NetworkExport
import SimpleZfsCsi.Api.Storage
import SimpleZfsCsi.Nfs.Exports
import SimpleZfsCsi.Nfs.Controller
import SimpleZfsCsi.Csi.Mount
import SimpleZfsCsi.Csi.Node
import SimpleZfsCsi.Csi.Connections
import SimpleZfsCsi.Library.Concurrent
import SimpleZfsCsi.Library.Serial
import SimpleZfsCsi.Library.CloneGraph
import SimpleZfsCsi.Memzfs.Mem
import SimpleZfsCsi.Memzfs.Refinement
import SimpleZfsCsi.Memzfs.Promote
import SimpleZfsCsi.Memzfs.Frame
import SimpleZfsCsi.Agent.Calls
import SimpleZfsCsi.Agent.Names
import SimpleZfsCsi.Agent.Detach
import SimpleZfsCsi.Agent.ZfsDataset
import SimpleZfsCsi.Agent.ZfsSnapshot
import SimpleZfsCsi.Agent.Effects
import SimpleZfsCsi.Agent.Cached
import SimpleZfsCsi.Agent.Frozen
import SimpleZfsCsi.Agent.Passes
import SimpleZfsCsi.Attach.Calls
import SimpleZfsCsi.Csi.Common
import SimpleZfsCsi.Attach.Controller
import SimpleZfsCsi.Attach.Operator
import SimpleZfsCsi.Attach.Requests
import SimpleZfsCsi.Attach.Clients
import SimpleZfsCsi.Attach.Exclusion
import SimpleZfsCsi.Attach.SingleNode
import SimpleZfsCsi.Agent.Ownership
import SimpleZfsCsi.Exporter.Controller
import SimpleZfsCsi.Exporter.Cluster
import SimpleZfsCsi.Exporter.Assignment
import SimpleZfsCsi.Library.Tidy
import SimpleZfsCsi.Library.Holding
import SimpleZfsCsi.Library.Registry
import SimpleZfsCsi.Agent.Site
import SimpleZfsCsi.Agent.Posts
import SimpleZfsCsi.Agent.Moves
import SimpleZfsCsi.Memzfs.Listing
import SimpleZfsCsi.Agent.Detaching
import SimpleZfsCsi.Agent.Deleting
import SimpleZfsCsi.Agent.Creating
import SimpleZfsCsi.Agent.Lifecycle
import SimpleZfsCsi.Pools.Takeover
import SimpleZfsCsi.Scrub.Controller
import SimpleZfsCsi.Scrub.OneJob
import SimpleZfsCsi.Provision.Params
import SimpleZfsCsi.Provision.Calls
import SimpleZfsCsi.Provision.Volume
import SimpleZfsCsi.Provision.Snapshot
import SimpleZfsCsi.Provision.Dying
import SimpleZfsCsi.Provision.Idempotent
import SimpleZfsCsi.Csi.LocalUse
import SimpleZfsCsi.Attach.LocalPath
import SimpleZfsCsi.Memzfs.Sound
import SimpleZfsCsi.Memzfs.Machine
import SimpleZfsCsi.Memzfs.Invariant
import SimpleZfsCsi.Agent.Rounds
import SimpleZfsCsi.Agent.Draining
import SimpleZfsCsi.Agent.Converging
import SimpleZfsCsi.Migrate.Audit
import SimpleZfsCsi.Migrate.Apply
import SimpleZfsCsi.Migrate.Notes
import SimpleZfsCsi.Migrate.Applied
import SimpleZfsCsi.Migrate.Clean
import SimpleZfsCsi.Library.Dialogue
import SimpleZfsCsi.Csi.Formatting
import SimpleZfsCsi.Agent.RootOwner
import SimpleZfsCsi.Library.Path
import SimpleZfsCsi.Provision.Inherit
import SimpleZfsCsi.Provision.Source
import SimpleZfsCsi.Provision.Capture
import SimpleZfsCsi.Provision.Clones
import SimpleZfsCsi.Provision.Annotated
import SimpleZfsCsi.Memzfs.Lineage
import SimpleZfsCsi.Agent.Locate
import SimpleZfsCsi.Nvmet.Configfs
import SimpleZfsCsi.Nvmet.Converge
import SimpleZfsCsi.Nvmet.Reconcile
import SimpleZfsCsi.Expand.Volume
import SimpleZfsCsi.Library.Decimal
import SimpleZfsCsi.Expand.Growth
import SimpleZfsCsi.Expand.Outline
import SimpleZfsCsi.Expand.Expansion
import SimpleZfsCsi.Expand.Sizes
import SimpleZfsCsi.Exporter.Paths
import SimpleZfsCsi.Provision.Paging
import SimpleZfsCsi.Scrub.Report
import SimpleZfsCsi.Library.Tokens
import SimpleZfsCsi.Nfs.Render
import SimpleZfsCsi.Agent.Labels
import SimpleZfsCsi.Migrate.Claimed
import SimpleZfsCsi.Migrate.Order
import SimpleZfsCsi.Library.Trace
import SimpleZfsCsi.Nvmet.Undisturbed
import SimpleZfsCsi.Nvmet.Steady
import SimpleZfsCsi.Group.Reconcile
import SimpleZfsCsi.Group.Frozen
import SimpleZfsCsi.Group.Site
import SimpleZfsCsi.Group.Passes
import SimpleZfsCsi.Group.Instant
import SimpleZfsCsi.Library.Layered
import SimpleZfsCsi.Zpool.Cli
import SimpleZfsCsi.Zpool.Neat
import SimpleZfsCsi.Zpool.Output
import SimpleZfsCsi.Zpool.Refines
