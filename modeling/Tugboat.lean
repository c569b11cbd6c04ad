import Tugboat.Agent.GuestSafety
import Tugboat.Agent.HotplugRecorded
import Tugboat.Agent.InterfaceNames
import Tugboat.Agent.Leftovers
import Tugboat.Agent.NextMigration
import Tugboat.Agent.StateLocks
import Tugboat.Agent.TokenRefresh
import Tugboat.Agent.VolumeDirectory
import Tugboat.Agent.ShipSnapshots
import Tugboat.ApiServer.CrdDeletion
import Tugboat.ApiServer.Deletion
import Tugboat.ApiServer.FrozenTarget
import Tugboat.ApiServer.MergePatch
import Tugboat.ApiServer.OptimisticPut
import Tugboat.ApiServer.ResumePoint
import Tugboat.Auth.Verb
import Tugboat.Client.ReconcileQueue
import Tugboat.Client.Reflector
import Tugboat.ControllerManager.AggregatedClusterRole
import Tugboat.ControllerManager.AtRest
import Tugboat.ControllerManager.RecreateOverlap
import Tugboat.ControllerManager.RotationSafety
import Tugboat.Scheduler.Capacity
import Tugboat.Store.WatchAggregator
import Tugboat.Store.WatchTask
import Tugboat.Client.Backoff
import Tugboat.ApiServer.AuditBody
import Tugboat.ApiServer.NameGenerator
import Tugboat.Scheduler.LeaderElection
import Tugboat.Scheduler.Selectors
import Tugboat.ControllerManager.TemplateHash
