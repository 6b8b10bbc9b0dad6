import Nodepool.Effect.Interleave
import Nodepool.Effect.Lift
import Nodepool.Effect.Run
import Nodepool.Effect.Serial
import Nodepool.Quota.Information
import Nodepool.Quota.PoolQuota
import Nodepool.Quota.Acceptance
import Nodepool.Quota.PoolSystem
import Nodepool.Quota.PoolUse
import Nodepool.Quota.PoolLimits
import Nodepool.Launcher.Deferral
import Nodepool.Zk.Client
import Nodepool.Launcher.CleanupWorkers
import Nodepool.Launcher.AbandonedNodes
import Nodepool.Driver.Handler
import Nodepool.Driver.HandlerSystem
import Nodepool.Driver.HandlerFootprint
import Nodepool.Driver.FinalState
import Nodepool.Driver.LockRelease
import Nodepool.Driver.VanishedRequest
import Nodepool.Driver.ZoneAffinity
import Nodepool.Driver.AllocationRelease
import Nodepool.StateMachine.Cleanup
import Nodepool.Builder.Upload
import Nodepool.StateMachine.Launcher
import Nodepool.StateMachine.CloudSystem
import Nodepool.StateMachine.CloudHistory
import Nodepool.StateMachine.LeakScan
import Nodepool.StateMachine.LaunchSystem
import Nodepool.StateMachine.LaunchSteps
import Nodepool.StateMachine.LaunchRetries
import Nodepool.StateMachine.ExternalId
import Nodepool.StateMachine.Provider
import Nodepool.StateMachine.ProviderStop
import Nodepool.IbmVpc.Adapter
import Nodepool.IbmVpc.ImageSystem
import Nodepool.IbmVpc.ImageScan
import Nodepool.Metastatic.Adapter
import Nodepool.Metastatic.Requests
import Nodepool.Cloud.TtlCache
import Nodepool.Cloud.DeleteMachines
import Nodepool.Cloud.DeleteSystem
import Nodepool.Cloud.ImageUploader
import Nodepool.Builder.UploadOutcome
import Nodepool.Builder.UploadLock
import Nodepool.Builder.CleanupWorker
import Nodepool.Builder.Retention
import Nodepool.Builder.CleanupFootprint
import Nodepool.Builder.UploadBuilds
import Nodepool.Builder.UploadImages
import Nodepool.Azure.LaunchQuota
import Nodepool.Zk.Locking
import Nodepool.Zk.ZNodeTree
import Nodepool.Zk.ImageData
import Nodepool.Zk.ImageRoundTrip
import Nodepool.Launcher.ProviderManagers
import Nodepool.Launcher.AssignHandlers
import Nodepool.Launcher.LabelPriority
import Nodepool.Launcher.WorkerExit
import Nodepool.Launcher.LockHandover
import Nodepool.Launcher.CompletedRequests
import Nodepool.Quota.Objects
import Nodepool.Builder.HookFailure
import Nodepool.Launcher.LaunchConcurrency
import Nodepool.Zk.NodeFaults
import Nodepool.Launcher.LostRequests
import Nodepool.Launcher.MinReady
import Nodepool.Zk.OldestUnused
import Nodepool.Quota.InstanceCharges
import Nodepool.Driver.StaticHandler
import Nodepool.Launcher.StaticAcceptance
import Nodepool.Config.DiskImages
import Nodepool.Config.Inheritance
import Nodepool.Config.Validator
import Nodepool.Config.RecentCheck
import Nodepool.Launcher.RequestOrder
import Nodepool.Zk.TreePaths
import Nodepool.Zk.ModelRoundTrip
import Nodepool.Aws.DeleteQueues
import Nodepool.Aws.ImportTags
import Nodepool.Cloud.SegmentedUpload
import Nodepool.Builder.LocalImages
import Nodepool.Kubernetes.NodeLauncher
import Nodepool.Zk.Component
import Nodepool.Zk.LockedCache
import Nodepool.Zk.ListAgreement
import Nodepool.Zk.CacheProgress
import Nodepool.Zk.LockContenders
import Nodepool.Cloud.LazyCache
import Nodepool.Static.SlotTable
import Nodepool.Builder.BuildRequest
import Nodepool.Nodescan.Progress
import Nodepool.Nodescan.Readiness
import Nodepool.Nodescan.Queue
import Nodepool.Base.Spaced
import Nodepool.Cloud.RateLimiter
import Nodepool.Driver.DeclineProtocol
import Nodepool.Builder.ReadyBuilds
