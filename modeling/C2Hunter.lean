import C2Hunter.AiRunHistory
import C2Hunter.Allowlist
import C2Hunter.BaselineAgree
import C2Hunter.Beacon
import C2Hunter.CaptureBudget
import C2Hunter.CaptureLimits
import C2Hunter.ExportLease
import C2Hunter.ExportRetention
import C2Hunter.FlowPipeline
import C2Hunter.IndexedExport
import C2Hunter.LiveIndexLifecycle
import C2Hunter.NetworkLanes
import C2Hunter.NetworkOrigin
import C2Hunter.PcapArchive
import C2Hunter.PostingLease
import C2Hunter.PostingSound
import C2Hunter.PreparationOwner
import C2Hunter.RateLimiter
import C2Hunter.RedisQueue
import C2Hunter.ReportedLoss
import C2Hunter.SegmentRepair
