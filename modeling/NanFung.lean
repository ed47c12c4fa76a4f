import NanFung.AttemptBudget
import NanFung.LeaseSafety
import NanFung.ManualRequests
import NanFung.Revocation
import NanFung.Capture
import NanFung.Throttle
import NanFung.Promotion
import NanFung.Scopes
import NanFung.Spec.RefreshControl
import NanFung.Spec.RefreshCalls
import NanFung.RefreshBudget
import NanFung.Cooldown
import NanFung.Confirmation
import NanFung.Materialisation
import NanFung.Runtime.Queue
import NanFung.Sse.Recovery
import NanFung.Brief.Projection
import NanFung.Brief.Refresh
import NanFung.Brief.Calls
import NanFung.Read.Records
import NanFung.Brief.Repeats
import NanFung.Brief.Guards
import NanFung.Http.Handled
import NanFung.Read.Availability
import NanFung.Release.Contracts
import NanFung.Release.Acquisition
import NanFung.PreImages
import NanFung.Ticks
import NanFung.Release.Streaming
import NanFung.Read.Cursors
import NanFung.Agent.Verification
import NanFung.BrokenSchedules
import NanFung.RetryAfter
import NanFung.Read.Locators
import NanFung.Sources.BankRate
import NanFung.Sources.Backfill
import NanFung.Release.SourceUrls
import NanFung.Lineage
import NanFung.Release.Agreement
import NanFung.OnSchedule
import NanFung.Reproducible
import NanFung.Read.Paging
import NanFung.Approvals
import NanFung.Migrations
import NanFung.BackupContents
