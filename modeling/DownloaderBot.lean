import DownloaderBot.Core.TransitionSystem
import DownloaderBot.Core.TokenBucket
import DownloaderBot.Core.OptimisticLock
import DownloaderBot.Core.Floats
import DownloaderBot.Core.ExpiringStore
import DownloaderBot.Core.Calendar
import DownloaderBot.Core.Text
import DownloaderBot.Core.Program
import DownloaderBot.Core.Attempts
import DownloaderBot.Db.GuildSettings
import DownloaderBot.Download.Ratelimit
import DownloaderBot.Download.RatelimitRecovery
import DownloaderBot.Download.RatelimitRuns
import DownloaderBot.Download.RatelimitLocking
import DownloaderBot.Download.RatelimitClocks
import DownloaderBot.Download.RatelimitFloats
import DownloaderBot.Download.Jobs
import DownloaderBot.Download.JobsRuns
import DownloaderBot.Download.Keys
import DownloaderBot.Download.RedisStore
import DownloaderBot.Download.RedisExpiry
import DownloaderBot.Download.Discord
import DownloaderBot.Download.Filters
import DownloaderBot.Download.ZipStream
import DownloaderBot.Embeds
import DownloaderBot.Cogs.JobControl
import DownloaderBot.Cogs.CancelRuns
import DownloaderBot.Cogs.RefundOnce
import DownloaderBot.Cogs.RefundBeforeWork
import DownloaderBot.Tasks.Download
import DownloaderBot.Tasks.DownloadRuns
import DownloaderBot.Tasks.Recovery
import DownloaderBot.Tasks.Redirect
import DownloaderBot.Cogs.StatusRuns
import DownloaderBot.Cogs.RecordAtomic
import DownloaderBot.Cogs.RecordRuns
import DownloaderBot.Download.MemberNames
import DownloaderBot.Download.FilterBounds
import DownloaderBot.Cogs.Download
import DownloaderBot.Cogs.HandedFilters
import DownloaderBot.Cogs.Admission
import DownloaderBot.Cogs.AllOrNothing
import DownloaderBot.Cogs.Jobs
import DownloaderBot.Cogs.JobPrivacy
import DownloaderBot.Cogs.InFlightRuns
import DownloaderBot.Core.Protocol
import DownloaderBot.Cogs.StatusPhases
import DownloaderBot.Core.Interrupts
import DownloaderBot.Core.Json
import DownloaderBot.Core.KeyValue
import DownloaderBot.Tasks.UploadProtocol
import DownloaderBot.Tasks.Overlap
import DownloaderBot.Tasks.Service
import DownloaderBot.Storage.Azure
import DownloaderBot.Tasks.Reuse
import DownloaderBot.Cogs.Leftovers
import DownloaderBot.Cogs.RetryPolicy
import DownloaderBot.Db.GuildTable
import DownloaderBot.Cogs.Setup
import DownloaderBot.Cogs.SetupRuns
import DownloaderBot.Cogs.SetupOverlap
import DownloaderBot.Cogs.Retention
import DownloaderBot.Worker.Healthcheck
import DownloaderBot.Core.Generator
import DownloaderBot.Download.ZipPipeline
import DownloaderBot.Download.ZipMembers
import DownloaderBot.Download.ZipFailures
import DownloaderBot.Download.ZipProgress
import DownloaderBot.Download.ZipTicks
import DownloaderBot.Download.ZipRelease
import DownloaderBot.Download.ZipSerial
import DownloaderBot.Core.Periods
import DownloaderBot.Download.PeriodWindows
import DownloaderBot.Download.PeriodWalks
import DownloaderBot.Download.Categories
import DownloaderBot.Download.Durations
import DownloaderBot.Cogs.InvalidFilters
import DownloaderBot.Core.PercentEncoding
import DownloaderBot.Storage.ContentDisposition
import DownloaderBot.Tasks.Deliveries
import DownloaderBot.Tasks.Archive
