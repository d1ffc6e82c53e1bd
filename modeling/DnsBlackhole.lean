import DnsBlackhole.Protocol.Walks
import DnsBlackhole.Protocol.Served
import DnsBlackhole.Protocol.Synthesized
import DnsBlackhole.Cache.Accounting
import DnsBlackhole.Cache.Timed
import DnsBlackhole.Cache.Refresh
import DnsBlackhole.Rules.Statistics
import DnsBlackhole.Filter.LocalReverse
import DnsBlackhole.Filter.Runtime
import DnsBlackhole.Admin.Redaction
import DnsBlackhole.Admin.Logins
import DnsBlackhole.Worker.Diagnostics
import DnsBlackhole.Worker.Protected
import DnsBlackhole.Database.Migration
import DnsBlackhole.Database.SecurityEvents
import DnsBlackhole.Worker.TaskPool
import DnsBlackhole.Admin.LoginLimits
import DnsBlackhole.Config.Load
import DnsBlackhole.Service.Concurrent
import DnsBlackhole.Rpc.Server
import DnsBlackhole.Linux.Restart
import DnsBlackhole.Service.ManagedRequests
import DnsBlackhole.Protocol.Reframed
import DnsBlackhole.Protocol.Cacheable
import DnsBlackhole.Cache.Admitted
import DnsBlackhole.Cache.Claimed
import DnsBlackhole.Protocol.Fits
import DnsBlackhole.Admin.RetryTimes
import DnsBlackhole.Filter.RateLimits
import DnsBlackhole.Admin.Counters
import DnsBlackhole.Form.Effective
import DnsBlackhole.Service.Hosts
import DnsBlackhole.Filter.ReverseNames
import DnsBlackhole.Database.Backfill
import DnsBlackhole.Database.SecurityGroups
import DnsBlackhole.Config.Bootstrap
import DnsBlackhole.Rules.Diagnostics
import DnsBlackhole.Service.QuickRules
import DnsBlackhole.Rules.CacheFiles
import DnsBlackhole.Storage.Kept
import DnsBlackhole.Form.Drafts
import DnsBlackhole.Linux.Undone
import DnsBlackhole.Database.QueryLogExport
import DnsBlackhole.Database.Charts
import DnsBlackhole.Database.Recorded
import DnsBlackhole.Service.Attribution
import DnsBlackhole.Upstream.Rotation
import DnsBlackhole.QueryLog.Csv
import DnsBlackhole.QueryLog.Rendered
import DnsBlackhole.Worker.Datagrams
import DnsBlackhole.Upstream.Transports
import DnsBlackhole.Upstream.Strays
import DnsBlackhole.Worker.TruncatedAnswers
import DnsBlackhole.Worker.FallbackReached
import DnsBlackhole.Protocol.NameRoundTrip
import DnsBlackhole.Listener.TcpServed
import DnsBlackhole.Service.ClientFamilies
import DnsBlackhole.Worker.LoggedTraffic
import DnsBlackhole.Worker.MonitoredServing
