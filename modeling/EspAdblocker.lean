import EspAdblocker.Bloom.Image
import EspAdblocker.Storage.Overlap
import EspAdblocker.Dns.Confirming
import EspAdblocker.Dns.NameBuffer
import EspAdblocker.Dns.Message
import EspAdblocker.Dns.Failover
import EspAdblocker.Dns.Reloading
import EspAdblocker.Dns.Received
import EspAdblocker.Dns.History
import EspAdblocker.Dns.Upstream
import EspAdblocker.Dns.Statistics
import EspAdblocker.Dns.Logging
import EspAdblocker.Dns.Deadlines
import EspAdblocker.Dns.Mixture
import EspAdblocker.Web.AllowlistPage
import EspAdblocker.Web.QueryLogPage
import EspAdblocker.Web.RefreshInterval
import EspAdblocker.Web.Storing
import EspAdblocker.Web.Status
import EspAdblocker.Firmware.Custody
import EspAdblocker.Firmware.Resolvers
