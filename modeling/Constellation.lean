import Constellation.Text.Utf8
import Constellation.Text.Format
import Constellation.Dns.Record
import Constellation.Dns.Name
import Constellation.Dns.RData
import Constellation.Config
import Constellation.Dns.Zone
import Constellation.Store.Key
import Constellation.Store.Record
import Constellation.Cache.Idle
import Constellation.Store.Cache
import Constellation.Dns.Metrics
import Constellation.Dns.Flatten
import Constellation.Dns.Health
import Constellation.Dns.Message
import Constellation.World
import Constellation.Store.Store
import Constellation.Monad.Keeps
import Constellation.Store.Map
import Constellation.Monad.Local
import Constellation.Store.Isolation
import Constellation.Store.Race
import Constellation.Store.Failover
import Constellation.Dns.Parse
import Constellation.Dns.Handler
import Constellation.Dns.Reply
import Constellation.Data.Toggle
import Constellation.Dns.HealthCheck
import Constellation.Data.Tally
import Constellation.Dns.MetricsWindow
import Constellation.Dns.Reads
import Constellation.Dns.Address
import Constellation.Store.Flush
import Constellation.Store.Coherence
import Constellation.Http.Routes
import Constellation.Dns.Flattener
import Constellation.Dns.Answer
import Constellation.Process
import Constellation.Provenance
import Constellation.Rotation
