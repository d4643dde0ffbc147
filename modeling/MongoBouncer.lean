import MongoBouncer.LruRuns
import MongoBouncer.Wire.Protocol
import MongoBouncer.Mongo.Leak
import MongoBouncer.Mongo.Locking
import MongoBouncer.Mongo.Pods
import MongoBouncer.Mongo.SessionRace
import MongoBouncer.Mongo.TopologyMonitor
import MongoBouncer.Mongo.RequestForwarder
import MongoBouncer.Metrics.BackgroundGauge
import MongoBouncer.Metrics.Batching
import MongoBouncer.Mongo.Cursors
import MongoBouncer.Proxy.RouteCache
import MongoBouncer.Proxy.PoolAccounting
import MongoBouncer.Proxy.Passthrough
import MongoBouncer.Proxy.Replies
import MongoBouncer.Proxy.PoolLimit
import MongoBouncer.Proxy.ClientLedger
import MongoBouncer.Proxy.Identity
import MongoBouncer.Proxy.PayloadRouting
import MongoBouncer.Proxy.SessionGauge
import MongoBouncer.Config.Conflicts
import MongoBouncer.Config.ConnectionStrings
import MongoBouncer.Config.Settings
import MongoBouncer.Config.Admission
import MongoBouncer.Proxy.SessionMemory
