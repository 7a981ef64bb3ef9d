import Vissr.FilterOrder
import Vissr.TreeFile.Rewriting
import Vissr.TreeFile.Robust
import Vissr.TreeFile.Searching
import Vissr.AtServer.EcfConnections
import Vissr.AtServer.ExpiryTicker
import Vissr.AgtServer
import Vissr.Core.Forgery
import Vissr.Core.MetadataText
import Vissr.Core.ErrorQueue
import Vissr.Core.TokenServer
import Vissr.Core.ServiceChannel
import Vissr.ServiceMgr.FeederFollows
import Vissr.ServiceMgr.Notifications
import Vissr.ServiceMgr.FeederDeadlock
import Vissr.Core.Actuators
import Vissr.Transport.Responses
import Vissr.Transport.PathCompression
import Vissr.Transport.JsonEscape
import Vissr.ServiceMgr.CurveParameters
import Vissr.ServiceMgr.CurveWindows
import Vissr.ServiceMgr.DispatcherSends
import Vissr.ServiceMgr.Tickers
import Vissr.Transport.SlotReuse
import Vissr.Transport.TransferRuns
import Vissr.Transport.Mqtt
import Vissr.Transport.GrpcHub
import Vissr.Transport.GrpcSlots
import Vissr.Transport.SessionPool
import Vissr.RangeFilter
import Vissr.UnitScaling
import Vissr.ServiceMgr.MultiSet
import Vissr.Feeder.Actuation
