import Cardwar.Lib.Run
import Cardwar.Lib.SyncMap
import Cardwar.Lib.Slots
import Cardwar.Lib.Batcher
import Cardwar.Protocol
import Cardwar.Conf
import Cardwar.Gateway.Routes
import Cardwar.Gateway.Reconnect
import Cardwar.Persist.Store
import Cardwar.SessionSvr.Router
import Cardwar.SessionSvr.Persist
import Cardwar.MatchSvr.Queue
import Cardwar.Pkg.PoolEntry
import Cardwar.Pkg.Pool
import Cardwar.SessionSvr.Expiry
import Cardwar.Codec
import Cardwar.Lib.Strconv
import Cardwar.Pkg.Server
import Cardwar.RoomSvr.Router
import Cardwar.MatchSvr.Router
import Cardwar.Services
import Cardwar.Gateway.Client
import Cardwar.Gateway.PlayerConns
import Cardwar.ChatSvr.Router
import Cardwar.System.Identity
import Cardwar.System.Startup
import Cardwar.System.Chat
import Cardwar.RoomSvr.Concurrent
import Cardwar.System.Matchmaking
import Cardwar.System.Directory
import Cardwar.Gateway.Player
import Cardwar.System.Sessions
import Cardwar.System.Ownership
import Cardwar.System.Exchange
import Cardwar.MatchSvr.Load
import Cardwar.RoomSvr.Members
import Cardwar.RoomSvr.Events
import Cardwar.Lib.Lease
import Cardwar.SessionSvr.Replay
import Cardwar.SessionSvr.JournalOrder
import Cardwar.SessionSvr.Window
import Cardwar.SessionSvr.Lifecycle
import Cardwar.Persist.Journal
import Cardwar.System.Instances
import Cardwar.System.QueueExpiry
import Cardwar.Pkg.Reconnects
import Cardwar.Pkg.Removal
import Cardwar.Pkg.Routers
import Cardwar.Pkg.Sync
import Cardwar.Gateway.Reload
import Cardwar.Conf.Watch
import Cardwar.Gateway.Handshake
import Cardwar.Lib.Ledger
import Cardwar.MatchSvr.Fifo
import Cardwar.MatchSvr.Allocate
import Cardwar.RoomSvr.Responses
import Cardwar.UserService.Handler
import Cardwar.Gateway.PlayerProperty
import Cardwar.MatchSvr.Repeats
import Cardwar.MatchSvr.Placement
import Cardwar.MatchSvr.Ids
import Cardwar.Gateway.Waiters
import Cardwar.Lib.Float64
import Cardwar.Auth.Jwt
import Cardwar.Lib.Json
import Cardwar.SessionSvr.Files
import Cardwar.Lib.LeasedStore
import Cardwar.Etcdutil.Registry
import Cardwar.Etcdutil.Resolver
import Cardwar.Gateway.Conns
import Cardwar.Gateway.Disconnects
import Cardwar.System.RoomEvents
import Cardwar.System.RoomRouting
import Cardwar.Lib.Goroutine
import Cardwar.Lib.GoSlice
import Cardwar.RoomSvr.Slices
import Cardwar.MatchSvr.Slices
import Cardwar.System.Provenance
import Cardwar.System.Traffic
