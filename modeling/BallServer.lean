import BallServer.Coroutine.Machine
import BallServer.Coroutine.View
import BallServer.PlayerState
import BallServer.Room.Program
import BallServer.Coroutine.Load
import BallServer.Coroutine.Lock
import BallServer.Room.Branch
import BallServer.Room.Footprint
import BallServer.Room.StartRunning
import BallServer.Room.Shape
import BallServer.Room.Lifecycle
import BallServer.Room.Locks
import BallServer.Room.Inbox
import BallServer.Room.Sessions
import BallServer.GridIndex.Index
import BallServer.GridIndex.Buckets
import BallServer.GridIndex.Query
import BallServer.Quadtree.Tree
import BallServer.AgentMgr.Manager
import BallServer.AgentMgr.Sessions
import BallServer.AgentMgr.Agents
import BallServer.AgentMgr.Versions
import BallServer.AgentMgr.Gateways
import BallServer.Gateway.Service
import BallServer.Gateway.Tables
import BallServer.Gateway.Replay
import BallServer.Table
import BallServer.Scene.State
import BallServer.Scene.Frame
import BallServer.Scene.Sound
import BallServer.Scene.Mass
import BallServer.Scene.Lives
import BallServer.Scene.Indexes
import BallServer.Scene.IndexRuns
import BallServer.GridIndex.Columns
import BallServer.Scene.Orders
import BallServer.Match.Service
import BallServer.RoomMgr.Lending
import BallServer.RoomMgr.Runs
import BallServer.BattleGateway.Service
import BallServer.BattleGateway.Sessions
import BallServer.Admin.Stop
import BallServer.Agent.DailyReward
import BallServer.Agent.Mail
import BallServer.Agent.MailClaims
import BallServer.Agent.Startup
import BallServer.BattleGateway.Agreement
import BallServer.BattleGateway.Handshake
import BallServer.BattleGateway.Incarnations
import BallServer.Framing.Format
import BallServer.Lobby.Attempts
import BallServer.Lobby.Receipt
import BallServer.Admin.BatchMail
import BallServer.Agent.Dirty
import BallServer.Agent.DirtyKept
import BallServer.Agent.Friend
import BallServer.Agent.FriendSymmetry
import BallServer.Agent.KickFinal
import BallServer.Agent.RoleMessage
import BallServer.DbSync.BaseInfo
import BallServer.DbSync.NoneLost
import BallServer.Login.Register
import BallServer.MysqlProxy.Pool
import BallServer.MysqlProxy.Slots
import BallServer.MysqlProxy.Transactions
import BallServer.Agent.FriendLimits
import BallServer.Agent.HotReload
import BallServer.GridIndex.Interchange
import BallServer.Login.Accounts
import BallServer.Login.Admission
import BallServer.Scene.Bodies
import BallServer.Scene.Foods
import BallServer.Scene.Inputs
import BallServer.Traversals
import BallServer.Agent.FriendConverges
import BallServer.Agent.FriendKept
import BallServer.Agent.Achieve
import BallServer.Agent.Bag
import BallServer.Agent.Level
import BallServer.Agent.TxExits
import BallServer.Lobby.Unpacked
import BallServer.Match.Batch
import BallServer.RoomMgr.Initialised
import BallServer.Scene.Deaths
import BallServer.BattleGateway.Codec
import BallServer.Lobby.Chunks
import BallServer.Lobby.Sent
import BallServer.Predict.Actions
import BallServer.Predict.Agreement
import BallServer.Predict.Reconcile
import BallServer.Predict.Replay
import BallServer.Room.Ranking
import BallServer.Arq.Flow
import BallServer.Kcp.Control
import BallServer.Kcp.Core
import BallServer.Kcp.Delivery
import BallServer.Kcp.Drain
import BallServer.Broadcast.Foods
import BallServer.Broadcast.Mirror
import BallServer.Srp.Agreement
import BallServer.Broadcast.Visible
import BallServer.Predict.Remote
import BallServer.Broadcast.Ticks
import BallServer.Quadtree.Rounded
import BallServer.Agent.FriendApart
import BallServer.Agent.FriendOrderly
