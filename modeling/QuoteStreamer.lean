import QuoteStreamer.Lib.Transition
import QuoteStreamer.Lib.Fairness
import QuoteStreamer.Lib.Simulation
import QuoteStreamer.Lib.PubSub
import QuoteStreamer.Lib.Polling
import QuoteStreamer.Lib.Locks
import QuoteStreamer.Lib.SplitAfter
import QuoteStreamer.Lib.InPlace
import QuoteStreamer.Lib.Separated
import QuoteStreamer.Lib.Decimal
import QuoteStreamer.Lib.Register
import QuoteStreamer.Defs
import QuoteStreamer.Text
import QuoteStreamer.Utf8
import QuoteStreamer.Uppercase
import QuoteStreamer.Errors
import QuoteStreamer.SocketAddr
import QuoteStreamer.StockQuote
import QuoteStreamer.Client.Thread
import QuoteStreamer.Client.Handle
import QuoteStreamer.Client.Rounds
import QuoteStreamer.Client.Backlog
import QuoteStreamer.Client.Lifetime
import QuoteStreamer.QuoteServer.State
import QuoteStreamer.QuoteServer.Step
import QuoteStreamer.QuoteServer.Moves
import QuoteStreamer.QuoteServer.LockOwnership
import QuoteStreamer.QuoteServer.Custody
import QuoteStreamer.QuoteServer.ThreadSteps
import QuoteStreamer.QuoteServer.Removal
import QuoteStreamer.QuoteServer.Ownership
import QuoteStreamer.QuoteServer.Registry
import QuoteStreamer.QuoteServer.Enrollment
import QuoteStreamer.QuoteServer.Orphans
import QuoteStreamer.QuoteServer.Snapshots
import QuoteStreamer.QuoteServer.Passes
import QuoteStreamer.QuoteServer.Waiting
import QuoteStreamer.QuoteServer.Life
import QuoteStreamer.QuoteServer.Ticker
import QuoteStreamer.QuoteServer.Quiescence
import QuoteStreamer.QuoteServer.Restart
import QuoteStreamer.QuoteServer.Ahead
import QuoteStreamer.QuoteServer.Progress
import QuoteStreamer.QuoteServer.Delivery
import QuoteStreamer.QuoteServer.Heartbeat
import QuoteStreamer.QuoteServer.Service
import QuoteStreamer.QuoteServer.Poison
import QuoteStreamer.QuoteServer.Retry
import QuoteStreamer.QuoteServer.Handles
import QuoteStreamer.QuoteGenerator
import QuoteStreamer.Codec
import QuoteStreamer.QuoteServer.Config
import QuoteStreamer.QuoteServer.Names
import QuoteStreamer.TcpServer.Handler
import QuoteStreamer.TcpServer.Reader
import QuoteStreamer.TcpServer.Framing
import QuoteStreamer.TcpServer.CutOff
import QuoteStreamer.TcpServer.Clock
import QuoteStreamer.TcpServer.KeepAlive
import QuoteStreamer.TcpServer.Silence
import QuoteStreamer.TcpServer.System
import QuoteStreamer.TcpServer.Holding
import QuoteStreamer.TcpServer.Isolation
import QuoteStreamer.TcpServer.Cleanup
import QuoteStreamer.TcpServer.Serving
import QuoteStreamer.TcpServer.Commands
import QuoteStreamer.TcpServer.Subscription
import QuoteStreamer.TcpServer.Datagrams
import QuoteStreamer.ServerMain.Process
import QuoteStreamer.ServerMain.Uptime
import QuoteStreamer.QuoteClient.Connection
import QuoteStreamer.QuoteClient.Exchange
import QuoteStreamer.QuoteClient.State
import QuoteStreamer.QuoteClient.Pairing
