import TokioCronet.Engine.Shutdown
import TokioCronet.Engine.Slot
import TokioCronet.Engine.Registry
import TokioCronet.IdleWaits
import TokioCronet.Abandoned
import TokioCronet.Operations
import TokioCronet.Request.Destruction
import TokioCronet.Request.Buffers
import TokioCronet.Request.Startup
import TokioCronet.Request.Outcome
import TokioCronet.Request.Right
import TokioCronet.Request.Whole
import TokioCronet.Request.Limits
import TokioCronet.Request.Sources
import TokioCronet.Sse.Requests
import TokioCronet.Sse.Conformance
import TokioCronet.Sse.Delivery
import TokioCronet.Reading.Eof
import TokioCronet.Bidirectional.Ending
import TokioCronet.Bidirectional.Reads
import TokioCronet.Bidirectional.Stall
import TokioCronet.Bidirectional.Failures
import TokioCronet.Bidirectional.Capacity
import TokioCronet.Bidirectional.Answers
import TokioCronet.WebSocket.Messages
import TokioCronet.WebSocket.Closing
import TokioCronet.WebSocket.Release
import TokioCronet.WebSocket.Binding
import TokioCronet.WebSocket.Frames
import TokioCronet.WebSocket.Protocols
import TokioCronet.Engine.Networks
import TokioCronet.Nqe.Updates
import TokioCronet.Nqe.Localhost
import TokioCronet.Dns.Resolver
import TokioCronet.Xtask.LibraryNames
import TokioCronet.Xtask.Freshness
import TokioCronet.Xtask.Versions
import TokioCronet.Xtask.GnStrings
import TokioCronet.Xtask.GnNamed
import TokioCronet.Xtask.GnTestonly
import TokioCronet.Xtask.GnBraces
import TokioCronet.Xtask.PrintEnv
import TokioCronet.Xtask.OverlayRuns
