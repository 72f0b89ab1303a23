import Wscpp.Lib.Words
import Wscpp.Lib.Incremental
import Wscpp.Lib.Utf8
import Wscpp.Lib.Moves
import Wscpp.Lib.Lines
import Wscpp.Lib.Locks
import Wscpp.Frame.Basic
import Wscpp.Frame.Mask
import Wscpp.Frame.Wire
import Wscpp.Frame.Builder
import Wscpp.Frame.Assembly
import Wscpp.Frame.Grammar
import Wscpp.Text
import Wscpp.Deflate
import Wscpp.Cpp.Connection
import Wscpp.Cpp.Handed
import Wscpp.Cpp.Receive
import Wscpp.Cpp.Failure
import Wscpp.Cpp.Threads
import Wscpp.Cpp.Closing
import Wscpp.Cpp.Calls
import Wscpp.Cpp.Reconnect
import Wscpp.Cpp.Lifecycle
import Wscpp.Cpp.Client
import Wscpp.Cpp.Server
import Wscpp.Cpp.Transfer
import Wscpp.Rs.Parser
import Wscpp.Cpp.Parser
import Wscpp.Cpp.Needed
import Wscpp.Rs.Connection
import Wscpp.Rs.Segmentation
import Wscpp.Rs.Session
import Wscpp.Rs.Arrival
import Wscpp.Rs.Delivery
import Wscpp.Rs.Closing
import Wscpp.Rs.Threads
import Wscpp.Rs.Locking
import Wscpp.Rs.Senders
import Wscpp.Rs.Duplex
import Wscpp.Conformance
import Wscpp.Handshake.Headers
import Wscpp.Cpp.Url
import Wscpp.Handshake.Messages
import Wscpp.Cpp.Upgrade
import Wscpp.Rs.Upgrade
import Wscpp.Handshake.Agreement
import Wscpp.Handshake.Acceptance
import Wscpp.Receiver
import Wscpp.Written
import Wscpp.Emission
import Wscpp.WordSize
import Wscpp.Control
import Wscpp.Lib.Waiting
import Wscpp.Cpp.Callbacks
import Wscpp.Cpp.OnClose
import Wscpp.Cpp.Progress
import Wscpp.Rs.Progress
import Wscpp.Rs.Reader
import Wscpp.Link
import Wscpp.Interop
import Wscpp.Rs.Echo
import Wscpp.Cpp.Teardown
import Wscpp.Rs.Buffer
