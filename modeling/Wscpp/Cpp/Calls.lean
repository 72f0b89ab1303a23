import Wscpp.Cpp.Threads
import Mathlib.Logic.Relation

/-!
# Calls to a wscpp connection

The calls of the application on the connection of `Wscpp.Cpp.Connection`, each run as a whole:
`send_text`, `send_binary`, `send_continuation`, `send_ping` and `close`.  A session is then a
sequence of moves, in which these calls, the arrival of bytes and the turns of `read_loop` follow
one another in any order.  What happens when threads are inside several calls at once is in
`Wscpp.Cpp.Threads`.

`close` waits for the reader thread, which leaves `read_loop` at its next test.
-/

namespace Wscpp.Cpp

/-- What a `send_*` returns other than success. -/
inductive SendError
  | notOpen
  | compressionFailed
  | writeFailed
  deriving DecidableEq, Repr

namespace Connection

variable (p : Platform)

/-- The end of `send_data_frame` and `send_ping`: under the mutex the flags are tested, and then
`outbound_frame_` is written. -/
def sendOutbound (c : Connection) : Connection × Option SendError :=
  if !c.isOpen || c.isClosing then (c, some .notOpen)
  else
    match write p c with
    | (c, true) => (c, none)
    | (c, false) => (c, some .writeFailed)

/-- `send_data_frame`. -/
def sendDataFrame (c : Connection) (op : Opcode) (data : List UInt8) (fin : Bool) :
    Connection × Option SendError :=
  if !c.isOpen then (c, some .notOpen)
  else
    match Job.compressed ⟨p, c.role, c.permessageDeflate⟩ op data fin with
    | none => (c, some .compressionFailed)
    | some (payload, rsv1) =>
        sendOutbound p { c with
          outboundFrame := buildInto p.host c.outboundFrame op payload fin c.outboundMask
            (p.keys c.writes) rsv1 }

/-- `send_text`; a `std::string` holds any bytes. -/
def sendText (c : Connection) (text : List UInt8) (fin : Bool) : Connection × Option SendError :=
  sendDataFrame p c .text text fin

/-- `send_binary`. -/
def sendBinary (c : Connection) (data : List UInt8) (fin : Bool) :
    Connection × Option SendError :=
  sendDataFrame p c .binary data fin

/-- `send_continuation`. -/
def sendContinuation (c : Connection) (data : List UInt8) (fin : Bool) :
    Connection × Option SendError :=
  sendDataFrame p c .continuation data fin

/-- `send_ping`. -/
def sendPing (c : Connection) (data : List UInt8) : Connection × Option SendError :=
  if !c.isOpen then (c, some .notOpen)
  else
    sendOutbound p { c with
      outboundFrame := buildInto p.host c.outboundFrame .ping data true c.outboundMask
        (p.keys c.writes) false }

/-- The status code that `close` sends. -/
def closeCode (code : UInt16) : UInt16 := if isValidCloseCode code then code else 1000

/-- `close`. -/
def close (c : Connection) (code : UInt16) (reason : List UInt8) : Connection :=
  if !c.isOpen || c.isClosing then c
  else
    let c := (write p (buildClose p { c with isClosing := true } (closeCode code) reason)).1
    emitClose { c with isOpen := false, socketOpen := false } (closeCode code) reason

/-- One turn of `read_loop`. -/
def readTurn (c : Connection) : Connection :=
  if c.isOpen && !c.isClosing then (readOneFrame p c).1 else c

end Connection

/-- What can happen next in a session. -/
inductive Move
  | sendText (text : List UInt8) (fin : Bool)
  | sendBinary (data : List UInt8) (fin : Bool)
  | sendContinuation (data : List UInt8) (fin : Bool)
  | sendPing (data : List UInt8)
  | close (code : UInt16) (reason : List UInt8)
  /-- Bytes come from the peer. -/
  | arrive (bytes : List UInt8)
  /-- The reader takes the next frame. -/
  | read

namespace Move

/-- The connection after a move. -/
def run (p : Platform) (c : Connection) : Move → Connection
  | sendText text fin => (c.sendText p text fin).1
  | sendBinary data fin => (c.sendBinary p data fin).1
  | sendContinuation data fin => (c.sendContinuation p data fin).1
  | sendPing data => (c.sendPing p data).1
  | close code reason => c.close p code reason
  | arrive bytes => { c with input := c.input ++ bytes }
  | read => c.readTurn p

/-- The bytes that a caller passes. -/
def data : Move → List UInt8
  | sendText text _ => text
  | sendBinary data _ => data
  | sendContinuation data _ => data
  | sendPing data => data
  | close _ reason => reason
  | arrive _ | read => []

end Move

end Wscpp.Cpp
