import Wscpp.Rs.Connection
import Wscpp.Lib.Moves
import Wscpp.Lib.Locks

/-!
# The tasks of a ws-rs connection

Every field of a `Connection` sits behind a mutex of its own, and any number of tasks (or threads,
in the blocking version, whose bodies are the same) may call its methods.  This file has all of
them, one atomic step at a time: taking a mutex, releasing one, or an action on what it protects.

A method is a program with locks (`Wscpp.Locks`), in the order of the source; a guard that goes out
of scope is an `unlock`.  Where the source branches, the action that decides replaces the program
behind it (`Action.turn`); it runs the same `parse`, `parse_close_payload` and so on as the
sequential model.  An I/O error leaves a method through the guards that it holds, which is `unwind`.
`write_all` is any number of partial writes, from the shared buffer `outbound` or, in `send_raw`,
from the caller's bytes.

What has arrived from the peer and is not yet read is the `input` of the connection.  A read waits
while it is empty, unless the peer has ended the stream.  The masking key of a frame is fixed when
the call begins; `writes` counts the keys.  `permessage_deflate` is set before a connection is
shared and is constant here, but its mutex is not left out.

What holds in every state of every run is in `Wscpp.Rs.Locking`.
-/

namespace Wscpp.Rs.Threads

open Utf8 Moves Locks

/-! ## What is sent -/

/-- The frames that are sent: by the calls of the application, and by `read_message`. -/
inductive Outgoing
  | text (text : String) (fin : Bool)
  | binary (data : List UInt8) (fin : Bool)
  | continuation (data : List UInt8) (fin : Bool)
  | ping (data : List UInt8)
  | pong (data : List UInt8)
  | close (code : UInt16) (reason : String)
  /-- `send_raw`. -/
  | raw (frame : List UInt8)
  /-- The answer of `handle_close_frame`. -/
  | echo (code : UInt16)
  deriving DecidableEq

/-- The call is one of the application's. -/
def Outgoing.isPublic : Outgoing → Bool
  | echo _ => false
  | _ => true

/-- A frame to be sent, with the masking key that is drawn for it. -/
structure Job where
  call : Outgoing
  key : Key
  deriving DecidableEq

namespace Job

variable (e : Env) (c : Connection)

/-- `send_data_frame` on the buffer `out`; nothing if the compression fails. -/
def buildData (opcode : Opcode) (data : List UInt8) (fin : Bool) (key : Key) (out : List UInt8) :
    Option (List UInt8) :=
  if c.permessageDeflate && fin && (opcode == .text || opcode == .binary) then
    (compressMessage e.zlib data).map fun payload =>
      buildIntoOpcode out opcode payload fin c.mask true key
  else some (buildIntoOpcode out opcode data fin c.mask false key)

/-- What the buffer `out` holds once the frame is built into it; nothing if the compression
fails.  `send_raw` has its bytes already. -/
def build (out : List UInt8) (job : Job) : Option (List UInt8) :=
  match job.call with
  | .text text fin => buildData e c .text (strBytes text) fin job.key out
  | .binary data fin => buildData e c .binary data fin job.key out
  | .continuation data fin => some (buildIntoOpcode out .continuation data fin c.mask false job.key)
  | .ping data => some (buildIntoOpcode out .ping data true c.mask false job.key)
  | .pong data => some (buildIntoOpcode out .pong data true c.mask false job.key)
  | .close code reason =>
      some (buildCloseInto out (sanitizeCloseCode code) (strBytes reason) c.mask job.key)
  | .raw frame => some frame
  | .echo code => some (buildCloseInto out code [] c.mask job.key)

/-- The frame of a call, if it has one. -/
def frame (job : Job) : Option (List UInt8) := job.build e c []

/-- The bytes given to `write_all`: those of the caller, or the shared buffer. -/
def buffer (job : Job) : List UInt8 :=
  match job.call with
  | .raw frame => frame
  | _ => c.outbound

/-- The frame is given by its bytes. -/
def isRaw (job : Job) : Bool :=
  match job.call with
  | .raw _ => true
  | _ => false

end Job

/-! ## Programs -/

/-- The mutexes of `Connection`, by the fields that they protect. -/
inductive Mutex
  | stream
  | parser
  | isOpen
  | permessageDeflate
  | outbound
  | fragment
  | lastClose
  | readState
  deriving DecidableEq, Repr

/-- What a task does between two operations on mutexes. -/
inductive Action
  /-- `if !self.is_open()` in `read_frame`. -/
  | testOpen
  /-- The call to `parse` in the loop of `read_frame`, and the `match` on its result. -/
  | parse
  /-- `stream.read`. -/
  | read
  /-- The `match` of `read_message` on the opcode. -/
  | handle (frame : Frame)
  | setLastClose (code : UInt16) (reason : List UInt8)
  /-- The continuation arm, under `fragment`. -/
  | continuation (payload : List UInt8) (fin : Bool)
  /-- The text and binary arm, under `fragment`. -/
  | data (opcode : Opcode) (frame : Frame)
  /-- `deliver_message`, behind `permessage_deflate`. -/
  | deliver (opcode : Opcode) (payload : List UInt8) (compressed : Bool)
  /-- `compress_message` in `send_data_frame`. -/
  | compress (job : Job)
  | build (job : Job)
  /-- `write_all`, after so many bytes. -/
  | write (job : Job) (written : ℕ)
  | flush
  | clearOpen

/-- What is left of a call. -/
abbrev Code := List (Op Mutex Action)

/-- `send_raw`. -/
def sendRaw (job : Job) : Code :=
  [.lock .stream, .act (.write job 0), .act .flush, .unlock .stream]

/-- `send_frame_into`. -/
def sendFrameInto (job : Job) : Code :=
  .lock .outbound :: .act (.build job) :: sendRaw job ++ [.unlock .outbound]

/-- `*self.open.lock() = false`. -/
def clearOpen : Code := [.lock .isOpen, .act .clearOpen, .unlock .isOpen]

/-- `self.permessage_deflate()`. -/
def loadDeflate : Code := [.lock .permessageDeflate, .unlock .permessageDeflate]

/-- What sends a frame. -/
def Job.program (job : Job) : Code :=
  match job.call with
  | .text _ _ => loadDeflate ++ [.act (.compress job)]
  | .binary _ _ => loadDeflate ++ [.act (.compress job)]
  | .continuation _ _ => sendFrameInto job
  | .ping _ => sendFrameInto job
  | .pong _ => sendFrameInto job
  | .close _ _ => sendFrameInto job ++ clearOpen
  | .raw _ => sendRaw job
  | .echo _ => sendFrameInto job ++ clearOpen

/-- One turn of the loop of `read_message`: `read_frame`, as far as it does not branch. -/
def readFrame : Code := [.lock .isOpen, .act .testOpen, .unlock .isOpen]

/-- `deliver_message`. -/
def deliverMessage (opcode : Opcode) (payload : List UInt8) (compressed : Bool) : Code :=
  loadDeflate ++ [.act (.deliver opcode payload compressed)]

/-- How a task goes on after an action. -/
inductive Turn
  | go (code : Code)
  /-- It sends a frame of its own. -/
  | answer (call : Outgoing) (before after : Code)

/-- What is left to do. -/
def Turn.code (key : Key) : Turn → Code
  | go code => code
  | answer call before after => before ++ Job.program ⟨call, key⟩ ++ after

/-- The frame that is begun. -/
def Turn.job (key : Key) : Turn → Option Job
  | go _ => none
  | answer call _ _ => some ⟨call, key⟩

namespace Action

variable (e : Env)

/-- The end of `deliver_message`, on the decompressed payload. -/
def deliverPlain (rest : Code) (opcode : Opcode) (plain : List UInt8) : Turn :=
  if opcode == .text && !isValidUtf8 plain then
    .answer (.close 1007 "Invalid UTF-8 in text frame") [] rest
  else .go rest

/-- The `match` of `read_message` on one frame. -/
def handleFrame (rest : Code) (frame : Frame) : Turn :=
  match frame.header.opcode with
  | .close =>
      let (code, reason) := Connection.parseClosePayload frame.payload
      .answer (.echo code)
        [.lock .lastClose, .act (.setLastClose code reason), .unlock .lastClose] rest
  | .ping => .answer (.pong frame.payload) [] (rest ++ readFrame)
  | .pong => .go (rest ++ readFrame)
  | .continuation =>
      .go ([.lock .fragment, .act (.continuation frame.payload frame.header.fin),
        .unlock .fragment] ++ rest)
  | .text => .go ([.lock .fragment, .act (.data .text frame), .unlock .fragment] ++ rest)
  | .binary => .go ([.lock .fragment, .act (.data .binary frame), .unlock .fragment] ++ rest)

/-- What an action does to the connection, and how the task goes on; `rest` is the program behind
the action. -/
def turn (c : Connection) (rest : Code) : Action → Connection × Turn
  | testOpen =>
      (c, .go (if c.isOpen then
          rest ++ [.lock .readState, .lock .parser, .act .parse, .unlock .parser,
            .unlock .readState]
        else rest))
  | parse =>
      match c.parseBuffered e with
      | (c, some .complete) =>
          match c.completeFrame with
          | (c, .ok (some frame)) => (c, .go (loadDeflate ++ rest ++ [.act (.handle frame)]))
          | (c, _) => (c, .go (loadDeflate ++ rest))
      | (c, some .error) => (c, .answer (.close 1002 "invalid frame") rest [])
      | (c, none) =>
          (c.compact, .go ([.lock .stream, .act .read, .unlock .stream, .act .parse] ++ rest))
  | read =>
      match c.input with
      | [] => (c, .go (unwind [] rest ++ Threads.clearOpen))
      | .error :: input => ({ c with input := input }, .go (unwind [] rest))
      | .data chunk :: input =>
          ({ c with
             input := input
             readState := { c.readState with buf := c.readState.buf ++ chunk.bytes } }, .go rest)
  | handle frame => (c, handleFrame rest frame)
  | setLastClose code reason => ({ c with lastClose := some (code, reason) }, .go rest)
  | continuation payload fin =>
      if !c.fragment.active then
        (c, .answer (.close 1002 "Unexpected continuation frame") [] rest)
      else
        let buffer := c.fragment.buffer ++ payload
        if fin then
          ({ c with fragment := .reset },
            .go (rest ++ deliverMessage c.fragment.opcode buffer c.fragment.compressed))
        else ({ c with fragment := { c.fragment with buffer := buffer } }, .go (rest ++ readFrame))
  | data opcode frame =>
      if c.fragment.active then
        (c, .answer (.close 1002 "New data frame before fragmented message completed") [] rest)
      else if !frame.header.fin then
        ({ c with fragment := ⟨true, frame.payload, opcode, frame.header.rsv1⟩ },
          .go (rest ++ readFrame))
      else (c, .go (deliverMessage opcode frame.payload frame.header.rsv1 ++ rest))
  | deliver opcode payload compressed =>
      if compressed then
        if !c.permessageDeflate then
          (c, .answer (.close 1002 "Compressed frame without negotiated extension") [] rest)
        else
          match decompressMessage e.zlib payload with
          | none => (c, .go rest)
          | some plain => (c, deliverPlain rest opcode plain)
      else (c, deliverPlain rest opcode payload)
  | compress job =>
      (c, .go (if (job.frame e c).isSome then sendFrameInto job ++ rest else rest))
  | build job => ({ c with outbound := (job.build e c c.outbound).getD c.outbound }, .go rest)
  | write _ _ => (c, .go rest)
  | flush => (c, .go rest)
  | clearOpen => ({ c with isOpen := false }, .go rest)

end Action

/-! ## The system -/

/-- A connection and its tasks: the owners of the mutexes, what is left of each task's call and
whether that is `read_message`, and the bytes written.  Beside them stand the frames that were begun
and those that are finished, each with its task. -/
structure System (ι : Type) where
  conn : Connection
  owner : Mutex → Option ι
  rest : ι → Code
  reading : ι → Bool
  /-- The peer sends nothing more. -/
  ended : Bool
  wire : List UInt8
  begun : List (ι × Job)
  finished : List (ι × Job)

/-- A step of the system. -/
inductive Act (ι : Type)
  /-- A sending call begins. -/
  | send (t : ι) (call : Outgoing)
  /-- A call of `read_message` begins. -/
  | read (t : ι)
  /-- A task does its next operation; a write may fail, or write `n` bytes at most. -/
  | run (t : ι) (ok : Bool) (n : ℕ)
  | arrive (event : ReadEvent)
  | hangUp

namespace System

variable {ι : Type} [DecidableEq ι] (e : Env)

/-- A connection that nobody uses. -/
def opened (c : Connection) : System ι where
  conn := c
  owner := fun _ => none
  rest := fun _ => []
  reading := fun _ => false
  ended := false
  wire := []
  begun := []
  finished := []

/-- A read would wait. -/
def silent (s : System ι) : Bool := s.conn.input.isEmpty && !s.ended

/-- The task has this left to do. -/
def put (s : System ι) (t : ι) (code : Code) : System ι :=
  { s with rest := Function.update s.rest t code }

/-- The task goes on, maybe with a frame to send. -/
def follow (s : System ι) (t : ι) (c : Connection) (turn : Turn) : System ι :=
  { s.put t (turn.code (e.keys c.writes)) with
    conn := { c with writes := c.writes + (turn.job (e.keys c.writes)).toList.length }
    begun := s.begun ++ (turn.job (e.keys c.writes)).toList.map (t, ·) }

/-- The frame is done with. -/
def finish (s : System ι) (t : ι) (job : Job) : System ι :=
  { s with finished := s.finished ++ [(t, job)] }

/-- One partial write of `write_all`, of at least a byte if there is one. -/
def write (s : System ι) (t : ι) (n : ℕ) (rest : Code) (job : Job) (written : ℕ) :
    Option (System ι) :=
  let buffer := job.buffer s.conn
  let piece := (buffer.drop written).take n
  let s := { s with wire := s.wire ++ piece }
  if buffer.length ≤ written + piece.length then some ((s.put t rest).finish t job)
  else if piece.isEmpty then none
  else some (s.put t (.act (.write job (written + piece.length)) :: rest))

/-- What an action does; `rest` is the program behind it. -/
def perform (s : System ι) (t : ι) (ok : Bool) (n : ℕ) (rest : Code) : Action → Option (System ι)
  | .read =>
      if s.silent then none
      else
        let r := Action.turn e s.conn rest .read
        some (s.follow e t r.1 r.2)
  | .compress job =>
      let r := Action.turn e s.conn rest (.compress job)
      let s' := s.follow e t r.1 r.2
      -- a call whose compression fails returns the error, and sends nothing
      some (if (job.frame e s.conn).isSome then s' else s'.finish t job)
  | .write job written =>
      if ok then s.write t n rest job written else some (s.put t (unwind [] rest))
  | .flush => some (if ok then s.follow e t s.conn (.go rest) else s.put t (unwind [] rest))
  | a =>
      let r := a.turn e s.conn rest
      some (s.follow e t r.1 r.2)

/-- The next operation of a task. -/
def run (s : System ι) (t : ι) (ok : Bool) (n : ℕ) : Option (System ι) :=
  match s.rest t with
  | [] => none
  | .lock m :: rest =>
      if (s.owner m).isSome then none
      else some { s.put t rest with owner := Function.update s.owner m (some t) }
  | .unlock m :: rest => some { s.put t rest with owner := Function.update s.owner m none }
  | .act a :: rest => s.perform e t ok n rest a

/-- The steps of the system. -/
def step (s : System ι) : Act ι → Option (System ι)
  | .send t call =>
      if (s.rest t).isEmpty && call.isPublic then
        some { s.follow e t s.conn (.answer call [] []) with
          reading := Function.update s.reading t false }
      else none
  | .read t =>
      if (s.rest t).isEmpty then
        some { s.put t readFrame with reading := Function.update s.reading t true }
      else none
  | .run t ok n => s.run e t ok n
  | .arrive event =>
      if s.ended then none
      else some { s with conn := { s.conn with input := s.conn.input ++ [event] } }
  | .hangUp => some { s with ended := true }

end System

end Wscpp.Rs.Threads
