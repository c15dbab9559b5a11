import Sponge.EventLoop
import Sponge.Adapter
import Sponge.TCP.State

/-! `TCPSpongeSocket`: the thread that runs a TCP connection between the adapter of
a datagram socket and a pair of local descriptors to the application. It is an
event loop of four rules with a tick after every event. -/
namespace Sponge
open EventLoop

namespace TCPReceiverStateSummary

def text : TCPReceiverStateSummary → String
  | .error => "error (connection was reset)"
  | .listen => "waiting for SYN: ackno is empty"
  | .synRecv => "SYN received (ackno exists), and input to stream hasn't ended"
  | .finRecv => "input to stream has ended"

end TCPReceiverStateSummary

namespace TCPSenderStateSummary

def text : TCPSenderStateSummary → String
  | .error => "error (connection was reset)"
  | .closed => "waiting for stream to begin (no SYN sent)"
  | .synSent => "stream started but nothing acknowledged"
  | .synAcked => "stream ongoing"
  | .finSent => "stream finished (FIN sent) but not fully acknowledged"
  | .finAcked => "stream finished and fully acknowledged"

end TCPSenderStateSummary

def TCPState.name (state : TCPState) : String :=
  let flag (b : Bool) := if b then "1" else "0"
  "sender=`" ++ state.sender.text ++ "`, receiver=`" ++ state.receiver.text ++ "`, active=" ++
    flag state.active ++ ", linger_after_streams_finish=" ++ flag state.lingerAfterStreamsFinish

namespace TCPConnection

def remainingOutboundCapacity (c : TCPConnection) : Nat := c.sender.stream.remainingCapacity

def inboundStream (c : TCPConnection) : ByteStream := c.receiver.streamOut

/-- `pop_output` on the inbound stream, which the connection gives away by reference. -/
def popInbound (c : TCPConnection) (len : Nat) : TCPConnection :=
  { c with receiver := { c.receiver with reassembler :=
      { c.receiver.reassembler with output := c.inboundStream.popOutput len } } }

end TCPConnection

/-- The queue of the connection is a history, and `taken` counts what was popped
from it. The bytes of the application are in the history of `threadData`. -/
structure TCPSpongeSocket (α : Type) where
  tcp : TCPConnection
  taken : Nat := 0
  threadData : FileDescriptor := {}
  datagramAdapter : α
  inboundShutdown : Bool := false
  outboundShutdown : Bool := false

namespace TCPSpongeSocket

/-- The four rules, in the order in which they are added. -/
inductive Key where
  | receive
  | readData
  | writeData
  | transmit
deriving DecidableEq, Repr

def rules : List Key := [.receive, .readData, .writeData, .transmit]

/-- What the system answers to one callback, on the side of the application and
on that of the datagrams. -/
structure Answers (δ : Type) where
  thread : Kernel
  device : δ

variable {α δ : Type}

/-- The segments that wait in the queue of the connection. -/
def waiting (s : TCPSpongeSocket α) : List TCPSegment := s.tcp.segmentsOut.drop s.taken

variable [FdAdapter α δ]

def rule : Key → Rule (TCPSpongeSocket α) (Answers δ)
  | .receive => {
      fd := fun s => FdAdapter.fd s.datagramAdapter
      direction := .input
      callback := fun answers s => do
        let (seg, datagramAdapter) ← FdAdapter.read answers.device s.datagramAdapter
        match seg with
        | some seg => return { s with tcp := s.tcp.segmentReceived seg, datagramAdapter }
        | none => return { s with datagramAdapter }
      interest := fun s => s.tcp.active }
  | .readData => {
      fd := threadData
      direction := .input
      callback := fun answers s => do
        let (data, threadData) ← s.threadData.read s.tcp.remainingOutboundCapacity answers.thread
        let (amountWritten, tcp) := s.tcp.write data
        if amountWritten ≠ data.length then
          .error "TCPConnection::write() accepted less than advertised length"
        else if threadData.eof then
          return { s with tcp := tcp.endInputStream, threadData, outboundShutdown := true }
        else return { s with tcp, threadData }
      interest := fun s =>
        s.tcp.active && !s.outboundShutdown && decide (s.tcp.remainingOutboundCapacity > 0)
      cancel := fun s => { s with tcp := s.tcp.endInputStream, outboundShutdown := true } }
  | .writeData => {
      fd := threadData
      direction := .output
      callback := fun answers s => do
        let inbound := s.tcp.inboundStream
        -- Only what the local socket took is popped.
        let amountToWrite := min 65536 inbound.bufferSize
        let (bytesWritten, threadData) ←
          s.threadData.write [inbound.peekOutput amountToWrite] false answers.thread
        let tcp := s.tcp.popInbound bytesWritten
        if tcp.inboundStream.eof || tcp.inboundStream.error then
          return { s with
            tcp, threadData := ← threadData.shutdown .wr answers.thread, inboundShutdown := true }
        else return { s with tcp, threadData }
      interest := fun s => !s.tcp.inboundStream.bufferEmpty ||
        ((s.tcp.inboundStream.eof || s.tcp.inboundStream.error) && !s.inboundShutdown) }
  | .transmit => {
      fd := fun s => FdAdapter.fd s.datagramAdapter
      direction := .output
      callback := fun answers s => do
        let datagramAdapter ← s.waiting.foldlM
          (fun adapter seg => FdAdapter.write answers.device seg adapter) s.datagramAdapter
        return { s with datagramAdapter, taken := s.tcp.segmentsOut.length }
      interest := fun s => !s.waiting.isEmpty }

/-- One turn of the thread: what `wait_next_event` meets, whether the owner forces
the thread to stop, and the milliseconds since the last tick. -/
structure Turn (δ : Type) where
  poll : Poll Key (Answers δ)
  abort : Bool := false
  elapsed : Nat := 0
  device : δ

/-- The body of `_tcp_loop`; the flag says that the loop is left. -/
def pass (turn : Turn δ) (l : Loop Key (TCPSpongeSocket α)) :
    Except String (Bool × Loop Key (TCPSpongeSocket α)) := do
  let (ret, l) ← waitNextEvent rule turn.poll l
  if ret = .exit ∨ turn.abort then return (true, l)
  else if l.data.tcp.active then
    let datagramAdapter ← FdAdapter.tick turn.device turn.elapsed l.data.datagramAdapter
    return (false, { l with data :=
      { l.data with tcp := l.data.tcp.tick turn.elapsed, datagramAdapter } })
  else return (false, l)

/-- `_tcp_loop`, as far as the turns go. -/
def tcpLoop (condition : TCPSpongeSocket α → Bool) :
    List (Turn δ) → Loop Key (TCPSpongeSocket α) → Except String (Bool × Loop Key (TCPSpongeSocket α))
  | [], l => .ok (!condition l.data, l)
  | turn :: turns, l =>
    if condition l.data then do
      let (left, l) ← pass turn l
      if left then return (true, l) else tcpLoop condition turns l
    else .ok (true, l)

def initializeTCP (config : TCPConfig) (random : WrappingInt32) (adapter : α) :
    Loop Key (TCPSpongeSocket α) where
  rules := rules
  data := { tcp := .new config random, datagramAdapter := adapter }

/-- `connect` up to its loop. -/
def dial (cTcp : TCPConfig) (random : WrappingInt32) (cAd : LossyAdapterConfig) (adapter : α) :
    Except String (Loop Key (TCPSpongeSocket α)) :=
  let l := initializeTCP cTcp random (FdAdapter.configure cAd adapter)
  let tcp := l.data.tcp.connect
  let expectedState := TCPState.ofState .synSent
  if tcp.state ≠ expectedState then
    .error ("After TCPConnection::connect(), state was " ++ tcp.state.name ++ " but expected " ++
      expectedState.name)
  else .ok { l with data := { l.data with tcp := tcp } }

def connect (cTcp : TCPConfig) (random : WrappingInt32) (cAd : LossyAdapterConfig) (turns : List (Turn δ))
    (adapter : α) : Except String (Bool × Loop Key (TCPSpongeSocket α)) := do
  let l ← dial cTcp random cAd adapter
  tcpLoop (fun s => s.tcp.state == TCPState.ofState .synSent) turns l

/-- `listen_and_accept` up to its loop. -/
def listen (cTcp : TCPConfig) (random : WrappingInt32) (cAd : LossyAdapterConfig) (adapter : α) :
    Loop Key (TCPSpongeSocket α) :=
  initializeTCP cTcp random (FdAdapter.setListening true (FdAdapter.configure cAd adapter))

def listenAndAccept (cTcp : TCPConfig) (random : WrappingInt32) (cAd : LossyAdapterConfig)
    (turns : List (Turn δ)) (adapter : α) : Except String (Bool × Loop Key (TCPSpongeSocket α)) :=
  tcpLoop (fun s => s.tcp.state == TCPState.ofState .listen || s.tcp.state == TCPState.ofState .synRcvd ||
    s.tcp.state == TCPState.ofState .synSent) turns (listen cTcp random cAd adapter)

/-- The thread after the connection was opened. -/
def tcpMain (turns : List (Turn δ)) (l : Loop Key (TCPSpongeSocket α)) :
    Except String (Bool × Loop Key (TCPSpongeSocket α)) :=
  tcpLoop (fun _ => true) turns l

end TCPSpongeSocket
end Sponge
