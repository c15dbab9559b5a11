import Sponge.TCP.Receiver
import Sponge.TCP.Sender

/-! A connection: a receiver and a sender with one outbound queue. The queue is
never taken from here, so it is the history of what the connection has sent. -/
namespace Sponge

structure TCPConnection where
  cfg : TCPConfig
  receiver : TCPReceiver
  sender : TCPSender
  segmentsOut : List TCPSegment
  lingerAfterStreamsFinish : Bool
  timeSinceLastSegmentReceived : Nat
  active : Bool
deriving DecidableEq, Repr

namespace TCPConnection

/-- `random` stands for the random device, asked when no fixed ISN is configured. -/
def new (cfg : TCPConfig) (random : WrappingInt32) : TCPConnection where
  cfg := cfg
  receiver := .new cfg.recvCapacity
  sender := .new cfg.sendCapacity cfg.rtTimeout (cfg.fixedIsn.getD random)
  segmentsOut := []
  lingerAfterStreamsFinish := true
  timeSinceLastSegmentReceived := 0
  active := true

/-- Fill in what the receiver has to say. -/
def setSeg (c : TCPConnection) (seg : TCPSegment) : TCPSegment :=
  match c.receiver.ackno with
  | none => seg
  | some ackno => { seg with
      header := { seg.header with
        ack := true
        ackno := ackno
        win := UInt16.ofNat c.receiver.windowSize } }

/-- The inbound stream ended before the outbound one: no lingering. -/
def stopLinger (c : TCPConnection) : TCPConnection :=
  if c.sender.stream.eof = false ∧ c.receiver.streamOut.inputEnded = true
  then { c with lingerAfterStreamsFinish := false } else c

def cleanShutdown (c : TCPConnection) : TCPConnection :=
  let c := c.stopLinger
  if c.sender.stream.eof = true ∧ c.receiver.streamOut.inputEnded = true ∧ c.sender.bytesInFlight = 0
  then
    if c.lingerAfterStreamsFinish = false ∨
        c.timeSinceLastSegmentReceived ≥ 10 * c.cfg.rtTimeout.toNat
    then { c with active := false } else c
  else c

/-- The loop that moves the sender's segments to the connection's queue. -/
def flush (c : TCPConnection) : TCPConnection :=
  { c with
    segmentsOut := c.segmentsOut ++ c.sender.segmentsOut.map c.setSeg
    sender := { c.sender with segmentsOut := [] } }

def sendSegsFromSender (c : TCPConnection) : TCPConnection := c.flush.cleanShutdown

/-- Both streams in error and no longer active. -/
def kill (c : TCPConnection) : TCPConnection :=
  { c with
    sender := { c.sender with stream := c.sender.stream.setError }
    receiver := c.receiver.setError
    active := false }

/-- The front of the sender's queue goes out with RST. Every caller has just put
a segment on that queue; taking from an empty one is undefined in the source. -/
def uncleanShutdown (c : TCPConnection) : TCPConnection :=
  let c := c.kill
  match c.sender.segmentsOut with
  | [] => c
  | seg :: rest =>
    let seg := c.setSeg seg
    { c with
      sender := { c.sender with segmentsOut := rest }
      segmentsOut := c.segmentsOut ++ [{ seg with header := { seg.header with rst := true } }] }

def connect (c : TCPConnection) : TCPConnection :=
  { c with sender := c.sender.fillWindow }.sendSegsFromSender

def write (c : TCPConnection) (data : List UInt8) : Nat × TCPConnection :=
  if data.length = 0 then (0, c)
  else
    let (writtenSize, sender) := c.sender.write data
    (writtenSize, { c with sender := sender.fillWindow }.sendSegsFromSender)

def endInputStream (c : TCPConnection) : TCPConnection :=
  { c with sender := c.sender.endInput.fillWindow }.sendSegsFromSender

def tick (c : TCPConnection) (msSinceLastTick : Nat) : TCPConnection :=
  if c.active = false then c
  else
    let c := { c with
      timeSinceLastSegmentReceived := FixedWidth.add 64 c.timeSinceLastSegmentReceived msSinceLastTick
      sender := c.sender.tick msSinceLastTick }
    let c := if c.sender.consecutiveRetransmission > TCPConfig.maxRetxAttempts
      then c.uncleanShutdown else c
    c.sendSegsFromSender

/-- Neither side has begun. -/
def listening (c : TCPConnection) : Bool := c.receiver.ackno.isNone && c.sender.nextSeqno == 0

/-- A SYN is out, nothing is acknowledged, and the peer's SYN has not come. -/
def synSent (c : TCPConnection) : Bool :=
  decide (c.sender.nextSeqno > 0) && c.sender.nextSeqno == c.sender.bytesInFlight &&
    c.receiver.ackno.isNone

/-- The segment goes to the receiver and its acknowledgement, flagged or not, to
the sender. -/
def deliver (c : TCPConnection) (seg : TCPSegment) : TCPConnection :=
  { c with
    receiver := c.receiver.segmentReceived seg
    sender := c.sender.ackReceived seg.header.ackno seg.header.win }

/-- An ACK of the segment, if nothing else is about to go out. -/
def answer (c : TCPConnection) (seg : TCPSegment) : TCPConnection :=
  if c.sender.segmentsOut.isEmpty ∧ c.receiver.ackno.isSome ∧ seg.lengthInSequenceSpace ≠ 0
  then { c with sender := c.sender.sendEmptySegment } else c

def established (c : TCPConnection) (seg : TCPSegment) : TCPConnection :=
  let c := c.deliver seg
  if seg.header.rst then { c with sender := c.sender.sendEmptySegment }.uncleanShutdown
  else (c.answer seg).sendSegsFromSender

/-- The states LISTEN and SYN_SENT, and all others, in the order of the source. -/
def dispatch (c : TCPConnection) (seg : TCPSegment) : TCPConnection :=
  if c.listening then
    if seg.header.syn = false then c
    else { c with receiver := c.receiver.segmentReceived seg }.connect
  else if c.synSent then
    if seg.payload.length > 0 ∨ seg.header.ack = false then
      -- Simultaneous open: the empty segment waits for the next flush.
      if seg.header.ack = false ∧ seg.header.syn = true then
        { c with
          receiver := c.receiver.segmentReceived seg
          sender := c.sender.sendEmptySegment }
      else c
    else if seg.header.rst then c.kill
    else c.established seg
  else c.established seg

def segmentReceived (c : TCPConnection) (seg : TCPSegment) : TCPConnection :=
  if c.active = false then c
  else { c with timeSinceLastSegmentReceived := 0 }.dispatch seg

def readInbound (c : TCPConnection) (len : Nat) : List UInt8 × TCPConnection :=
  ((c.receiver.read len).1, { c with receiver := (c.receiver.read len).2 })

end TCPConnection
end Sponge
