import Sponge.TCP.Segment
import Sponge.ByteStream

/-! The TCP sender as the source computes it. Absolute sequence numbers are
natural numbers; the acknowledged base, the window, the right edge and the end
of the front segment are the source's 32-bit `unsigned int` and are truncated
wherever it assigns them. -/
namespace Sponge

structure TCPSender where
  isn : WrappingInt32
  segmentsOut : List TCPSegment
  initialRetransmissionTimeout : Nat
  stream : ByteStream
  nextSeqno : Nat
  outstandingSegments : List TCPSegment
  rto : Nat
  bytesInFlight : Nat
  consecutiveRetransmission : Nat
  timerRunning : Bool
  backOff : Bool
  timeElipsed : Nat
  receiverWindowSize : Nat
  rcvBase : Nat
  synSent : Bool
  finSent : Bool
deriving DecidableEq, Repr

namespace TCPSender

/-- `isn` is the fixed initial sequence number, or the random device's value. -/
def new (capacity : Nat) (retxTimeout : UInt16) (isn : WrappingInt32) : TCPSender where
  isn := isn
  segmentsOut := []
  initialRetransmissionTimeout := retxTimeout.toNat
  stream := .new capacity
  nextSeqno := 0
  outstandingSegments := []
  rto := retxTimeout.toNat
  bytesInFlight := 0
  consecutiveRetransmission := 0
  timerRunning := false
  backOff := true
  timeElipsed := 0
  receiverWindowSize := 1
  rcvBase := 0
  synSent := false
  finSent := false

def segmentHandler (s : TCPSender) (seg : TCPSegment) : TCPSender :=
  let seg := seg.withSeqno (wrap s.nextSeqno s.isn)
  { s with
    bytesInFlight := s.bytesInFlight + seg.lengthInSequenceSpace
    nextSeqno := s.nextSeqno + seg.lengthInSequenceSpace
    outstandingSegments := s.outstandingSegments ++ [seg]
    segmentsOut := s.segmentsOut ++ [seg]
    timerRunning := true
    timeElipsed := if s.timerRunning then s.timeElipsed else 0 }

/-- One iteration's free space: a 64-bit difference stored in 32 bits. -/
def freeBytes (s : TCPSender) (winRightEdge : Nat) : Nat := FixedWidth.sub 32 winRightEdge s.nextSeqno

/-- The body of the send loop. -/
def sendData (s : TCPSender) (winRightEdge : Nat) : TCPSender :=
  let free := s.freeBytes winRightEdge
  let payloadSize := if free > TCPConfig.maxPayloadSize then TCPConfig.maxPayloadSize else free
  let (payload, stream) := s.stream.read payloadSize
  let seg : TCPSegment := { payload := payload }
  let fin := stream.eof && decide (seg.lengthInSequenceSpace < s.receiverWindowSize)
  { s with stream := stream, finSent := s.finSent || fin }.segmentHandler
    { seg with header := { fin := fin } }

/-- The send loop. Every iteration reads at least one byte, so the number of
buffered bytes bounds the iterations. -/
def fillLoop (winRightEdge : Nat) : Nat → TCPSender → TCPSender
  | 0, s => s
  | fuel + 1, s =>
    if s.freeBytes winRightEdge ≠ 0 ∧ s.finSent = false ∧ s.stream.bufferEmpty = false
    then fillLoop winRightEdge fuel (s.sendData winRightEdge)
    else s

/-- Waiting for the SYN to be acknowledged. -/
def synOutstanding (s : TCPSender) : Bool :=
  match s.outstandingSegments with
  | [] => false
  | front :: _ => front.header.syn

def sendSyn (s : TCPSender) : TCPSender :=
  { s with synSent := true }.segmentHandler { header := { syn := true } }

/-- A zero window is treated as a window of one. -/
def normalizeWindow (s : TCPSender) : TCPSender :=
  { s with receiverWindowSize := if s.receiverWindowSize = 0 then 1 else s.receiverWindowSize }

def winRightEdge (s : TCPSender) : Nat := FixedWidth.add 32 s.rcvBase s.receiverWindowSize

def sendFin (s : TCPSender) : TCPSender :=
  { s with finSent := true }.segmentHandler { header := { fin := true } }

/-- The part of `fillWindow` after the SYN and FIN guards. -/
def fillOpen (s : TCPSender) : TCPSender :=
  let s := s.normalizeWindow
  let edge := s.winRightEdge
  let s := if s.stream.eof = true ∧ edge > s.nextSeqno then s.sendFin else s
  fillLoop edge s.stream.bufferSize s

def fillWindow (s : TCPSender) : TCPSender :=
  if s.synSent = false then s.sendSyn
  else if s.synOutstanding = true then s
  else if s.finSent = true then s
  else s.fillOpen

/-- The end of the front segment, stored in an `unsigned int`. -/
def endOfFront (isn : WrappingInt32) (rcvBase : Nat) (front : TCPSegment) : Nat :=
  FixedWidth.trunc 32 (unwrap front.header.seqno isn rcvBase + front.lengthInSequenceSpace)

/-- The pop loop: what stays outstanding, the bytes still in flight, and
whether a segment was popped. -/
def popAcked (isn : WrappingInt32) (rcvBase seqnoAbs : Nat) :
    List TCPSegment → Nat → Bool → List TCPSegment × Nat × Bool
  | [], inFlight, newData => ([], inFlight, newData)
  | front :: rest, inFlight, newData =>
    if seqnoAbs ≥ endOfFront isn rcvBase front
    then popAcked isn rcvBase seqnoAbs rest (inFlight - front.lengthInSequenceSpace) true
    else (front :: rest, inFlight, newData)

def setWindow (s : TCPSender) (windowSize : UInt16) : TCPSender :=
  { s with receiverWindowSize := windowSize.toNat, backOff := windowSize.toNat != 0 }

/-- Move the base to a new acknowledgement, retire segments and restart timers. -/
def acknowledge (s : TCPSender) (seqnoAbs : Nat) : TCPSender :=
  let s := { s with rcvBase := FixedWidth.trunc 32 seqnoAbs }
  let (outstanding, inFlight, newDataRcv) :=
    popAcked s.isn s.rcvBase seqnoAbs s.outstandingSegments s.bytesInFlight false
  let s := { s with outstandingSegments := outstanding, bytesInFlight := inFlight }
  let s := if newDataRcv then
      { s with
        rto := s.initialRetransmissionTimeout
        timeElipsed := if s.outstandingSegments.isEmpty then s.timeElipsed else 0
        consecutiveRetransmission := 0 }
    else s
  if s.outstandingSegments.isEmpty then { s with timerRunning := false, timeElipsed := 0 } else s

def ackReceived (s : TCPSender) (ackno : WrappingInt32) (windowSize : UInt16) : TCPSender :=
  let seqnoAbs := unwrap ackno s.isn s.rcvBase
  if seqnoAbs > s.nextSeqno then s
  else
    let s := s.setWindow windowSize
    if seqnoAbs ≤ s.rcvBase then s else (s.acknowledge seqnoAbs).fillWindow

/-- On expiry the front of the outstanding queue is sent again; the timer only
runs while that queue is nonempty (`Encodes.timer`). -/
def tick (s : TCPSender) (msSinceLastTick : Nat) : TCPSender :=
  if s.timerRunning then
    let s := { s with timeElipsed := FixedWidth.add 32 s.timeElipsed msSinceLastTick }
    if s.timeElipsed ≥ s.rto then
      { s with
        segmentsOut := s.segmentsOut ++ s.outstandingSegments.take 1
        rto := if s.backOff then FixedWidth.trunc 32 (s.rto * 2) else s.rto
        consecutiveRetransmission :=
          if s.backOff then FixedWidth.add 32 s.consecutiveRetransmission 1
          else s.consecutiveRetransmission
        timeElipsed := 0 }
    else s
  else s

def sendEmptySegment (s : TCPSender) : TCPSender :=
  { s with segmentsOut := s.segmentsOut ++ [{ header := { seqno := wrap s.nextSeqno s.isn } }] }

/-- The application's operations on `stream_in()`. -/
def write (s : TCPSender) (data : List UInt8) : Nat × TCPSender :=
  ((s.stream.write data).1, { s with stream := (s.stream.write data).2 })

def endInput (s : TCPSender) : TCPSender := { s with stream := s.stream.endInput }

end TCPSender
end Sponge
