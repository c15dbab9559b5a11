import Sponge.TCP.Segment
import Sponge.StreamReassembler

/-! The TCP receiver as the source computes it. `isn` is meaningful once `syn`
is set; the acknowledgement base is one past the assembled index, and two past
it once the stream has ended. -/
namespace Sponge

structure TCPReceiver where
  reassembler : StreamReassembler
  syn : Bool
  fin : Bool
  isn : WrappingInt32
  rcvBase : Nat
  capacity : Nat
deriving DecidableEq, Repr

namespace TCPReceiver

def new (capacity : Nat) : TCPReceiver where
  reassembler := .new capacity
  syn := false
  fin := false
  isn := ⟨0⟩
  rcvBase := 0
  capacity := capacity

def streamOut (r : TCPReceiver) : ByteStream := r.reassembler.output

def unassembledBytes (r : TCPReceiver) : Nat := r.reassembler.unassembledBytes

/-- The stream index of a segment's payload, a `size_t` difference. -/
def streamIndex (r : TCPReceiver) (seg : TCPSegment) : Nat :=
  let absSeqno := if seg.header.syn then 1 else unwrap seg.header.seqno r.isn r.reassembler.curIdx
  FixedWidth.sub 64 absSeqno 1

/-- The part of `segmentReceived` after the SYN and FIN guards. -/
def assemble (r : TCPReceiver) (seg : TCPSegment) : TCPReceiver :=
  let reassembler := r.reassembler.pushSubstring seg.payload (r.streamIndex seg) seg.header.fin
  { r with
    reassembler := reassembler
    rcvBase := if reassembler.inputEnded = true ∧ r.fin = true
      then reassembler.curIdx + 1 + 1 else reassembler.curIdx + 1 }

/-- A second FIN is refused whole, whatever it carries. -/
def receive (r : TCPReceiver) (seg : TCPSegment) : TCPReceiver :=
  if seg.header.fin then
    if r.fin then r else { r with fin := true }.assemble seg
  else r.assemble seg

def segmentReceived (r : TCPReceiver) (seg : TCPSegment) : TCPReceiver :=
  if seg.header.syn = false ∧ r.syn = false then r
  else if seg.header.syn then
    if r.syn then r else { r with syn := true, isn := seg.header.seqno }.receive seg
  else r.receive seg

def ackno (r : TCPReceiver) : Option WrappingInt32 :=
  if r.syn = false then none else some (wrap r.rcvBase r.isn)

def windowSize (r : TCPReceiver) : Nat := FixedWidth.sub 64 r.capacity r.streamOut.bufferSize

/-- The application's read of the inbound stream. -/
def read (r : TCPReceiver) (len : Nat) : List UInt8 × TCPReceiver :=
  ((r.reassembler.readOutput len).1, { r with reassembler := (r.reassembler.readOutput len).2 })

def setError (r : TCPReceiver) : TCPReceiver :=
  { r with reassembler := { r.reassembler with output := r.streamOut.setError } }

end TCPReceiver
end Sponge
