import Sponge.WrappingIntegers

/-! TCP headers, segments and the endpoint configuration. -/
namespace Sponge

structure TCPHeader where
  sport : UInt16 := 0
  dport : UInt16 := 0
  seqno : WrappingInt32 := ⟨0⟩
  ackno : WrappingInt32 := ⟨0⟩
  doff : UInt8 := 5
  urg : Bool := false
  ack : Bool := false
  psh : Bool := false
  rst : Bool := false
  syn : Bool := false
  fin : Bool := false
  win : UInt16 := 0
  cksum : UInt16 := 0
  uptr : UInt16 := 0
deriving DecidableEq, Repr

structure TCPSegment where
  header : TCPHeader := {}
  payload : List UInt8 := []
deriving DecidableEq, Repr

def TCPSegment.lengthInSequenceSpace (seg : TCPSegment) : Nat :=
  seg.payload.length + (if seg.header.syn then 1 else 0) + (if seg.header.fin then 1 else 0)

/-- The segment after `seg.header().seqno = seqno`. -/
def TCPSegment.withSeqno (seg : TCPSegment) (seqno : WrappingInt32) : TCPSegment :=
  { seg with header := { seg.header with seqno := seqno } }

@[simp] theorem TCPSegment.withSeqno_length (seg : TCPSegment) (seqno : WrappingInt32) :
    (seg.withSeqno seqno).lengthInSequenceSpace = seg.lengthInSequenceSpace := rfl

@[simp] theorem TCPSegment.withSeqno_payload (seg : TCPSegment) (seqno : WrappingInt32) :
    (seg.withSeqno seqno).payload = seg.payload := rfl

@[simp] theorem TCPSegment.withSeqno_fin (seg : TCPSegment) (seqno : WrappingInt32) :
    (seg.withSeqno seqno).header.fin = seg.header.fin := rfl

namespace TCPConfig

def defaultCapacity : Nat := 64000

def maxPayloadSize : Nat := 1452

def timeoutDflt : UInt16 := 1000

def maxRetxAttempts : Nat := 8

end TCPConfig

structure TCPConfig where
  rtTimeout : UInt16 := TCPConfig.timeoutDflt
  recvCapacity : Nat := TCPConfig.defaultCapacity
  sendCapacity : Nat := TCPConfig.defaultCapacity
  fixedIsn : Option WrappingInt32 := none
deriving DecidableEq, Repr

end Sponge
