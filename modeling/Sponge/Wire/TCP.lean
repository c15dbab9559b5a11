import Sponge.Wire.IPv4
import Sponge.TCP.Segment

/-! TCP headers and segments on the wire. `TCPSegment.parse` checks the checksum
first and then, like the datagram's parser, drops the result of the header's. -/
namespace Sponge

namespace TCPHeader

def length : Nat := 20

/-- The fixed fields. Those behind the end of the data are read as zeros. -/
def parseFields (p : NetParser) : TCPHeader × NetParser :=
  let (sport, p) := p.u16
  let (dport, p) := p.u16
  let (seqno, p) := p.u32
  let (ackno, p) := p.u32
  let (doffByte, p) := p.u8
  let (flags, p) := p.u8
  let (win, p) := p.u16
  let (cksum, p) := p.u16
  let (uptr, p) := p.u16
  ({ sport, dport, seqno := ⟨seqno⟩, ackno := ⟨ackno⟩, doff := doffByte >>> 4
     urg := flags &&& 0x20 != 0
     ack := flags &&& 0x10 != 0
     psh := flags &&& 0x08 != 0
     rst := flags &&& 0x04 != 0
     syn := flags &&& 0x02 != 0
     fin := flags &&& 0x01 != 0
     win, cksum, uptr }, p)

/-- Every field is written, so that the header before does not matter. -/
def parse (p : NetParser) : ParseResult × TCPHeader × NetParser :=
  let (h, p) := parseFields p
  if h.doff < 5 then (.headerTooShort, h, p)
  else
    let p := p.removePrefix (h.doff.toNat * 4 - length)
    if p.error then (p.getError, h, p) else (.noError, h, p)

/-- The bytes of the header, without a new checksum; `resize` fills with zeros. -/
def bytes (h : TCPHeader) : Buffer :=
  let flags : UInt8 := (if h.urg then 0x20 else 0) ||| (if h.ack then 0x10 else 0) |||
    (if h.psh then 0x08 else 0) ||| (if h.rst then 0x04 else 0) ||| (if h.syn then 0x02 else 0) |||
    (if h.fin then 0x01 else 0)
  let ret := NetUnparser.u16 h.sport ++ NetUnparser.u16 h.dport ++ NetUnparser.u32 h.seqno.rawValue ++
    NetUnparser.u32 h.ackno.rawValue ++ NetUnparser.u8 (h.doff <<< 4) ++ NetUnparser.u8 flags ++
    NetUnparser.u16 h.win ++ NetUnparser.u16 h.cksum ++ NetUnparser.u16 h.uptr
  ret ++ List.replicate (4 * h.doff.toNat - ret.length) 0

def serialize (h : TCPHeader) : Except String Buffer :=
  if h.doff < 5 then .error "TCP header too short" else .ok h.bytes

end TCPHeader

namespace TCPSegment

def parse (seg : TCPSegment) (buffer : Buffer) (datagramLayerChecksum : UInt32 := 0) :
    ParseResult × TCPSegment :=
  let check := ({ sum := datagramLayerChecksum.toNat } : InternetChecksum).add buffer
  if check.value ≠ 0 then (.badChecksum, seg)
  else
    let (_, header, p) := TCPHeader.parse { buffer := buffer }
    (p.getError, { header := header, payload := p.buffer })

def serialize (seg : TCPSegment) (datagramLayerChecksum : UInt32 := 0) : Except String BufferList := do
  let headerZeroChecksum ← { seg.header with cksum := 0 }.serialize
  let check := ({ sum := datagramLayerChecksum.toNat } : InternetChecksum).add headerZeroChecksum
  let check := check.add seg.payload
  let header ← { seg.header with cksum := check.value }.serialize
  return [header, seg.payload]

end TCPSegment
end Sponge
