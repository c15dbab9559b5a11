import Sponge.Wire.Parser

/-! The Internet checksum, the IPv4 header and IPv4 datagrams. `IPv4Datagram.parse`
drops the result of the header's parser and asks the `NetParser` only. -/
namespace Sponge

structure InternetChecksum where
  sum : Nat := 0
  parity : Bool := false
deriving DecidableEq, Repr

namespace InternetChecksum

/-- One byte of `add`, into a 32-bit sum. -/
def addByte (check : InternetChecksum) (byte : UInt8) : InternetChecksum where
  sum := FixedWidth.add 32 check.sum (if check.parity then byte.toNat else byte.toNat <<< 8)
  parity := !check.parity

def add (check : InternetChecksum) (data : Buffer) : InternetChecksum := data.foldl addByte check

/-- The loop of `value`. Every iteration makes `ret` smaller, so `ret` itself
bounds their number. -/
def foldCarries : Nat → Nat → Nat
  | 0, ret => ret
  | fuel + 1, ret => if ret > 0xffff then foldCarries fuel ((ret >>> 16) + (ret &&& 0xffff)) else ret

def value (check : InternetChecksum) : UInt16 := ~~~(UInt16.ofNat (foldCarries check.sum check.sum))

end InternetChecksum

structure IPv4Header where
  ver : UInt8 := 4
  hlen : UInt8 := 5
  tos : UInt8 := 0
  len : UInt16 := 0
  id : UInt16 := 0
  df : Bool := true
  mf : Bool := false
  offset : UInt16 := 0
  ttl : UInt8 := 128
  proto : UInt8 := 6
  cksum : UInt16 := 0
  src : UInt32 := 0
  dst : UInt32 := 0
deriving DecidableEq, Repr

namespace IPv4Header

def length : Nat := 20

def protoTCP : UInt8 := 6

def payloadLength (h : IPv4Header) : UInt16 := h.len - 4 * UInt16.ofNat h.hlen.toNat

/-- The sum over the pseudo-header, where the checksum of a TCP segment starts. -/
def pseudoCksum (h : IPv4Header) : UInt32 :=
  let pcksum : UInt32 := (h.src >>> (16 : UInt32)) + (h.src &&& (0xffff : UInt32))
  let pcksum := pcksum + ((h.dst >>> (16 : UInt32)) + (h.dst &&& (0xffff : UInt32)))
  let pcksum := pcksum + h.proto.toUInt32
  pcksum + h.payloadLength.toUInt32

/-- The fixed fields, as far as the parser reads them. -/
def parseFields (p : NetParser) : IPv4Header × NetParser :=
  let (firstByte, p) := p.u8
  let (tos, p) := p.u8
  let (len, p) := p.u16
  let (id, p) := p.u16
  let (foVal, p) := p.u16
  let (ttl, p) := p.u8
  let (proto, p) := p.u8
  let (cksum, p) := p.u16
  let (src, p) := p.u32
  let (dst, p) := p.u32
  ({ ver := firstByte >>> 4, hlen := firstByte &&& 0x0f, tos, len, id
     df := foVal &&& 0x4000 != 0
     mf := foVal &&& 0x2000 != 0
     offset := foVal &&& 0x1fff
     ttl, proto, cksum, src, dst }, p)

/-- The header `h` is left as it was when the data is too short for one. -/
def parse (h : IPv4Header) (p : NetParser) : ParseResult × IPv4Header × NetParser :=
  let original := p.buffer
  let dataSize := p.buffer.length
  if dataSize < length then (.packetTooShort, h, p)
  else
    let (h, p) := parseFields p
    if dataSize < 4 * h.hlen.toNat then (.packetTooShort, h, p)
    else if h.ver ≠ 4 then (.wrongIPVersion, h, p)
    else if h.hlen < 5 then (.headerTooShort, h, p)
    else if dataSize ≠ h.len.toNat then (.truncatedPacket, h, p)
    else
      let p := p.removePrefix (h.hlen.toNat * 4 - length)
      if p.error then (p.getError, h, p)
      else if (({} : InternetChecksum).add (original.take (4 * h.hlen.toNat))).value ≠ 0
      then (.badChecksum, h, p)
      else (.noError, h, p)

/-- The bytes of the header, without a new checksum; `resize` fills with zeros. -/
def bytes (h : IPv4Header) : Buffer :=
  let firstByte : UInt8 := (h.ver <<< 4) ||| (h.hlen &&& 0xf)
  let foVal : UInt16 := (if h.df then 0x4000 else 0) ||| (if h.mf then 0x2000 else 0) |||
    (h.offset &&& 0x1fff)
  let ret := NetUnparser.u8 firstByte ++ NetUnparser.u8 h.tos ++ NetUnparser.u16 h.len ++
    NetUnparser.u16 h.id ++ NetUnparser.u16 foVal ++ NetUnparser.u8 h.ttl ++ NetUnparser.u8 h.proto ++
    NetUnparser.u16 h.cksum ++ NetUnparser.u32 h.src ++ NetUnparser.u32 h.dst
  ret ++ List.replicate (4 * h.hlen.toNat - ret.length) 0

def serialize (h : IPv4Header) : Except String Buffer :=
  if h.ver ≠ 4 then .error "wrong IP version"
  else if 4 * h.hlen.toNat < length then .error "IP header too short"
  else .ok h.bytes

end IPv4Header

structure IPv4Datagram where
  header : IPv4Header := {}
  payload : BufferList := []
deriving DecidableEq, Repr

namespace IPv4Datagram

/-- Into the datagram `d`, which `recv_frame` has just default-constructed. -/
def parse (d : IPv4Datagram) (buffer : Buffer) : ParseResult × IPv4Datagram :=
  let (_, header, p) := d.header.parse { buffer := buffer }
  let payload : BufferList := [p.buffer]
  let parsed : IPv4Datagram := { header := header, payload := payload }
  if payload.size ≠ header.payloadLength.toNat then (.packetTooShort, parsed) else (p.getError, parsed)

def serialize (d : IPv4Datagram) : Except String BufferList :=
  if d.payload.size ≠ d.header.payloadLength.toNat then .error "IPv4Datagram::serialize: payload is wrong size"
  else do
    let headerZeroChecksum ← { d.header with cksum := 0 }.serialize
    let check := ({} : InternetChecksum).add headerZeroChecksum
    let header ← { d.header with cksum := check.value }.serialize
    return header :: d.payload

/-- A version 4 header whose length fits its four bits, and a payload of the
length it states. -/
structure WellFormed (d : IPv4Datagram) : Prop where
  ver : d.header.ver = 4
  hlen : 5 ≤ d.header.hlen.toNat ∧ d.header.hlen.toNat ≤ 15
  payload : d.payload.size = d.header.payloadLength.toNat

/-- The header with its checksum computed. -/
def headerOut (d : IPv4Datagram) : IPv4Header :=
  { d.header with cksum := (({} : InternetChecksum).add { d.header with cksum := 0 }.bytes).value }

/-- A well-formed datagram is serialised. -/
theorem WellFormed.serialize {d : IPv4Datagram} (wellFormed : WellFormed d) :
    d.serialize = .ok (d.headerOut.bytes :: d.payload) := by
  have header : ∀ cksum, { d.header with cksum := cksum }.serialize =
      .ok { d.header with cksum := cksum }.bytes := by
    intro cksum
    have long : ¬ 4 * d.header.hlen.toNat < IPv4Header.length := by
      have := wellFormed.hlen
      rw [IPv4Header.length]
      omega
    rw [IPv4Header.serialize, if_neg (by simpa using wellFormed.ver), if_neg long]
  rw [IPv4Datagram.serialize, if_neg (by simpa using wellFormed.payload), header]
  simp only [bind, Except.bind, header]
  rfl

end IPv4Datagram
end Sponge
