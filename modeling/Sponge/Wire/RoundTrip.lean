import Sponge.Wire.Acceptance
import Sponge.Wire.Adapter

/-! What is written can be read: Ethernet frames, IPv4 datagrams and TCP segments
come back from their parsers as they were serialised, through all the layers. -/
namespace Sponge

open InternetChecksum

namespace NetParser

theorem bytes_append (written rest : Buffer) :
    bytes written.length { buffer := written ++ rest } = (written, { buffer := rest }) := by
  induction written with
  | nil => rfl
  | cons byte written ih => simp [bytes, ih]

theorem ethernetAddress_append (address : EthernetAddress) (rest : Buffer) :
    ({ buffer := address.bytes ++ rest } : NetParser).ethernetAddress = (address, { buffer := rest }) := by
  have read := bytes_append address.bytes rest
  rw [address.size] at read
  simp only [ethernetAddress, read]

end NetParser

namespace BufferList

theorem concatenate_singleton (buffer : Buffer) : concatenate [buffer] = buffer := List.flatten_singleton

theorem concatenate_cons (buffer : Buffer) (buffers : BufferList) :
    concatenate (buffer :: buffers) = buffer ++ concatenate buffers := List.flatten_cons

end BufferList

theorem flatMap_u8 (data : Buffer) : data.flatMap NetUnparser.u8 = data := by
  rw [show NetUnparser.u8 = fun byte => [byte] from funext NetUnparser.u8_eq, List.flatMap_singleton']

namespace EthernetFrame

/-- A frame is read back with one buffer of payload. -/
theorem parse_serialize (f into : EthernetFrame) :
    into.parse f.serialize.concatenate = (.noError, { f with payload := [f.payload.concatenate] }) := by
  have wire : f.serialize.concatenate = f.header.dst.bytes ++ (f.header.src.bytes ++
      (NetUnparser.u16 f.header.type ++ f.payload.concatenate)) := by
    simp [serialize, EthernetHeader.serialize, BufferList.concatenate, flatMap_u8]
  have long : ¬ f.serialize.concatenate.length < EthernetHeader.length := by
    rw [wire]
    simp only [List.length_append, f.header.dst.size, f.header.src.size, NetUnparser.u16_length,
      EthernetHeader.length]
    omega
  simp only [parse, EthernetHeader.parse, if_neg long]
  simp only [wire, NetParser.ethernetAddress_append, NetParser.u16_unparse]

end EthernetFrame

namespace ARPMessage

theorem bytes_length (arp : ARPMessage) : arp.bytes.length = length := by
  simp [bytes, length, flatMap_u8, arp.senderEthernetAddress.size, arp.targetEthernetAddress.size]

/-- What a parser makes of written fields, with anything behind them. -/
theorem parse_bytes_append (arp into : ARPMessage) (rest : Buffer) : into.parse (arp.bytes ++ rest) =
    if arp.supported = true then (.noError, arp)
    else (.unsupported, { into with
      hardwareType := arp.hardwareType
      protocolType := arp.protocolType
      hardwareAddressSize := arp.hardwareAddressSize
      protocolAddressSize := arp.protocolAddressSize
      opcode := arp.opcode }) := by
  have long : ¬ (arp.bytes ++ rest).length < length := by
    rw [List.length_append, bytes_length]
    omega
  have same : ({ into with
      hardwareType := arp.hardwareType
      protocolType := arp.protocolType
      hardwareAddressSize := arp.hardwareAddressSize
      protocolAddressSize := arp.protocolAddressSize
      opcode := arp.opcode } : ARPMessage).supported = arp.supported := rfl
  simp only [parse, if_neg long]
  simp only [bytes, flatMap_u8, List.append_assoc, NetUnparser.u8_eq, List.cons_append, List.nil_append,
    NetParser.u16_unparse, NetParser.u32_unparse, NetParser.u8_cons, NetParser.ethernetAddress_append, same]
  cases arp.supported <;> rfl

/-- A supported message is read back. -/
theorem parse_bytes {arp : ARPMessage} (supported : arp.supported = true) (into : ARPMessage) :
    into.parse arp.bytes = (.noError, arp) := by
  have read := parse_bytes_append arp into []
  rwa [List.append_nil, if_pos supported] at read

end ARPMessage

/-- A number of four bits survives in the upper half of a byte. -/
theorem nibble_shift {nibble : UInt8} (small : nibble.toNat ≤ 15) : nibble <<< 4 >>> 4 = nibble := by
  have all : ∀ n : Fin 16, UInt8.ofNat n <<< 4 >>> 4 = UInt8.ofNat n := by decide
  have here := all ⟨nibble.toNat, by omega⟩
  rwa [UInt8.ofNat_toNat] at here

namespace TCPHeader

theorem bytes_length {h : TCPHeader} (long : 5 ≤ h.doff.toNat) : h.bytes.length = 4 * h.doff.toNat := by
  simp [bytes]
  omega

/-- The header around its checksum. -/
theorem bytes_patched (h : TCPHeader) (cksum : UInt16) :
    { h with cksum := cksum }.bytes = h.bytes.take 16 ++ NetUnparser.u16 cksum ++ h.bytes.drop 18 := by
  simp [bytes, List.take_append, List.drop_append, List.take_of_length_le, List.drop_of_length_le]

/-- Each flag is read from its own bit. -/
theorem flags_read : ∀ urg ack psh rst syn fin : Bool,
    let flags : UInt8 := (if urg then 0x20 else 0) ||| (if ack then 0x10 else 0) |||
      (if psh then 0x08 else 0) ||| (if rst then 0x04 else 0) ||| (if syn then 0x02 else 0) |||
      (if fin then 0x01 else 0)
    (flags &&& 0x20 != 0) = urg ∧ (flags &&& 0x10 != 0) = ack ∧ (flags &&& 0x08 != 0) = psh ∧
      (flags &&& 0x04 != 0) = rst ∧ (flags &&& 0x02 != 0) = syn ∧ (flags &&& 0x01 != 0) = fin := by
  decide

theorem parseFields_bytes {h : TCPHeader} (small : h.doff.toNat ≤ 15) (rest : Buffer) :
    parseFields { buffer := h.bytes ++ rest } =
      (h, { buffer := List.replicate (4 * h.doff.toNat - 20) 0 ++ rest }) := by
  obtain ⟨urg, ack, psh, rst, syn, fin⟩ := flags_read h.urg h.ack h.psh h.rst h.syn h.fin
  simp only [parseFields, bytes, List.append_assoc, NetParser.u16_unparse, NetParser.u32_unparse,
    NetUnparser.u8_eq, List.cons_append, List.nil_append, NetParser.u8_cons, nibble_shift small, urg, ack, psh,
    rst, syn, fin, List.length_append, List.length_cons, NetUnparser.u16_length,
    NetUnparser.u32_length]

theorem parse_bytes {h : TCPHeader} (long : 5 ≤ h.doff.toNat) (small : h.doff.toNat ≤ 15) (rest : Buffer) :
    parse { buffer := h.bytes ++ rest } = (.noError, h, { buffer := rest }) := by
  have options : ({ buffer := List.replicate (4 * h.doff.toNat - 20) 0 ++ rest } : NetParser).removePrefix
      (h.doff.toNat * 4 - length) = { buffer := rest } := by
    have took := (NetParser.took_start (List.replicate (4 * h.doff.toNat - 20) 0 ++ rest)).removePrefix
      (h.doff.toNat * 4 - length)
    rw [took.of_le (by simp [length]; omega)]
    congr 1
    refine List.drop_left' ?_
    rw [List.length_replicate, length]
    omega
  simp only [parse, parseFields_bytes small, if_neg (not_lt_five long), options]
  rfl

end TCPHeader

namespace TCPSegment

/-- The header with its checksum computed. -/
def headerOut (seg : TCPSegment) (start : UInt32) : TCPHeader :=
  { seg.header with
    cksum := (({ sum := start.toNat } : InternetChecksum).add
      ({ seg.header with cksum := 0 }.bytes ++ seg.payload)).value }

theorem serialize_eq (seg : TCPSegment) (long : 5 ≤ seg.header.doff.toNat) (start : UInt32) :
    seg.serialize start = .ok [(seg.headerOut start).bytes, seg.payload] := by
  simp only [serialize, TCPHeader.serialize, if_neg (not_lt_five long), headerOut, add_append]
  rfl

/-- A serialised segment is parsed back, with the checksum that it was given. -/
theorem parse_serialized (seg : TCPSegment) (start : UInt32) (long : 5 ≤ seg.header.doff.toNat)
    (small : seg.header.doff.toNat ≤ 15)
    (fits : start.toNat + 65280 * (4 * seg.header.doff.toNat + seg.payload.length) < 2 ^ 32) (into : TCPSegment) :
    into.parse ((seg.headerOut start).bytes ++ seg.payload) start =
      (.noError, { header := seg.headerOut start, payload := seg.payload }) := by
  have size : seg.header.bytes.length = 4 * seg.header.doff.toNat := TCPHeader.bytes_length long
  have around : ∀ cksum, { seg.header with cksum := cksum }.bytes ++ seg.payload =
      seg.header.bytes.take 16 ++ NetUnparser.u16 cksum ++ (seg.header.bytes.drop 18 ++ seg.payload) := by
    intro cksum
    rw [TCPHeader.bytes_patched, List.append_assoc]
  have front : (seg.header.bytes.take 16).length = 16 := rfl
  have verified : Verifies start.toNat ((seg.headerOut start).bytes ++ seg.payload) := by
    rw [headerOut, around, around]
    refine verifies_patched (by rw [front]) ?_
    rw [front, List.length_append, List.length_drop, size]
    omega
  have whole : start.toNat + 65280 * ((seg.headerOut start).bytes ++ seg.payload).length < 2 ^ 32 := by
    rw [List.length_append, TCPHeader.bytes_length (h := seg.headerOut start) long]
    exact fits
  rw [parse_eq whole, if_pos verified, TCPHeader.parse_bytes (h := seg.headerOut start) long small]

end TCPSegment

namespace IPv4Header

theorem bytes_length {h : IPv4Header} (long : 5 ≤ h.hlen.toNat) : h.bytes.length = 4 * h.hlen.toNat := by
  simp [bytes]
  omega

/-- The header around its checksum. -/
theorem bytes_patched (h : IPv4Header) (cksum : UInt16) :
    { h with cksum := cksum }.bytes = h.bytes.take 10 ++ NetUnparser.u16 cksum ++ h.bytes.drop 12 := by
  simp [bytes, List.take_append, List.drop_append, List.take_of_length_le, List.drop_of_length_le]

/-- The version and the header length share the first byte. -/
theorem firstByte_read {hlen : UInt8} (small : hlen.toNat ≤ 15) :
    ((4 : UInt8) <<< 4 ||| (hlen &&& 0xf)) >>> 4 = 4 ∧ ((4 : UInt8) <<< 4 ||| (hlen &&& 0xf)) &&& 0x0f = hlen := by
  have all : ∀ n : Fin 16, ((4 : UInt8) <<< 4 ||| (UInt8.ofNat n &&& 0xf)) >>> 4 = 4 ∧
      ((4 : UInt8) <<< 4 ||| (UInt8.ofNat n &&& 0xf)) &&& 0x0f = UInt8.ofNat n := by decide
  have here := all ⟨hlen.toNat, by omega⟩
  rwa [UInt8.ofNat_toNat] at here

/-- The two flags stand above the thirteen bits of the offset. -/
theorem foVal_read (df mf : Bool) (offset : UInt16) :
    let foVal : UInt16 := (if df then 0x4000 else 0) ||| (if mf then 0x2000 else 0) ||| (offset &&& 0x1fff)
    (foVal &&& 0x4000 != 0) = df ∧ (foVal &&& 0x2000 != 0) = mf ∧ foVal &&& 0x1fff = offset &&& 0x1fff := by
  have masked : ∀ flag more mask : UInt16, (flag ||| more ||| (offset &&& 0x1fff)) &&& mask =
      (flag &&& mask) ||| (more &&& mask) ||| (offset &&& (0x1fff &&& mask)) := by
    intro flag more mask
    rw [← UInt16.toNat_inj]
    simp only [UInt16.toNat_and, UInt16.toNat_or, Nat.and_or_distrib_right, Nat.and_assoc]
  have apart : (0x1fff : UInt16) &&& 0x4000 = 0 ∧ (0x1fff : UInt16) &&& 0x2000 = 0 ∧
      (0x2000 : UInt16) &&& 0x4000 = 0 ∧ (0x4000 : UInt16) &&& 0x2000 = 0 ∧
      (0x4000 : UInt16) &&& 0x1fff = 0 ∧ (0x2000 : UInt16) &&& 0x1fff = 0 := by decide
  simp only [masked]
  cases df <;> cases mf <;> simp [apart]

/-- The fields come back, but for the upper bits of an offset that has too many. -/
theorem parseFields_bytes {h : IPv4Header} (version : h.ver = 4) (small : h.hlen.toNat ≤ 15) (rest : Buffer) :
    parseFields { buffer := h.bytes ++ rest } =
      ({ h with offset := h.offset &&& 0x1fff },
        { buffer := List.replicate (4 * h.hlen.toNat - 20) 0 ++ rest }) := by
  have first := firstByte_read small
  obtain ⟨df, mf, offset⟩ := foVal_read h.df h.mf h.offset
  simp only [parseFields, bytes, List.append_assoc, NetParser.u16_unparse, NetParser.u32_unparse,
    NetUnparser.u8_eq, List.cons_append, List.nil_append, NetParser.u8_cons, version, first, df, mf, offset,
    List.length_append, List.length_cons, NetUnparser.u16_length, NetUnparser.u32_length]

end IPv4Header

namespace IPv4Datagram

theorem headerOut_verifies {d : IPv4Datagram} (wellFormed : WellFormed d) : Verifies 0 d.headerOut.bytes := by
  obtain ⟨_, ⟨long, small⟩, _⟩ := wellFormed
  have front : (d.header.bytes.take 10).length = 10 := rfl
  have around := IPv4Header.bytes_patched d.header
  rw [headerOut, around, around 0]
  refine verifies_patched (by rw [front]) ?_
  rw [front, List.length_drop, IPv4Header.bytes_length long]
  omega

/-- Neither the checksum nor the offset enters the pseudo-header. -/
theorem headerOut_pseudoCksum (d : IPv4Datagram) (offset : UInt16) :
    { d.headerOut with offset := offset }.pseudoCksum = d.header.pseudoCksum := rfl

/-- A serialised datagram is parsed back, with the checksum that it was given and
one buffer of payload. -/
theorem parse_serialized {d : IPv4Datagram} (wellFormed : WellFormed d)
    (whole : d.header.len.toNat = 4 * d.header.hlen.toNat + d.payload.size) (into : IPv4Datagram) :
    into.parse (d.headerOut.bytes ++ d.payload.concatenate) =
      (.noError, { header := { d.headerOut with offset := d.header.offset &&& 0x1fff }
                   payload := [d.payload.concatenate] }) := by
  obtain ⟨long, small⟩ := wellFormed.hlen
  have size : d.headerOut.bytes.length = 4 * d.header.hlen.toNat := IPv4Header.bytes_length (h := d.headerOut) long
  have payload : d.payload.concatenate.length = d.payload.size := List.length_flatten
  generalize data_eq : d.headerOut.bytes ++ d.payload.concatenate = data
  have total : data.length = d.header.len.toNat := by rw [← data_eq, List.length_append, size, payload, whole]
  have fields : (IPv4Header.parseFields { buffer := data }).1 =
      { d.headerOut with offset := d.header.offset &&& 0x1fff } := by
    rw [← data_eq, IPv4Header.parseFields_bytes (h := d.headerOut) wellFormed.ver small]
    rfl
  have enough : 20 ≤ data.length := by omega
  obtain ⟨_, ver, hlen, len⟩ := IPv4Header.parseFields_spec enough
  rw [fields] at ver hlen len
  have framed : Framed data := by
    refine ⟨enough, ?_, ?_, ?_⟩
    · exact ver.symm.trans (congrArg UInt8.toNat wellFormed.ver)
    · rw [← hlen]
      exact ⟨long, by rw [total, whole]; exact Nat.le_add_right _ _⟩
    · exact len.symm.trans total.symm
  have header : data.take (4 * headerLengthField data) = d.headerOut.bytes := by
    rw [← hlen, ← data_eq]
    exact List.take_left' size
  have behind : data.drop (4 * headerLengthField data) = d.payload.concatenate := by
    rw [← hlen, ← data_eq]
    exact List.drop_left' size
  have stopped := IPv4Header.parse_of_framed framed into.header
  rw [header, if_pos (headerOut_verifies wellFormed), behind, fields] at stopped
  have fits : ¬ BufferList.size [d.payload.concatenate] ≠ d.header.payloadLength.toNat := by
    rw [← wellFormed.payload, ← payload]
    exact not_not.mpr (Nat.add_zero _)
  simp only [parse, stopped]
  exact if_neg fits

end IPv4Datagram

namespace TCPOverIPv4Adapter

/-- The two adapters are the ends of one connection. -/
structure Mirrored (a b : TCPOverIPv4Adapter) : Prop where
  source : b.config.source = a.config.destination
  destination : b.config.destination = a.config.source

/-- `seg` gets from `a` to `b`: it is wrapped and serialised, sent as the payload
of a frame, and every parser on the way back accepts it. -/
def Carried (a b : TCPOverIPv4Adapter) (ethernet : EthernetHeader) (seg : TCPSegment) : Prop :=
  ∃ dgram sent wire frame buffer received cksum,
    a.wrapTcpInIp seg = .ok (dgram, sent) ∧
    dgram.serialize = .ok wire ∧
    ({} : EthernetFrame).parse
      (EthernetFrame.serialize { header := ethernet, payload := [wire.concatenate] }).concatenate =
        (.noError, frame) ∧
    frame.payload.toBuffer = .ok buffer ∧
    ({} : IPv4Datagram).parse buffer = (.noError, received) ∧
    b.unwrapTcpInIp received = .ok (some { seg with header :=
      { seg.header with
        sport := a.config.source.port
        dport := a.config.destination.port
        cksum := cksum } }, b)

/-- The header of the datagram around `seg`. -/
def headerFor (a : TCPOverIPv4Adapter) (seg : TCPSegment) : IPv4Header where
  src := a.config.source.ipv4Numeric
  dst := a.config.destination.ipv4Numeric
  len := UInt16.ofNat (20 + seg.header.doff.toNat * 4 + seg.payload.length)

/-- The header of the segment inside, with the adapter's ports and its checksum. -/
def segmentHeader (a : TCPOverIPv4Adapter) (seg : TCPSegment) : TCPHeader :=
  (a.withPorts seg).headerOut (a.headerFor seg).pseudoCksum

def wrapped (a : TCPOverIPv4Adapter) (seg : TCPSegment) : IPv4Datagram where
  header := a.headerFor seg
  payload := [(a.segmentHeader seg).bytes, seg.payload]

variable {a b : TCPOverIPv4Adapter} {seg : TCPSegment}

theorem wrapTcpInIp_eq (long : 5 ≤ seg.header.doff.toNat) :
    a.wrapTcpInIp seg = .ok (a.wrapped seg, a.withPorts seg) := by
  have payload := TCPSegment.serialize_eq (a.withPorts seg) long (a.headerFor seg).pseudoCksum
  simp only [wrapTcpInIp]
  change (TCPSegment.serialize (a.withPorts seg) (a.headerFor seg).pseudoCksum >>= _) = _
  rw [payload]
  rfl

theorem headerFor_len (fits : 20 + 4 * seg.header.doff.toNat + seg.payload.length ≤ 65535) :
    (a.headerFor seg).len.toNat = 20 + 4 * seg.header.doff.toNat + seg.payload.length := by
  rw [headerFor, UInt16.toNat_ofNat', Nat.mod_eq_of_lt (by omega)]
  omega

theorem wrapped_size (long : 5 ≤ seg.header.doff.toNat) :
    (a.wrapped seg).payload.size = 4 * seg.header.doff.toNat + seg.payload.length := by
  have size := TCPHeader.bytes_length (h := a.segmentHeader seg) long
  simp only [wrapped, BufferList.size, List.map_cons, List.map_nil, List.sum_cons, List.sum_nil, Nat.add_zero, size]
  rfl

theorem wrapped_wellFormed (long : 5 ≤ seg.header.doff.toNat)
    (fits : 20 + 4 * seg.header.doff.toNat + seg.payload.length ≤ 65535) : (a.wrapped seg).WellFormed := by
  have len := headerFor_len (a := a) fits
  have header : (a.headerFor seg).hlen.toNat = 5 := rfl
  refine ⟨rfl, ⟨Nat.le_refl 5, header.trans_le (by decide)⟩, ?_⟩
  change _ = (a.headerFor seg).payloadLength.toNat
  rw [IPv4Header.payloadLength_toNat, len, header, FixedWidth.sub_of_le (by omega) (by omega), wrapped_size long]
  omega

theorem segmentHeader_eq : a.segmentHeader seg =
    { seg.header with
      sport := a.config.source.port
      dport := a.config.destination.port
      cksum := (a.segmentHeader seg).cksum } := rfl

theorem parse_wrapped (long : 5 ≤ seg.header.doff.toNat) (small : seg.header.doff.toNat ≤ 15)
    (fits : 20 + 4 * seg.header.doff.toNat + seg.payload.length ≤ 65535) (into : TCPSegment) :
    into.parse ((a.segmentHeader seg).bytes ++ seg.payload) (a.headerFor seg).pseudoCksum =
      (.noError, { header := a.segmentHeader seg, payload := seg.payload }) := by
  have start := (a.headerFor seg).pseudoCksum_le
  have sum : (a.headerFor seg).pseudoCksum.toNat +
      65280 * (4 * seg.header.doff.toNat + seg.payload.length) < 2 ^ 32 := by omega
  exact TCPSegment.parse_serialized (a.withPorts seg) (a.headerFor seg).pseudoCksum long small sum into

/-- A settled adapter takes the segments of its own connection. -/
theorem unwrapTcpInIp_eq {dgram : IPv4Datagram} {buffer : Buffer} (settled : b.listening = false)
    (dst : dgram.header.dst = b.config.source.ipv4Numeric)
    (src : dgram.header.src = b.config.destination.ipv4Numeric)
    (proto : dgram.header.proto = IPv4Header.protoTCP) (payload : dgram.payload = [buffer])
    {start : UInt32} (pseudo : dgram.header.pseudoCksum = start)
    (parsed : ({} : TCPSegment).parse buffer start = (.noError, seg))
    (dport : seg.header.dport = b.config.source.port) (sport : seg.header.sport = b.config.destination.port) :
    b.unwrapTcpInIp dgram = .ok (some seg, b) := by
  simp [unwrapTcpInIp, BufferList.toBuffer, bind, Except.bind, fromPeer, settled, dst, src, proto, payload,
    pseudo, parsed, dport, sport]

/-- Between two settled ends of a connection, a segment that fits a datagram comes
back from the wire with its payload and its header; only the ports, which are
the sender's, and the checksum are new. -/
theorem wire_round_trip (mirrored : Mirrored a b) (settled : a.listening = false ∧ b.listening = false)
    (doff : 5 ≤ seg.header.doff.toNat ∧ seg.header.doff.toNat ≤ 15)
    (fits : 20 + 4 * seg.header.doff.toNat + seg.payload.length ≤ 65535) (ethernet : EthernetHeader) :
    Carried a b ethernet seg := by
  obtain ⟨long, small⟩ := doff
  have wellFormed := wrapped_wellFormed (a := a) long fits
  have whole : (a.wrapped seg).header.len.toNat =
      4 * (a.wrapped seg).header.hlen.toNat + (a.wrapped seg).payload.size := by
    rw [wrapped_size long]
    exact (headerFor_len fits).trans (Nat.add_assoc _ _ _)
  have frame := EthernetFrame.parse_serialize { header := ethernet, payload :=
    [BufferList.concatenate ((a.wrapped seg).headerOut.bytes :: (a.wrapped seg).payload)] } {}
  have datagram := IPv4Datagram.parse_serialized wellFormed whole {}
  have segment := parse_wrapped (a := a) long small fits {}
  have payload : (a.wrapped seg).payload.concatenate = (a.segmentHeader seg).bytes ++ seg.payload := by
    simp [wrapped, BufferList.concatenate]
  rw [BufferList.concatenate_singleton] at frame
  rw [← BufferList.concatenate_cons] at datagram
  refine ⟨_, _, _, _, _, _, (a.segmentHeader seg).cksum, wrapTcpInIp_eq long, wellFormed.serialize, frame, rfl,
    datagram, ?_⟩
  rw [payload, ← segmentHeader_eq]
  exact unwrapTcpInIp_eq settled.2 (congrArg Address.ipv4Numeric mirrored.source).symm
    (congrArg Address.ipv4Numeric mirrored.destination).symm rfl rfl
    (IPv4Datagram.headerOut_pseudoCksum (a.wrapped seg) _) segment
    (congrArg Address.port mirrored.source).symm (congrArg Address.port mirrored.destination).symm

/-- Three bytes behind a header with one word of options. -/
theorem wire_round_trip_options :
    Carried
      { config := { source := ⟨0x0a000001, 1000⟩, destination := ⟨0x0a000002, 80⟩ } }
      { config := { source := ⟨0x0a000002, 80⟩, destination := ⟨0x0a000001, 1000⟩ } }
      { dst := .broadcast, type := EthernetHeader.typeIPv4 }
      { header := { doff := 6, psh := true, ack := true, win := 1000 }, payload := [104, 105, 33] } :=
  wire_round_trip ⟨rfl, rfl⟩ ⟨rfl, rfl⟩ (by decide) (by decide) _

end TCPOverIPv4Adapter
end Sponge
