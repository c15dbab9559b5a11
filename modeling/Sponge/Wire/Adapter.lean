import Sponge.Wire.TCP

/-! The adapter between TCP segments and IPv4 datagrams. An `Address` is the pair
of its numeric IPv4 address and its port, which is all the adapter asks of it. -/
namespace Sponge

structure Address where
  ipv4Numeric : UInt32 := 0
  port : UInt16 := 0
deriving DecidableEq, Repr

structure FdAdapterConfig where
  source : Address := {}
  destination : Address := {}
deriving DecidableEq, Repr

structure TCPOverIPv4Adapter where
  config : FdAdapterConfig := {}
  listening : Bool := false
deriving DecidableEq, Repr

namespace TCPOverIPv4Adapter

/-- The end of `unwrap_tcp_in_ip`: is the TCP segment from our peer? -/
def fromPeer (a : TCPOverIPv4Adapter) (seg : TCPSegment) : Option TCPSegment × TCPOverIPv4Adapter :=
  if seg.header.sport ≠ a.config.destination.port then (none, a) else (some seg, a)

/-- The payload of the datagram has to be one buffer, else its conversion throws. -/
def unwrapTcpInIp (a : TCPOverIPv4Adapter) (dgram : IPv4Datagram) :
    Except String (Option TCPSegment × TCPOverIPv4Adapter) :=
  if a.listening = false ∧ dgram.header.dst ≠ a.config.source.ipv4Numeric then .ok (none, a)
  else if a.listening = false ∧ dgram.header.src ≠ a.config.destination.ipv4Numeric then .ok (none, a)
  else if dgram.header.proto ≠ IPv4Header.protoTCP then .ok (none, a)
  else do
    let payload ← dgram.payload.toBuffer
    let (result, seg) := ({} : TCPSegment).parse payload dgram.header.pseudoCksum
    if result ≠ .noError then .ok (none, a)
    else if seg.header.dport ≠ a.config.source.port then .ok (none, a)
    else if a.listening then
      if seg.header.syn ∧ seg.header.rst = false then
        -- the addresses of the datagram replace those the adapter was bound to
        let source : Address := { ipv4Numeric := dgram.header.dst, port := a.config.source.port }
        let destination : Address := { ipv4Numeric := dgram.header.src, port := seg.header.sport }
        .ok (fromPeer { config := { source, destination }, listening := false } seg)
      else .ok (none, a)
    else .ok (a.fromPeer seg)

/-- The segment with the adapter's ports, which `wrap_tcp_in_ip` writes into the
caller's segment. -/
def withPorts (a : TCPOverIPv4Adapter) (seg : TCPSegment) : TCPSegment :=
  { seg with header := { seg.header with sport := a.config.source.port, dport := a.config.destination.port } }

def wrapTcpInIp (a : TCPOverIPv4Adapter) (seg : TCPSegment) : Except String (IPv4Datagram × TCPSegment) := do
  let seg := a.withPorts seg
  let header : IPv4Header := { src := a.config.source.ipv4Numeric, dst := a.config.destination.ipv4Numeric }
  let header :=
    { header with len := UInt16.ofNat (header.hlen.toNat * 4 + seg.header.doff.toNat * 4 + seg.payload.length) }
  let payload ← seg.serialize header.pseudoCksum
  return ({ header := header, payload := payload }, seg)

end TCPOverIPv4Adapter
end Sponge
