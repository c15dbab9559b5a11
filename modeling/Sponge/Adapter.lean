import Sponge.FileDescriptor
import Sponge.NetworkInterface
import Sponge.Wire.Adapter

/-! The adapters a TCP socket can be built over: UDP, a TUN device, Ethernet over a
TAP device, and any of these behind random loss. The template parameter of the
source is a class here; its second argument is what the kernel answers to the
system calls of the adapter. -/
namespace Sponge

/-- The configuration the owner gives to an adapter, with its loss rates. -/
structure LossyAdapterConfig extends FdAdapterConfig where
  lossRateDn : UInt16 := 0
  lossRateUp : UInt16 := 0
deriving DecidableEq, Repr

/-- What a socket asks of its adapter. -/
class FdAdapter (α : Type) (δ : outParam Type) where
  fd : α → FileDescriptor
  read : δ → α → Except String (Option TCPSegment × α)
  write : δ → TCPSegment → α → Except String α
  tick : δ → Nat → α → Except String α
  setListening : Bool → α → α
  configure : LossyAdapterConfig → α → α

/-- What the kernel answers to the calls of a UDP socket. -/
structure DatagramKernel where
  recvfrom : FileDescriptor → Nat → Except String (Address × Buffer)
  sendmsg : FileDescriptor → Address → BufferViewList → Except String Nat

/-- A UDP socket is its descriptor. -/
abbrev UDPSocket := FileDescriptor

namespace UDPSocket

def defaultMtu : Nat := 65536

def recv (sock : UDPSocket) (mtu : Nat) (k : DatagramKernel) :
    Except String ((Address × Buffer) × UDPSocket) := do
  let (source, payload) ← k.recvfrom sock mtu
  if payload.length > mtu then .error "recvfrom (oversized datagram)"
  else return ((source, payload), { sock.registerRead with received := sock.received ++ [payload] })

def sendto (sock : UDPSocket) (destination : Address) (payload : BufferViewList) (k : DatagramKernel) :
    Except String UDPSocket := do
  let bytesSent ← k.sendmsg sock destination payload
  if bytesSent ≠ payload.size then .error "datagram payload too big for sendmsg()"
  else return { sock.registerWrite with sent := sock.sent ++ [payload.flatten] }

end UDPSocket

structure TCPOverUDPSocketAdapter where
  config : FdAdapterConfig := {}
  listening : Bool := false
  sock : UDPSocket := {}
deriving DecidableEq, Repr

namespace TCPOverUDPSocketAdapter

/-- From the payload of a datagram to a segment of the connection. -/
def accept (a : TCPOverUDPSocketAdapter) (source : Address) (payload : Buffer) :
    Option TCPSegment × TCPOverUDPSocketAdapter :=
  if a.listening = false ∧ source ≠ a.config.destination then (none, a)
  else
    let (result, seg) := ({} : TCPSegment).parse payload 0
    if result ≠ .noError then (none, a)
    else if a.listening then
      if seg.header.syn ∧ seg.header.rst = false then
        (some seg, { a with config := { a.config with destination := source }, listening := false })
      else (none, a)
    else (some seg, a)

def read (k : DatagramKernel) (a : TCPOverUDPSocketAdapter) :
    Except String (Option TCPSegment × TCPOverUDPSocketAdapter) := do
  let ((source, payload), sock) ← UDPSocket.recv a.sock UDPSocket.defaultMtu k
  return { a with sock := sock }.accept source payload

def withPorts (a : TCPOverUDPSocketAdapter) (seg : TCPSegment) : TCPSegment :=
  { seg with header := { seg.header with sport := a.config.source.port, dport := a.config.destination.port } }

def write (k : DatagramKernel) (seg : TCPSegment) (a : TCPOverUDPSocketAdapter) :
    Except String TCPOverUDPSocketAdapter := do
  let payload ← (a.withPorts seg).serialize 0
  return { a with sock := ← UDPSocket.sendto a.sock a.config.destination payload k }

instance : FdAdapter TCPOverUDPSocketAdapter DatagramKernel where
  fd := sock
  read := read
  write := write
  tick _ _ a := .ok a
  setListening l a := { a with listening := l }
  configure cfg a := { a with config := cfg.toFdAdapterConfig }

end TCPOverUDPSocketAdapter

structure TCPOverIPv4OverTunFdAdapter extends TCPOverIPv4Adapter where
  tun : FileDescriptor := {}
deriving DecidableEq, Repr

namespace TCPOverIPv4OverTunFdAdapter

def read (k : Kernel) (a : TCPOverIPv4OverTunFdAdapter) :
    Except String (Option TCPSegment × TCPOverIPv4OverTunFdAdapter) := do
  let (bytes, tun) ← a.tun.read FileDescriptor.noLimit k
  match ({} : IPv4Datagram).parse bytes with
  | (.noError, dgram) =>
    let (seg, base) ← a.unwrapTcpInIp dgram
    return (seg, { toTCPOverIPv4Adapter := base, tun := tun })
  | _ => return (none, { a with tun := tun })

def write (k : Kernel) (seg : TCPSegment) (a : TCPOverIPv4OverTunFdAdapter) :
    Except String TCPOverIPv4OverTunFdAdapter := do
  let (dgram, _) ← a.wrapTcpInIp seg
  let (_, tun) ← a.tun.write (← dgram.serialize) true k
  return { a with tun := tun }

instance : FdAdapter TCPOverIPv4OverTunFdAdapter Kernel where
  fd := tun
  read := read
  write := write
  tick _ _ a := .ok a
  setListening l a := { a with listening := l }
  configure cfg a := { a with config := cfg.toFdAdapterConfig }

end TCPOverIPv4OverTunFdAdapter

/-- `popped` counts the frames that were taken from the interface's queue, which
is a history in the model of the interface. -/
structure TCPOverIPv4OverEthernetAdapter extends TCPOverIPv4Adapter where
  tap : FileDescriptor := {}
  interface : NetworkInterface
  popped : Nat := 0
  nextHop : UInt32

namespace TCPOverIPv4OverEthernetAdapter

/-- Frames to the TAP device, one write each. -/
def writeFrames (k : Kernel) (tap : FileDescriptor) (frames : List EthernetFrame) :
    Except String FileDescriptor :=
  frames.foldlM (fun tap frame => do return (← tap.write frame.serialize true k).2) tap

/-- The adapter sends a dummy frame first. -/
def new (k : Kernel) (ethAddress : EthernetAddress) (ipAddress nextHop : UInt32) :
    Except String TCPOverIPv4OverEthernetAdapter := do
  let tap ← writeFrames k {} [{}]
  return { tap := tap, interface := .new ethAddress ipAddress, nextHop := nextHop }

def sendPending (k : Kernel) (a : TCPOverIPv4OverEthernetAdapter) :
    Except String TCPOverIPv4OverEthernetAdapter := do
  let tap ← writeFrames k a.tap (a.interface.framesOut.drop a.popped)
  return { a with tap := tap, popped := a.interface.framesOut.length }

def read (k : Kernel) (a : TCPOverIPv4OverEthernetAdapter) :
    Except String (Option TCPSegment × TCPOverIPv4OverEthernetAdapter) := do
  let (bytes, tap) ← a.tap.read FileDescriptor.noLimit k
  let a := { a with tap := tap }
  match ({} : EthernetFrame).parse bytes with
  | (.noError, frame) =>
    let (dgram, interface) ← a.interface.recvFrame frame
    let a ← { a with interface := interface }.sendPending k
    match dgram with
    | some dgram =>
      let (seg, base) ← a.unwrapTcpInIp dgram
      return (seg, { a with toTCPOverIPv4Adapter := base })
    | none => return (none, a)
  | _ => return (none, a)

def tick (k : Kernel) (msSinceLastTick : Nat) (a : TCPOverIPv4OverEthernetAdapter) :
    Except String TCPOverIPv4OverEthernetAdapter :=
  { a with interface := a.interface.tick msSinceLastTick }.sendPending k

def write (k : Kernel) (seg : TCPSegment) (a : TCPOverIPv4OverEthernetAdapter) :
    Except String TCPOverIPv4OverEthernetAdapter := do
  let (dgram, _) ← a.wrapTcpInIp seg
  let interface ← a.interface.sendDatagram dgram a.nextHop
  { a with interface := interface }.sendPending k

instance : FdAdapter TCPOverIPv4OverEthernetAdapter Kernel where
  fd := tap
  read := read
  write := write
  tick := tick
  setListening l a := { a with listening := l }
  configure cfg a := { a with config := cfg.toFdAdapterConfig }

end TCPOverIPv4OverEthernetAdapter

/-- `rand` is the sequence that the generator gives and `drawn` how much of it was
used; the rates are those of the configuration. -/
structure LossyFdAdapter (α : Type) where
  adapter : α
  lossRateDn : UInt16 := 0
  lossRateUp : UInt16 := 0
  rand : Nat → UInt16
  drawn : Nat := 0

namespace LossyFdAdapter

variable {α δ : Type} [FdAdapter α δ]

/-- A rate of zero draws nothing. -/
def shouldDrop (a : LossyFdAdapter α) (uplink : Bool) : Bool × LossyFdAdapter α :=
  let loss := if uplink then a.lossRateUp else a.lossRateDn
  if loss ≠ 0 then (decide (a.rand a.drawn < loss), { a with drawn := a.drawn + 1 }) else (false, a)

def read (k : δ) (a : LossyFdAdapter α) : Except String (Option TCPSegment × LossyFdAdapter α) := do
  let (ret, adapter) ← FdAdapter.read k a.adapter
  let draw := { a with adapter := adapter }.shouldDrop false
  return (if draw.1 then none else ret, draw.2)

def write (k : δ) (seg : TCPSegment) (a : LossyFdAdapter α) : Except String (LossyFdAdapter α) :=
  let draw := a.shouldDrop true
  if draw.1 then .ok draw.2
  else do return { draw.2 with adapter := ← FdAdapter.write k seg draw.2.adapter }

instance : FdAdapter (LossyFdAdapter α) δ where
  fd a := FdAdapter.fd a.adapter
  read := read
  write := write
  tick k ms a := do return { a with adapter := ← FdAdapter.tick k ms a.adapter }
  setListening l a := { a with adapter := FdAdapter.setListening l a.adapter }
  configure cfg a := { a with
    adapter := FdAdapter.configure cfg a.adapter
    lossRateDn := cfg.lossRateDn
    lossRateUp := cfg.lossRateUp }

end LossyFdAdapter
end Sponge
