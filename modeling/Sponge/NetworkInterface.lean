import Sponge.Wire.Ethernet
import Sponge.Wire.IPv4

/-! The network interface as the source computes it. A `std::map` keyed by IP
address is a function into `Option`; the queue of outbound frames is never taken
from here, so it is the history of what was sent. An operation that throws has
no result. -/
namespace Sponge

structure EthernetAddressEntry where
  timeCaching : Nat
  macAddress : EthernetAddress
deriving DecidableEq, Repr

structure QueuingList where
  timeSinceLastARPReq : Nat := 0
  queuingDatagrams : List IPv4Datagram := []
deriving DecidableEq, Repr

structure NetworkInterface where
  ethernetAddress : EthernetAddress
  ipAddress : UInt32
  framesOut : List EthernetFrame
  cache : UInt32 → Option EthernetAddressEntry
  queuingListMap : UInt32 → Option QueuingList

namespace NetworkInterface

inductive ARPType where
  | request
  | reply
deriving DecidableEq, Repr

def new (ethernetAddress : EthernetAddress) (ipAddress : UInt32) : NetworkInterface where
  ethernetAddress := ethernetAddress
  ipAddress := ipAddress
  framesOut := []
  cache := fun _ => none
  queuingListMap := fun _ => none

/-- A frame of this interface pushed to the outbound queue. -/
def pushFrame (i : NetworkInterface) (type : UInt16) (dst : EthernetAddress) (payload : BufferList) :
    NetworkInterface :=
  { i with framesOut := i.framesOut ++
      [{ header := { dst := dst, src := i.ethernetAddress, type := type }, payload := payload }] }

def sendDatagramHandler (i : NetworkInterface) (dgram : IPv4Datagram) (nextHopMAC : EthernetAddress) :
    Except String NetworkInterface := do
  let payload ← dgram.serialize
  return i.pushFrame EthernetHeader.typeIPv4 nextHopMAC payload

def arpMessage (i : NetworkInterface) (arpType : ARPType) (nextHopMAC : EthernetAddress)
    (nextHopIP : UInt32) : ARPMessage where
  opcode := if arpType = .request then ARPMessage.opcodeRequest else ARPMessage.opcodeReply
  senderIPAddress := i.ipAddress
  senderEthernetAddress := i.ethernetAddress
  targetIPAddress := nextHopIP
  targetEthernetAddress := if arpType = .reply then nextHopMAC else .repeated 0

def sendARP (i : NetworkInterface) (arpType : ARPType) (nextHopMAC : EthernetAddress)
    (nextHopIP : UInt32) : Except String NetworkInterface := do
  let payload ← (i.arpMessage arpType nextHopMAC nextHopIP).serialize
  return i.pushFrame EthernetHeader.typeARP nextHopMAC [payload]

/-- The next hop is given by its IPv4 address, as a number. -/
def sendDatagram (i : NetworkInterface) (dgram : IPv4Datagram) (nextHopIP : UInt32) :
    Except String NetworkInterface :=
  match i.cache nextHopIP with
  | some entry => i.sendDatagramHandler dgram entry.macAddress
  | none =>
    match i.queuingListMap nextHopIP with
    | some found =>
      -- The source pushes to its own copy of the list, which ends here.
      let queuingList := { found with queuingDatagrams := found.queuingDatagrams ++ [dgram] }
      if queuingList.timeSinceLastARPReq ≥ 5000 then i.sendARP .request .broadcast nextHopIP else .ok i
    | none =>
      let queuingList : QueuingList := { queuingDatagrams := [dgram] }
      { i with queuingListMap := Function.update i.queuingListMap nextHopIP (some queuingList) }.sendARP
        .request .broadcast nextHopIP

/-- The mapping learned from the sender fields, new or renewed. -/
def learn (i : NetworkInterface) (arp : ARPMessage) : NetworkInterface :=
  { i with cache := Function.update i.cache arp.senderIPAddress (some
      { timeCaching := 0, macAddress := arp.senderEthernetAddress }) }

/-- The loop that empties one queue. -/
def sendQueue (i : NetworkInterface) (nextHopMAC : EthernetAddress) :
    List IPv4Datagram → Except String NetworkInterface
  | [] => .ok i
  | dgram :: rest => do
    let i ← i.sendDatagramHandler dgram nextHopMAC
    i.sendQueue nextHopMAC rest

/-- Send what waits for the sender of `arp`, and forget its list. -/
def sendQueuing (i : NetworkInterface) (arp : ARPMessage) : Except String NetworkInterface :=
  match i.queuingListMap arp.senderIPAddress with
  | none => .ok i
  | some queuingList => do
    let i ← i.sendQueue arp.senderEthernetAddress queuingList.queuingDatagrams
    return { i with queuingListMap := Function.update i.queuingListMap arp.senderIPAddress none }

def recvARP (i : NetworkInterface) (arp : ARPMessage) : Except String NetworkInterface := do
  let i ← (i.learn arp).sendQueuing arp
  if arp.opcode = ARPMessage.opcodeRequest ∧ arp.targetIPAddress = i.ipAddress
  then i.sendARP .reply arp.senderEthernetAddress arp.senderIPAddress
  else return i

def recvFrame (i : NetworkInterface) (frame : EthernetFrame) :
    Except String (Option IPv4Datagram × NetworkInterface) :=
  if frame.header.dst ≠ i.ethernetAddress ∧ frame.header.dst ≠ .broadcast then .ok (none, i)
  else if frame.header.type = EthernetHeader.typeARP then do
    let buffer ← frame.payload.toBuffer
    match ({} : ARPMessage).parse buffer with
    | (.noError, arp) => return (none, ← i.recvARP arp)
    | _ => return (none, i)
  else if frame.header.type = EthernetHeader.typeIPv4 then do
    let buffer ← frame.payload.toBuffer
    match ({} : IPv4Datagram).parse buffer with
    | (.noError, datagram) => return (some datagram, i)
    | _ => return (none, i)
  else .ok (none, i)

/-- A mapping ages and is dropped after thirty seconds; `size_t` sums wrap. -/
def age (msSinceLastTick : Nat) (entry : EthernetAddressEntry) : Option EthernetAddressEntry :=
  let timeCaching := FixedWidth.add 64 entry.timeCaching msSinceLastTick
  if timeCaching ≥ 30000 then none else some { entry with timeCaching := timeCaching }

def tick (i : NetworkInterface) (msSinceLastTick : Nat) : NetworkInterface :=
  { i with
    cache := fun ip => (i.cache ip).bind (age msSinceLastTick)
    queuingListMap := fun ip => (i.queuingListMap ip).map (fun queuingList =>
      { queuingList with
        timeSinceLastARPReq := FixedWidth.add 64 queuingList.timeSinceLastARPReq msSinceLastTick }) }

end NetworkInterface
end Sponge
