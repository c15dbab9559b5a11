import Sponge.Wire.Parser

/-! Ethernet frames and ARP messages. As with IPv4, `EthernetFrame.parse` drops
the result of the header's parser. -/
namespace Sponge

structure EthernetAddress where
  bytes : List UInt8
  size : bytes.length = 6
deriving DecidableEq, Repr

namespace EthernetAddress

/-- Six equal bytes: all ones is the broadcast address, all zeros the value of a
fresh `std::array`. -/
def repeated (byte : UInt8) : EthernetAddress := ⟨List.replicate 6 byte, rfl⟩

def broadcast : EthernetAddress := repeated 0xff

end EthernetAddress

def NetParser.ethernetAddress (p : NetParser) : EthernetAddress × NetParser :=
  (⟨(NetParser.bytes 6 p).1, NetParser.bytes_length 6 p⟩, (NetParser.bytes 6 p).2)

structure EthernetHeader where
  dst : EthernetAddress := .repeated 0
  src : EthernetAddress := .repeated 0
  type : UInt16 := 0
deriving DecidableEq, Repr

namespace EthernetHeader

def length : Nat := 14

def typeIPv4 : UInt16 := 0x800

def typeARP : UInt16 := 0x806

def parse (h : EthernetHeader) (p : NetParser) : ParseResult × EthernetHeader × NetParser :=
  if p.buffer.length < length then (.packetTooShort, h, p)
  else
    let (dst, p) := p.ethernetAddress
    let (src, p) := p.ethernetAddress
    let (type, p) := p.u16
    (p.getError, { dst, src, type }, p)

def serialize (h : EthernetHeader) : Buffer :=
  h.dst.bytes.flatMap NetUnparser.u8 ++ h.src.bytes.flatMap NetUnparser.u8 ++ NetUnparser.u16 h.type

end EthernetHeader

structure EthernetFrame where
  header : EthernetHeader := {}
  payload : BufferList := []
deriving DecidableEq, Repr

namespace EthernetFrame

def parse (f : EthernetFrame) (buffer : Buffer) : ParseResult × EthernetFrame :=
  let (_, header, p) := f.header.parse { buffer := buffer }
  (p.getError, { header := header, payload := [p.buffer] })

def serialize (f : EthernetFrame) : BufferList := f.header.serialize :: f.payload

end EthernetFrame

structure ARPMessage where
  hardwareType : UInt16 := 1
  protocolType : UInt16 := EthernetHeader.typeIPv4
  hardwareAddressSize : UInt8 := 6
  protocolAddressSize : UInt8 := 4
  opcode : UInt16 := 0
  senderEthernetAddress : EthernetAddress := .repeated 0
  senderIPAddress : UInt32 := 0
  targetEthernetAddress : EthernetAddress := .repeated 0
  targetIPAddress : UInt32 := 0
deriving DecidableEq, Repr

namespace ARPMessage

def length : Nat := 28

def typeEthernet : UInt16 := 1

def opcodeRequest : UInt16 := 1

def opcodeReply : UInt16 := 2

def supported (arp : ARPMessage) : Bool :=
  arp.hardwareType == typeEthernet && arp.protocolType == EthernetHeader.typeIPv4 &&
    arp.hardwareAddressSize == 6 && arp.protocolAddressSize == 4 &&
    (arp.opcode == opcodeRequest || arp.opcode == opcodeReply)

def parse (arp : ARPMessage) (buffer : Buffer) : ParseResult × ARPMessage :=
  let p : NetParser := { buffer := buffer }
  if p.buffer.length < length then (.packetTooShort, arp)
  else
    let (hardwareType, p) := p.u16
    let (protocolType, p) := p.u16
    let (hardwareAddressSize, p) := p.u8
    let (protocolAddressSize, p) := p.u8
    let (opcode, p) := p.u16
    let arp := { arp with hardwareType, protocolType, hardwareAddressSize, protocolAddressSize, opcode }
    if arp.supported = false then (.unsupported, arp)
    else
      let (senderEthernetAddress, p) := p.ethernetAddress
      let (senderIPAddress, p) := p.u32
      let (targetEthernetAddress, p) := p.ethernetAddress
      let (targetIPAddress, p) := p.u32
      (p.getError, { arp with
        senderEthernetAddress, senderIPAddress, targetEthernetAddress, targetIPAddress })

def bytes (arp : ARPMessage) : Buffer :=
  NetUnparser.u16 arp.hardwareType ++ NetUnparser.u16 arp.protocolType ++
    NetUnparser.u8 arp.hardwareAddressSize ++ NetUnparser.u8 arp.protocolAddressSize ++
    NetUnparser.u16 arp.opcode ++
    arp.senderEthernetAddress.bytes.flatMap NetUnparser.u8 ++ NetUnparser.u32 arp.senderIPAddress ++
    arp.targetEthernetAddress.bytes.flatMap NetUnparser.u8 ++ NetUnparser.u32 arp.targetIPAddress

def serialize (arp : ARPMessage) : Except String Buffer :=
  if arp.supported = false then .error
    "ARPMessage::serialize(): unsupported field combination (must be Ethernet/IP, and request or reply)"
  else .ok arp.bytes

end ARPMessage
end Sponge
