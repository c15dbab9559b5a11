import Sponge.Router.Frames

/-! The network simulator: hosts with one interface each around one router. The map
of the hosts by name is a function into `Option`, an address its IPv4 number. The
random payload, the random Ethernet addresses and the physical connections are
arguments. -/
namespace Sponge

/-- The digits the source streams with `std::hex`. -/
def hexDigits (n : Nat) : String := String.ofList (Nat.toDigits 16 n)

/-- Dotted decimals, as `inet_ntoa` gives them. -/
def dottedQuad (ip : UInt32) : String :=
  let n := ip.toNat
  ".".intercalate ([n / 2 ^ 24, n / 2 ^ 16 % 256, n / 2 ^ 8 % 256, n % 256].map toString)

def IPv4Header.summary (h : IPv4Header) : String :=
  "IPv" ++ hexDigits h.ver.toNat ++ ", len=" ++ hexDigits h.len.toNat ++ ", protocol=" ++
    hexDigits h.proto.toNat ++ ", " ++ (if h.ttl ≥ 10 then "" else "ttl=" ++ toString h.ttl.toNat ++ ", ") ++
    "src=" ++ dottedQuad h.src ++ ", dst=" ++ dottedQuad h.dst

/-- A datagram in the message of an exception; a byte is a character. -/
def IPv4Datagram.text (d : IPv4Datagram) : String :=
  d.header.summary ++ " payload=\"" ++
    String.ofList (d.payload.concatenate.map fun byte => Char.ofNat byte.toNat) ++ "\""

namespace NetworkSimulator

structure Host where
  name : String
  myAddress : UInt32
  interface : AsyncNetworkInterface
  nextHop : UInt32
  expectingToReceive : List IPv4Datagram := []

namespace Host

/-- Who a host is, which it stays. -/
def identity (host : Host) : String × UInt32 × UInt32 := (host.name, host.myAddress, host.nextHop)

def new (name : String) (ethernetAddress : EthernetAddress) (myAddress nextHop : UInt32) : Host where
  name := name
  myAddress := myAddress
  interface := .new ethernetAddress myAddress
  nextHop := nextHop

/-- The comparison of both loops below. -/
def sameBytes (x expected : IPv4Datagram) : Except String Bool := do
  let left ← x.serialize
  let right ← expected.serialize
  return left.concatenate == right.concatenate

def expecting (host : Host) (expected : IPv4Datagram) : Except String Bool :=
  host.expectingToReceive.anyM fun x => sameBytes x expected

/-- The loop erases the first match. -/
def eraseExpected (expected : IPv4Datagram) : List IPv4Datagram → Except String (List IPv4Datagram)
  | [] => .ok []
  | x :: rest => do
    if ← sameBytes x expected then return rest
    else return x :: (← eraseExpected expected rest)

def removeExpectation (host : Host) (expected : IPv4Datagram) : Except String Host := do
  return { host with expectingToReceive := ← eraseExpected expected host.expectingToReceive }

/-- The datagram that `send_to` builds. -/
def datagram (host : Host) (destination : UInt32) (payload : Buffer) (ttl : UInt8) : IPv4Datagram :=
  let dgram : IPv4Datagram := { header := { src := host.myAddress, dst := destination }, payload := [payload] }
  { dgram with
    header := { dgram.header with
      len := UInt16.ofNat (dgram.header.hlen.toNat * 4 + dgram.payload.size)
      ttl := ttl } }

/-- The time to live of `send_to` when its caller gives none. -/
def defaultTTL : UInt8 := 64

def sendTo (host : Host) (destination : UInt32) (payload : Buffer) (ttl : UInt8) :
    Except String (IPv4Datagram × Host) := do
  let dgram := host.datagram destination payload ttl
  let interface ← host.interface.sendDatagram dgram host.nextHop
  return (dgram, { host with interface := interface })

def expect (host : Host) (expected : IPv4Datagram) : Host :=
  { host with expectingToReceive := host.expectingToReceive ++ [expected] }

/-- The loop over the received datagrams, which it pops. -/
def checkReceived (host : Host) : List IPv4Datagram → Except String Host
  | [] => .ok { host with interface := { host.interface with datagramsOut := [] } }
  | dgram :: rest => do
    if ← host.expecting dgram then
      let host ← host.removeExpectation dgram
      host.checkReceived rest
    else .error ("Host " ++ host.name ++ " received unexpected Internet datagram: " ++ dgram.text)

def check (host : Host) : Except String Host := do
  let host ← host.checkReceived host.interface.datagramsOut
  match host.expectingToReceive with
  | [] => return host
  | expected :: _ =>
    .error ("Host " ++ host.name ++ " did NOT receive an expected Internet datagram: " ++ expected.text)

end Host

/-- An interface of the network, by its place. -/
inductive Port where
  | router (n : Nat)
  | host (name : String)
deriving DecidableEq, Repr

structure Network where
  router : Router
  hosts : String → Option Host

namespace Network

def host (net : Network) (name : String) : Except String Host :=
  match net.hosts name with
  | none => .error ("unknown host: " ++ name)
  | some host => if host.name ≠ name then .error ("invalid host: " ++ name) else .ok host

/-- A call on a host, which is changed in place. -/
def onHost (net : Network) (name : String) (call : Host → Except String Host) : Except String Network := do
  let host ← call (← net.host name)
  return { net with hosts := Function.update net.hosts name (some host) }

def onPort (net : Network) (call : AsyncNetworkInterface → Except String AsyncNetworkInterface) :
    Port → Except String Network
  | .router n => do return { net with router := ← net.router.onInterface n call }
  | .host name => net.onHost name fun host => do return { host with interface := ← call host.interface }

/-- The interface at a port, if there is one. -/
def interface (net : Network) : Port → Option AsyncNetworkInterface
  | .router n => net.router.interfaces[n]?
  | .host name => (net.host name).toOption.map Host.interface

/-- A copy of what an interface has emitted. -/
def framesOut (net : Network) (port : Port) : List EthernetFrame :=
  ((net.interface port).map fun i => i.framesOut).getD []

/-- A frame on the wire has its payload in one piece. -/
def onWire (frame : EthernetFrame) : EthernetFrame :=
  { frame with payload := [frame.payload.concatenate] }

def deliver (net : Network) (src : List EthernetFrame) (dst : Port) : Except String Network :=
  src.foldlM (fun net frame => net.onPort (fun i => i.recvFrame (onWire frame)) dst) net

/-- The first `n` frames are popped. -/
def clear (net : Network) (n : Nat) (port : Port) : Except String Network :=
  net.onPort (fun i => .ok { i with framesOut := i.framesOut.drop n }) port

/-- The two functions of the source for two and for three interfaces: every one is
given what the others had emitted, and that is cleared. -/
def exchangeFrames (net : Network) (ports : List Port) : Except String Network := do
  let queues := ports.map fun port => (port, net.framesOut port)
  let net ← queues.foldlM (fun net (src, frames) =>
    (ports.filter (· ≠ src)).foldlM (fun net dst => net.deliver frames dst) net) net
  queues.foldlM (fun net (port, frames) => net.clear frames.length port) net

def simulatePhysicalConnections (net : Network) (links : List (List Port)) : Except String Network :=
  links.foldlM exchangeFrames net

def route (net : Network) : Except String Network := do
  return { net with router := (← net.router.route).2 }

/-- One turn of the loop in `simulate`. -/
def turn (net : Network) (links : List (List Port)) : Except String Network := do
  (← net.route).simulatePhysicalConnections links

def turns (links : List (List Port)) : Nat → Network → Except String Network
  | 0, net => .ok net
  | n + 1, net => do turns links n (← net.turn links)

/-- `names` lists the hosts in the order in which the map gives them. -/
def simulate (net : Network) (links : List (List Port)) (names : List String) : Except String Network := do
  names.foldlM (fun net name => net.onHost name Host.check) (← turns links 256 net)

def sendTo (net : Network) (name : String) (destination : UInt32) (payload : Buffer) (ttl : UInt8) :
    Except String (IPv4Datagram × Network) := do
  let host ← net.host name
  let (dgram, host) ← host.sendTo destination payload ttl
  return (dgram, { net with hosts := Function.update net.hosts name (some host) })

end Network

/-- One of the tests: a host sends, and the one that is to receive the datagram, if
any is, expects it with one hop less to live. -/
structure Test where
  sender : String
  destination : UInt32
  payload : Buffer := []
  ttl : UInt8 := Host.defaultTTL
  receiver : Option String := none

def Test.run (links : List (List Port)) (names : List String) (net : Network) (test : Test) :
    Except String Network := do
  let (dgramSent, net) ← net.sendTo test.sender test.destination test.payload test.ttl
  let expected := { dgramSent with header := { dgramSent.header with ttl := dgramSent.header.ttl - 1 } }
  match test.receiver with
  | none => net.simulate links names
  | some receiver => do
    let net ← net.onHost receiver fun host => .ok (host.expect expected)
    net.simulate links names

/-- The tests of `network_simulator`, one after the other. -/
def networkSimulator (links : List (List Port)) (names : List String) (net : Network) (tests : List Test) :
    Except String Network :=
  tests.foldlM (Test.run links names) net

/-! ### The network of the source -/

def ip (a b c d : UInt8) : UInt32 :=
  UInt32.ofNat (((a.toNat * 256 + b.toNat) * 256 + c.toNat) * 256 + d.toNat)

def defaultId : Nat := 0
def eth0Id : Nat := 1
def eth1Id : Nat := 2
def eth2Id : Nat := 3
def uun3Id : Nat := 4
def hs4Id : Nat := 5
def mit5Id : Nat := 6

/-- The names of the hosts with their addresses and next hops. -/
def hostTable : List (String × UInt32 × UInt32) := [
  ("applesauce", ip 10 0 0 2, ip 10 0 0 1),
  ("default_router", ip 171 67 76 1, 0),
  ("cherrypie", ip 192 168 0 2, ip 192 168 0 1),
  ("hs_router", ip 143 195 0 1, 0),
  ("dm42", ip 198 178 229 42, ip 198 178 229 1),
  ("dm43", ip 198 178 229 43, ip 198 178 229 1)]

/-- The constructor, with the addresses that are random in the source. -/
def Network.new (routerAddress : Nat → EthernetAddress) (hostAddress : String → EthernetAddress) : Network where
  router := {
    interfaces := [
      .new (routerAddress defaultId) (ip 171 67 76 46),
      .new (routerAddress eth0Id) (ip 10 0 0 1),
      .new (routerAddress eth1Id) (ip 172 16 0 1),
      .new (routerAddress eth2Id) (ip 192 168 0 1),
      .new (routerAddress uun3Id) (ip 198 178 229 1),
      .new (routerAddress hs4Id) (ip 143 195 0 2),
      .new (routerAddress mit5Id) (ip 128 30 76 255)]
    routingTable := [
      ⟨ip 0 0 0 0, 0, some (ip 171 67 76 1), defaultId⟩,
      ⟨ip 10 0 0 0, 8, none, eth0Id⟩,
      ⟨ip 172 16 0 0, 16, none, eth1Id⟩,
      ⟨ip 192 168 0 0, 24, none, eth2Id⟩,
      ⟨ip 198 178 229 0, 24, none, uun3Id⟩,
      ⟨ip 143 195 0 0, 17, some (ip 143 195 0 1), hs4Id⟩,
      ⟨ip 143 195 128 0, 18, some (ip 143 195 0 1), hs4Id⟩,
      ⟨ip 143 195 192 0, 19, some (ip 143 195 0 1), hs4Id⟩,
      ⟨ip 128 30 76 255, 16, some (ip 128 30 0 1), mit5Id⟩] }
  hosts name := (hostTable.lookup name).map fun (address, nextHop) => .new name (hostAddress name) address nextHop

def physicalConnections : List (List Port) := [
  [.router defaultId, .host "default_router"],
  [.router eth0Id, .host "applesauce"],
  [.router eth2Id, .host "cherrypie"],
  [.router hs4Id, .host "hs_router"],
  [.router uun3Id, .host "dm42", .host "dm43"]]

/-- The ten tests, in order. -/
def tests : List Test := [
  { sender := "applesauce", destination := ip 192 168 0 2, receiver := some "cherrypie" },
  { sender := "cherrypie", destination := ip 10 0 0 2, receiver := some "applesauce" },
  { sender := "applesauce", destination := ip 1 2 3 4, receiver := some "default_router" },
  { sender := "applesauce", destination := ip 143 195 131 17, receiver := some "hs_router" },
  { sender := "cherrypie", destination := ip 143 195 193 52, receiver := some "hs_router" },
  { sender := "cherrypie", destination := ip 143 195 223 255, receiver := some "hs_router" },
  { sender := "cherrypie", destination := ip 143 195 224 0, receiver := some "default_router" },
  { sender := "dm42", destination := ip 198 178 229 43, receiver := some "dm43" },
  { sender := "applesauce", destination := ip 1 2 3 4, ttl := 1 },
  { sender := "applesauce", destination := ip 1 2 3 4, ttl := 0 }]

end NetworkSimulator
end Sponge
