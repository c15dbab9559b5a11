import Sponge.NetworkSimulator.Expectations
import Sponge.NetworkInterface.Ledger

/-! Runs of a network: its hosts send, its router routes, time passes, and frames
are exchanged along the physical connections, as the simulator does it or one by
one in any order, repeated or lost. What an interface holds or has emitted can
then be traced back, hop by hop, to a datagram that a host sent. -/
namespace Sponge

namespace IPv4Datagram

/-- A well-formed datagram that is as long as its header says. -/
structure Whole (d : IPv4Datagram) : Prop where
  wellFormed : d.WellFormed
  len : d.header.len.toNat = 4 * d.header.hlen.toNat + d.payload.size

/-- What a receiver makes of a whole datagram. -/
def received (d : IPv4Datagram) : IPv4Datagram where
  header := { d.headerOut with offset := d.header.offset &&& 0x1fff }
  payload := [d.payload.concatenate]

variable {d : IPv4Datagram}

theorem size_concatenate (payload : BufferList) : BufferList.size [payload.concatenate] = payload.size := by
  simp [BufferList.size, BufferList.concatenate, List.length_flatten]

theorem Whole.received (whole : d.Whole) : d.received.Whole where
  wellFormed := ⟨whole.wellFormed.ver, whole.wellFormed.hlen,
    (size_concatenate d.payload).trans whole.wellFormed.payload⟩
  len := whole.len.trans (congrArg _ (size_concatenate d.payload).symm)

/-- A router changes the time to live only, and does not use it up. -/
theorem forward_dgram {table : List RouteEntry} {call : SendCall} (decided : Router.forward table d = some call) :
    2 ≤ d.header.ttl.toNat ∧ call.dgram = { d with header := { d.header with ttl := d.header.ttl - 1 } } := by
  unfold Router.forward at decided
  dsimp only at decided
  split_ifs at decided with expired
  obtain ⟨entry, _, rfl⟩ := Option.map_eq_some_iff.mp decided
  rw [UInt8.le_iff_toNat_le, show (1 : UInt8).toNat = 1 from rfl] at expired
  exact ⟨by omega, by split <;> rfl⟩

theorem Whole.forward (whole : d.Whole) {table : List RouteEntry} {call : SendCall}
    (decided : Router.forward table d = some call) : call.dgram.Whole := by
  rw [(forward_dgram decided).2]
  exact ⟨⟨whole.wellFormed.ver, whole.wellFormed.hlen, whole.wellFormed.payload⟩, whole.len⟩

end IPv4Datagram

namespace NetworkSimulator
open NetworkInterface

/-- What a host sends is whole if its length fits the field of the header. -/
theorem Host.datagram_whole (host : Host) {payload : Buffer} (fits : payload.length ≤ 65515) (destination : UInt32)
    (ttl : UInt8) : (host.datagram destination payload ttl).Whole := by
  have len : (host.datagram destination payload ttl).header.len.toNat = 20 + payload.length := by
    simp only [Host.datagram, BufferList.size, List.map_cons, List.map_nil, List.sum_cons, List.sum_nil]
    rw [UInt16.toNat_ofNat', Nat.mod_eq_of_lt (by change 5 * 4 + (payload.length + 0) < _; omega)]
    rfl
  have size : (host.datagram destination payload ttl).payload.size = payload.length := Nat.add_zero _
  have five : (host.datagram destination payload ttl).header.hlen.toNat = 5 := rfl
  refine ⟨⟨rfl, by rw [five]; decide, ?_⟩, by rw [len, size, five]⟩
  rw [IPv4Header.payloadLength_toNat, len, five, FixedWidth.sub_of_le (by omega) (by omega), size]
  omega

/-- Two interfaces on one physical connection. -/
def Linked (links : List (List Port)) (a b : Port) : Prop :=
  a ≠ b ∧ ∃ ports ∈ links, a ∈ ports ∧ b ∈ ports

instance (links : List (List Port)) (a b : Port) : Decidable (Linked links a b) :=
  inferInstanceAs (Decidable (_ ∧ _))

theorem Linked.symm {links : List (List Port)} {a b : Port} (linked : Linked links a b) : Linked links b a := by
  obtain ⟨distinct, ports, member, left, right⟩ := linked
  exact ⟨distinct.symm, ports, member, right, left⟩

/-- An interface is on one connection only. -/
theorem ports_unique {links : List (List Port)} {port : Port} (nodup : links.flatten.Nodup) {left right : List Port} (first : left ∈ links)
    (second : right ∈ links) (here : port ∈ left) (there : port ∈ right) : left = right := by
  by_contra distinct
  have symmetric : Std.Symm (@List.Disjoint Port) := ⟨fun _ _ => List.Disjoint.symm⟩
  exact (List.nodup_flatten.mp nodup).2.forall first second distinct here there

/-- Neighbours are told apart if the interfaces on each connection are. -/
theorem apart_of_nodup {links : List (List Port)} {κ : Type} {f : Port → κ} (nodup : links.flatten.Nodup)
    (each : ∀ ports ∈ links, (ports.map f).Nodup) (a b c : Port) (left : Linked links a b) (right : Linked links a c)
    (same : f b = f c) : b = c := by
  obtain ⟨_, ports, member, here, first⟩ := left
  obtain ⟨_, others, member', here', second⟩ := right
  obtain rfl := ports_unique nodup member member' here here'
  exact List.inj_on_of_nodup_map (each ports member) first second same

/-- The network and what its hosts have sent. -/
structure Session where
  net : Network
  sent : List (String × IPv4Datagram) := []

inductive Op where
  | sendTo (name : String) (destination : UInt32) (payload : Buffer) (ttl : UInt8)
  | expect (name : String) (expected : IPv4Datagram)
  | check (name : String)
  | tick (port : Port) (msSinceLastTick : Nat)
  | route
  | exchangeFrames (ports : List Port)
  | transfer (src : Port) (place : Nat) (dst : Port)
  | clear (n : Nat) (port : Port)

namespace Session

def apply (s : Session) : Op → Except String Session
  | .sendTo name destination payload ttl => do
    let (dgram, net) ← s.net.sendTo name destination payload ttl
    return { net := net, sent := s.sent ++ [(name, dgram)] }
  | .expect name expected => do
    return { s with net := ← s.net.onHost name fun host => .ok (host.expect expected) }
  | .check name => do return { s with net := ← s.net.onHost name Host.check }
  | .tick port ms => do return { s with net := ← s.net.onPort (fun i => .ok (i.tick ms)) port }
  | .route => do return { s with net := ← s.net.route }
  | .exchangeFrames ports => do return { s with net := ← s.net.exchangeFrames ports }
  | .transfer src place dst => do
    return { s with net := ← s.net.deliver (s.net.framesOut src)[place]?.toList dst }
  | .clear n port => do return { s with net := ← s.net.clear n port }

end Session

namespace Network

def ip (net : Network) (port : Port) : Option UInt32 := (net.interface port).map fun i => i.ipAddress

def mac (net : Network) (port : Port) : Option EthernetAddress :=
  (net.interface port).map fun i => i.ethernetAddress

/-- A network as it is constructed: fresh interfaces, routes that can be followed,
connections between interfaces that exist, and Ethernet addresses that tell the
neighbours of an interface apart. -/
structure SetUp (links : List (List Port)) (net : Network) : Prop where
  router : ∀ i ∈ net.router.interfaces, ∃ eth ip, i = .new eth ip
  hosts : ∀ name host, net.hosts name = some host → ∃ eth ip hop, host = .new name eth ip hop
  table : Router.ValidTable net.router.routingTable net.router.interfaces.length
  ports : ∀ ports ∈ links, ∀ port ∈ ports, ∃ i, net.interface port = some i
  apart : ∀ a b c, Linked links a b → Linked links a c → net.mac b = net.mac c → b = c
  unicast : ∀ port, net.mac port ≠ some .broadcast

end Network

/-- The operation names what exists, a datagram fits its length field, and frames
go where a connection leads. -/
def Allowed (base : Network) (links : List (List Port)) : Op → Prop
  | .sendTo name _ payload _ => (∃ host, base.hosts name = some host) ∧ payload.length ≤ 65515
  | .expect name _ => ∃ host, base.hosts name = some host
  | .check name => ∃ host, base.hosts name = some host
  | .tick port _ => ∃ i, base.interface port = some i
  | .route => True
  | .exchangeFrames ports => ports ∈ links
  | .transfer src _ dst => Linked links src dst
  | .clear _ port => ∃ i, base.interface port = some i

/-- What `send_to` builds for a host of the network. -/
def SentBy (base : Network) (name : String) (dgram : IPv4Datagram) : Prop :=
  ∃ host destination payload ttl, base.hosts name = some host ∧ payload.length ≤ 65515 ∧
    dgram = host.datagram destination payload ttl

/-- The sessions that start in the network as it was constructed. -/
def Runs (base : Network) (links : List (List Port)) : Session → Prop :=
  Run.Attains Session.apply (fun _ => Allowed base links) { net := base }

section
variable (base : Network) (links : List (List Port)) (sent : List (String × IPv4Datagram))

/-- `dgram` is to go from the interface at a port to a next hop, and is what has
become of `o` on its way from the host `name` over `hops` routers: the host has sent
it to its own next hop, or the router had it from a neighbour that was to send it
there, and forwards it. -/
inductive Routed (name : String) (o : IPv4Datagram) : Nat → Port → UInt32 → IPv4Datagram → Prop
  | sent {host} : (name, o) ∈ sent → base.hosts name = some host → Routed name o 0 (.host name) host.nextHop o
  | forwarded {hops src hop dgram n call} : Routed name o hops src hop dgram → Linked links src (.router n) →
      base.ip (.router n) = some hop → Router.forward base.router.routingTable dgram.received = some call →
      Routed name o (hops + 1) (.router call.interfaceNum) call.nextHop call.dgram

/-- Something that a host has sent is to go there. -/
def Due (port : Port) (hop : UInt32) (dgram : IPv4Datagram) : Prop :=
  ∃ name o hops, Routed base links sent name o hops port hop dgram

/-- A datagram is where a neighbour was to send it, over so many routers. -/
def Arrives (name : String) (o : IPv4Datagram) (hops : Nat) (port : Port) (d : IPv4Datagram) : Prop :=
  ∃ src hop dgram, Routed base links sent name o hops src hop dgram ∧ Linked links src port ∧
    base.ip port = some hop ∧ d = dgram.received

/-- A neighbour of the port has both addresses. -/
def Known (port : Port) (hop : UInt32) (eth : EthernetAddress) : Prop :=
  ∃ q, Linked links port q ∧ base.ip q = some hop ∧ base.mac q = some eth

end

/-! ### One interface changes -/

/-- What no operation changes: the routes, how many interfaces the router has, and
who the hosts are. -/
structure Alike (net t : Network) : Prop where
  table : t.router.routingTable = net.router.routingTable
  count : t.router.interfaces.length = net.router.interfaces.length
  hosts : ∀ name, (t.hosts name).map Host.identity = (net.hosts name).map Host.identity

/-- The interface at one port is now `j`, and nothing else changed. -/
structure Replaced (net : Network) (port : Port) (j : AsyncNetworkInterface) (t : Network) : Prop where
  alike : Alike net t
  here : t.interface port = some j
  others : ∀ q, q ≠ port → t.interface q = net.interface q

/-- The hosts expect what they expected before. -/
def SameExpectations (net t : Network) : Prop :=
  ∀ name, (t.hosts name).map Host.expectingToReceive = (net.hosts name).map Host.expectingToReceive

namespace Network

variable {net t : Network} {port : Port} {name : String} {host after : Host} {i j : AsyncNetworkInterface}
  {blame : Prop}

theorem host_ok (found : net.hosts name = some host) (named : host.name = name) : net.host name = .ok host := by
  simp [Network.host, found, named]

theorem host_of_ok (returned : net.host name = .ok host) : net.hosts name = some host ∧ host.name = name := by
  unfold Network.host at returned
  split at returned
  · cases returned
  · rename_i found stored
    split at returned
    · cases returned
    · rename_i named
      cases returned
      exact ⟨stored, not_not.mp named⟩

theorem interface_host (returned : net.host name = .ok host) : net.interface (.host name) = some host.interface := by
  simp [Network.interface, returned, Except.toOption]

theorem of_interface_host (found : net.interface (.host name) = some i) :
    ∃ host, net.host name = .ok host ∧ host.interface = i := by
  unfold Network.interface at found
  cases returned : net.host name with
  | error message => simp [returned, Except.toOption] at found
  | ok host => exact ⟨host, rfl, by simpa [returned, Except.toOption] using found⟩

theorem SetUp.named {links : List (List Port)} (setUp : net.SetUp links) (found : net.hosts name = some host) :
    net.host name = .ok host := by
  obtain ⟨_, _, _, rfl⟩ := setUp.hosts name host found
  exact host_ok found rfl

theorem SetUp.fresh {links : List (List Port)} (setUp : net.SetUp links) (found : net.interface port = some i) :
    ∃ eth ip, i = .new eth ip := by
  cases port with
  | router n => exact setUp.router i (List.mem_of_getElem? found)
  | host name =>
    obtain ⟨host, returned, rfl⟩ := of_interface_host found
    obtain ⟨eth, ip, hop, rfl⟩ := setUp.hosts name host (host_of_ok returned).1
    exact ⟨eth, ip, rfl⟩

/-- A host is put back as the one it was. -/
theorem replaced_host (returned : net.host name = .ok host) (same : after.identity = host.identity) :
    Replaced net (.host name) after.interface
      { net with hosts := Function.update net.hosts name (some after) } := by
  obtain ⟨found, named⟩ := host_of_ok returned
  have named' : after.name = name := (congrArg Prod.fst same).trans named
  refine ⟨⟨rfl, rfl, fun other => ?_⟩, interface_host (host_ok (by simp) named'), fun q other => ?_⟩
  · by_cases here : other = name
    · subst here
      simp [found, same]
    · simp [here]
  · cases q with
    | router n => rfl
    | host q =>
      have distinct : q ≠ name := fun eq => other (congrArg Port.host eq)
      simp [Network.interface, Network.host, distinct]

theorem sameExpectations_host (returned : net.host name = .ok host)
    (same : after.expectingToReceive = host.expectingToReceive) :
    SameExpectations net { net with hosts := Function.update net.hosts name (some after) } := by
  intro other
  by_cases here : other = name
  · subst here
    simp [(host_of_ok returned).1, same]
  · simp [here]

/-- A call on the interface at a port that exists. -/
theorem onPort_outcome {call : AsyncNetworkInterface → Except String AsyncNetworkInterface}
    {Q : AsyncNetworkInterface → Prop} (found : net.interface port = some i)
    (outcome : Outcome (call i) Q blame) :
    Outcome (net.onPort call port) (fun t => ∃ j, Q j ∧ Replaced net port j t ∧ SameExpectations net t) blame := by
  cases port with
  | router n =>
    have place : net.router.interfaces[n]? = some i := found
    obtain ⟨inside, _⟩ := List.getElem?_eq_some_iff.mp place
    simp only [onPort, Router.onInterface, place]
    cases eq : call i with
    | error message =>
      rw [eq] at outcome
      exact outcome
    | ok j =>
      refine ⟨j, outcome.of_ok eq, ⟨⟨rfl, List.length_set, fun _ => rfl⟩, ?_, fun q other => ?_⟩, fun _ => rfl⟩
      · simp [Network.interface, List.getElem?_set_self inside]
      · cases q with
        | router m =>
          have distinct : n ≠ m := fun eq => other (congrArg Port.router eq.symm)
          simp [Network.interface, List.getElem?_set_ne distinct]
        | host q => rfl
  | host name =>
    obtain ⟨host, returned, rfl⟩ := of_interface_host found
    simp only [onPort, onHost, returned]
    cases eq : call host.interface with
    | error message =>
      rw [eq] at outcome
      simp only [bind, Except.bind, eq]
      exact outcome
    | ok j =>
      simp only [bind, Except.bind, eq]
      exact ⟨j, outcome.of_ok eq, @replaced_host net name host { host with interface := j } returned rfl,
        sameExpectations_host returned rfl⟩

/-- The router's own call is one on an interface. -/
theorem onPort_sendDatagram {call : SendCall} (valid : call.interfaceNum < net.router.interfaces.length) :
    net.onPort (fun i => i.sendDatagram call.dgram call.nextHop) (.router call.interfaceNum) =
      (do let r ← net.router.sendDatagram call
          return { net with router := r }) := by
  simp only [onPort, Router.onInterface, Router.sendDatagram, List.getElem?_eq_getElem valid]

theorem onHost_outcome {call : Host → Except String Host} {Q : Host → Prop} (returned : net.host name = .ok host)
    (outcome : Outcome (call host) Q blame) :
    Outcome (net.onHost name call) (fun t => ∃ after, Q after ∧
      t = { net with hosts := Function.update net.hosts name (some after) }) blame := by
  simp only [onHost, returned]
  cases eq : call host with
  | error message =>
    rw [eq] at outcome
    simp only [bind, Except.bind, eq]
    exact outcome
  | ok after =>
    simp only [bind, Except.bind, eq]
    exact ⟨after, outcome.of_ok eq, rfl⟩

end Network

namespace Alike

variable {net t u : Network} {port : Port} {i : AsyncNetworkInterface} {name : String} {host : Host}

theorem refl (net : Network) : Alike net net := ⟨rfl, rfl, fun _ => rfl⟩

theorem trans (first : Alike net t) (second : Alike t u) : Alike net u where
  table := second.table.trans first.table
  count := second.count.trans first.count
  hosts name := (second.hosts name).trans (first.hosts name)

/-- The hosts stay. -/
theorem stays (alike : Alike net t) (returned : net.host name = .ok host) :
    ∃ after, t.host name = .ok after ∧ after.identity = host.identity := by
  obtain ⟨found, named⟩ := Network.host_of_ok returned
  have same := alike.hosts name
  rw [found, Option.map_some] at same
  obtain ⟨after, stored, identity⟩ := Option.map_eq_some_iff.mp same
  exact ⟨after, Network.host_ok stored ((congrArg Prod.fst identity).trans named), identity⟩

/-- The ports stay. -/
theorem interface (alike : Alike net t) (found : net.interface port = some i) :
    ∃ j, t.interface port = some j := by
  cases port with
  | router n =>
    have place : net.router.interfaces[n]? = some i := found
    have inside := (List.getElem?_eq_some_iff.mp place).1
    rw [← alike.count] at inside
    exact ⟨_, List.getElem?_eq_getElem inside⟩
  | host name =>
    obtain ⟨host, returned, _⟩ := Network.of_interface_host found
    obtain ⟨after, stays, _⟩ := alike.stays returned
    exact ⟨_, Network.interface_host stays⟩

end Alike

/-! ### The invariant -/

section
variable (base : Network) (links : List (List Port))

/-- The interface at a port owes nothing and holds nothing but what came there. -/
structure Keeps (sent : List (String × IPv4Datagram)) (port : Port) (i : AsyncNetworkInterface) : Prop where
  ledger : ∃ eth ip, base.mac port = some eth ∧ base.ip port = some ip ∧
    Ledger (Due base links sent port) (Known base links port) eth ip i.toNetworkInterface
  received : ∀ d ∈ i.datagramsOut, ∃ name o hops, Arrives base links sent name o hops port d

structure Inv (s : Session) : Prop where
  alike : Alike base s.net
  sent : ∀ name dgram, (name, dgram) ∈ s.sent → SentBy base name dgram
  ports : ∀ port i, s.net.interface port = some i → Keeps base links s.sent port i

end

variable {base : Network} {links : List (List Port)} {sent more : List (String × IPv4Datagram)} {s : Session}
  {port : Port} {hop : UInt32} {dgram d o : IPv4Datagram} {i j : AsyncNetworkInterface} {name : String} {hops : Nat}

theorem Routed.mono (grows : sent ⊆ more) (routed : Routed base links sent name o hops port hop dgram) :
    Routed base links more name o hops port hop dgram := by
  induction routed with
  | sent member found => exact .sent (grows member) found
  | forwarded _ linked here decided ih => exact .forwarded ih linked here decided

theorem Due.mono (grows : sent ⊆ more) (due : Due base links sent port hop dgram) :
    Due base links more port hop dgram := by
  obtain ⟨name, o, hops, routed⟩ := due
  exact ⟨name, o, hops, routed.mono grows⟩

theorem Arrives.mono (grows : sent ⊆ more) (arrives : Arrives base links sent name o hops port d) :
    Arrives base links more name o hops port d := by
  obtain ⟨src, hop, dgram, routed, rest⟩ := arrives
  exact ⟨src, hop, dgram, routed.mono grows, rest⟩

theorem Keeps.mono (grows : sent ⊆ more) (keeps : Keeps base links sent port i) : Keeps base links more port i where
  ledger := by
    obtain ⟨eth, ip, mac, here, ledger⟩ := keeps.ledger
    exact ⟨eth, ip, mac, here, ledger.mono fun _ _ => Due.mono grows⟩
  received d member := by
    obtain ⟨name, o, hops, arrives⟩ := keeps.received d member
    exact ⟨name, o, hops, arrives.mono grows⟩

/-- Whatever is due is whole, by induction on the way it came. -/
theorem Routed.whole (honest : ∀ name dgram, (name, dgram) ∈ sent → SentBy base name dgram)
    (routed : Routed base links sent name o hops port hop dgram) : dgram.Whole := by
  induction routed with
  | sent member _ =>
    obtain ⟨host, destination, payload, ttl, _, fits, rfl⟩ := honest _ _ member
    exact host.datagram_whole fits destination ttl
  | forwarded _ _ _ decided ih => exact ih.received.forward decided

/-- `d` is `o` after `hops` routers: older, with another checksum, and with the
payload in other pieces. -/
structure Aged (o : IPv4Datagram) (hops : Nat) (d : IPv4Datagram) : Prop where
  header : d.header = { o.header with ttl := d.header.ttl, cksum := d.header.cksum }
  ttl : d.header.ttl.toNat + hops = o.header.ttl.toNat
  alive : hops = 0 ∨ 0 < d.header.ttl.toNat
  payload : d.payload.concatenate = o.payload.concatenate

theorem Aged.received (aged : Aged o hops d) (offset : o.header.offset = 0) :
    Aged o hops d.received where
  header := by
    have none : d.header.offset &&& 0x1fff = o.header.offset := by
      rw [aged.header, offset]
      rfl
    rw [IPv4Datagram.received, none, IPv4Datagram.headerOut, aged.header]
  ttl := aged.ttl
  alive := aged.alive
  payload := BufferList.concatenate_singleton _ |>.trans aged.payload

/-- One router more. -/
theorem Aged.forwarded (aged : Aged o hops d) (alive : 2 ≤ d.header.ttl.toNat) :
    Aged o (hops + 1) { d with header := { d.header with ttl := d.header.ttl - 1 } } := by
  have le : (1 : UInt8) ≤ d.header.ttl := by
    rw [UInt8.le_iff_toNat_le, show (1 : UInt8).toNat = 1 from rfl]
    omega
  have less : (d.header.ttl - 1).toNat = d.header.ttl.toNat - 1 := UInt8.toNat_sub_of_le _ _ le
  have ttl := aged.ttl
  refine ⟨by rw [aged.header], ?_, ?_, aged.payload⟩
  · change (d.header.ttl - 1).toNat + (hops + 1) = _
    omega
  · exact .inr (by change 0 < (d.header.ttl - 1).toNat; omega)

/-- What has been routed is a datagram of a host, older by the routers passed. -/
theorem Routed.aged (honest : ∀ name dgram, (name, dgram) ∈ sent → SentBy base name dgram)
    (routed : Routed base links sent name o hops port hop dgram) :
    (name, o) ∈ sent ∧ SentBy base name o ∧ Aged o hops dgram := by
  induction routed with
  | sent member _ => exact ⟨member, honest _ _ member, rfl, Nat.add_zero _, .inl rfl, rfl⟩
  | forwarded _ _ _ decided ih =>
    obtain ⟨member, by_host, aged⟩ := ih
    obtain ⟨host, destination, payload, ttl, _, _, eq⟩ := id by_host
    have before := aged.received (eq ▸ rfl)
    obtain ⟨alive, older⟩ := IPv4Datagram.forward_dgram decided
    exact ⟨member, by_host, older ▸ before.forwarded alive⟩

namespace Inv

theorem wellFormed (inv : Inv base links s) (port : Port) :
    ∀ hop dgram, Due base links s.sent port hop dgram → dgram.WellFormed :=
  fun _ _ ⟨_, _, _, routed⟩ => (routed.whole inv.sent).wellFormed

theorem replaced (inv : Inv base links s) {t : Network} (replaced : Replaced s.net port j t)
    (keeps : Keeps base links s.sent port j) : Inv base links { s with net := t } where
  alike := inv.alike.trans replaced.alike
  sent := inv.sent
  ports q i found := by
    by_cases here : q = port
    · subst here
      obtain rfl := Option.some.inj (replaced.here.symm.trans found)
      exact keeps
    · exact inv.ports q i ((replaced.others q here).symm.trans found)

/-- One call on the interface at one port. -/
theorem onPort (inv : Inv base links s) {call : AsyncNetworkInterface → Except String AsyncNetworkInterface}
    (found : base.interface port = some i)
    (keep : ∀ i, Keeps base links s.sent port i → Outcome (call i) (Keeps base links s.sent port) False) :
    Outcome (s.net.onPort call port) (fun t => Inv base links { s with net := t }) False := by
  obtain ⟨now, place⟩ := inv.alike.interface found
  refine (Network.onPort_outcome place (keep now (inv.ports port now place))).weaken ?_
  rintro t ⟨j, keeps, replaced, _⟩
  exact inv.replaced replaced keeps

/-- A frame has left the interface at a port. -/
def Leaves (base : Network) (links : List (List Port)) (sent : List (String × IPv4Datagram)) (port : Port)
    (frame : EthernetFrame) : Prop :=
  ∃ eth ip, base.mac port = some eth ∧ base.ip port = some ip ∧
    Emitted (Due base links sent port) (Known base links port) eth ip frame

theorem leaves (inv : Inv base links s) {port : Port} {frame : EthernetFrame}
    (member : frame ∈ s.net.framesOut port) : Leaves base links s.sent port frame := by
  unfold Network.framesOut at member
  cases found : s.net.interface port with
  | none => simp [found] at member
  | some i =>
    obtain ⟨eth, ip, mac, here, ledger⟩ := (inv.ports port i found).ledger
    exact ⟨eth, ip, mac, here, ledger.frames frame (by simpa [found] using member)⟩

/-- A frame that crosses a connection. Only the neighbour it is addressed to takes
a datagram from it, and that one has the address of the next hop. -/
theorem recvFrame (inv : Inv base links s) (setUp : base.SetUp links) {src : Port} (linked : Linked links src port)
    {frame : EthernetFrame} (leaves : Leaves base links s.sent src frame)
    (keeps : Keeps base links s.sent port i) :
    Outcome (i.recvFrame (Network.onWire frame)) (Keeps base links s.sent port) False := by
  obtain ⟨eth, ip, mac, here, emitted⟩ := leaves
  obtain ⟨ethHere, ipHere, macHere, ipEq, ledger⟩ := keeps.ledger
  have honest : ∀ arp, i.accepted (Network.onWire frame) = some arp →
      Known base links port arp.senderIPAddress arp.senderEthernetAddress := by
    intro arp heard
    rcases emitted with announces | ⟨hop, target, dgram, _, _, rfl⟩
    · obtain ⟨rfl, rfl⟩ := announces.accepted (by rfl) (by rfl) heard
      exact ⟨src, linked.symm, here, mac⟩
    · simp [accepted, Network.onWire, ipv4Frame, EthernetHeader.typeIPv4, EthernetHeader.typeARP] at heard
  have outcome := ledger.recvFrame (inv.wellFormed port) honest
  obtain ⟨⟨handedUp, base'⟩, eq, after⟩ := outcome.returns (by simp [Network.onWire, BufferList.toBuffer])
  rw [AsyncNetworkInterface.recvFrame, eq]
  refine ⟨⟨ethHere, ipHere, macHere, ipEq, after⟩, ?_⟩
  intro d member
  rcases List.mem_append.mp member with old | new
  · exact keeps.received d old
  obtain rfl := Option.mem_toList.mp new
  obtain ⟨_, addressed, type, buffer, single, parsed⟩ := recvFrame_some eq
  rcases emitted with ⟨_, _, _, _, _, rfl⟩ |
    ⟨hop, target, dgram, ⟨name, o, hops, routed⟩, ⟨q, neighbour, ipNext, macNext⟩, rfl⟩
  · simp [Network.onWire, EthernetHeader.typeIPv4, EthernetHeader.typeARP] at type
  have own : base.mac q = base.mac port := by
    rcases addressed with mine | all
    · rw [macNext, macHere, ← ledger.ethernetAddress]
      exact congrArg some mine
    · exact absurd (macNext.trans (congrArg some all)) (setUp.unicast q)
  obtain rfl := setUp.apart src q port neighbour linked own
  refine ⟨name, o, hops, src, hop, dgram, routed, linked, ipNext, ?_⟩
  have whole := routed.whole inv.sent
  have read := IPv4Datagram.parse_serialized whole.wellFormed whole.len {}
  obtain rfl : dgram.headerOut.bytes ++ dgram.payload.concatenate = buffer := by
    simpa [Network.onWire, ipv4Frame, BufferList.toBuffer, BufferList.concatenate_cons] using single
  rw [read] at parsed
  exact (congrArg Prod.snd parsed).symm

theorem deliver (inv : Inv base links s) (setUp : base.SetUp links) {src dst : Port} (linked : Linked links src dst)
    {frames : List EthernetFrame} (left : ∀ frame ∈ frames, Leaves base links s.sent src frame) :
    Outcome (s.net.deliver frames dst) (fun t => Inv base links { s with net := t }) False := by
  obtain ⟨_, ports, member, _, here⟩ := id linked
  obtain ⟨i, found⟩ := setUp.ports ports member dst here
  refine Outcome.foldlM (fun net frame crosses kept => ?_) inv
  exact kept.onPort found fun i keeps => kept.recvFrame setUp linked (left frame crosses) keeps

theorem clear (inv : Inv base links s) (found : base.interface port = some i) (n : Nat) :
    Outcome (s.net.clear n port) (fun t => Inv base links { s with net := t }) False := by
  refine inv.onPort found fun i keeps => ?_
  obtain ⟨eth, ip, mac, here, ledger⟩ := keeps.ledger
  exact ⟨⟨eth, ip, mac, here,
    { ledger with frames := fun frame member => ledger.frames frame (List.mem_of_mem_drop member) }⟩, keeps.received⟩

theorem tick (inv : Inv base links s) (found : base.interface port = some i) (ms : Nat) :
    Outcome (s.net.onPort (fun i => .ok (i.tick ms)) port) (fun t => Inv base links { s with net := t }) False := by
  refine inv.onPort found fun i keeps => ?_
  obtain ⟨eth, ip, mac, here, ledger⟩ := keeps.ledger
  exact ⟨⟨eth, ip, mac, here, ledger.tick ms⟩, keeps.received⟩

/-- Every interface on a connection is given what the others had emitted. -/
theorem exchangeFrames (inv : Inv base links s) (setUp : base.SetUp links) {ports : List Port}
    (connected : ports ∈ links) :
    Outcome (s.net.exchangeFrames ports) (fun t => Inv base links { s with net := t }) False := by
  have given : ∀ src frames, (src, frames) ∈ (ports.map fun port => (port, s.net.framesOut port)) →
      src ∈ ports ∧ ∀ frame ∈ frames, Leaves base links s.sent src frame := by
    intro src frames member
    obtain ⟨port, here, eq⟩ := List.mem_map.mp member
    cases eq
    exact ⟨here, fun frame => inv.leaves⟩
  have hear : ∀ net, ∀ queue ∈ ports.map fun port => (port, s.net.framesOut port),
      Inv base links { s with net := net } →
      Outcome ((ports.filter (· ≠ queue.1)).foldlM (fun net dst => net.deliver queue.2 dst) net)
        (fun t => Inv base links { s with net := t }) False := by
    rintro net ⟨src, frames⟩ member kept
    obtain ⟨here, left⟩ := given src frames member
    refine Outcome.foldlM (fun net dst other kept => ?_) kept
    obtain ⟨there, distinct⟩ := List.mem_filter.mp other
    exact kept.deliver setUp ⟨Ne.symm (by simpa using distinct), ports, connected, here, there⟩ left
  refine (Outcome.foldlM hear inv).bind fun net kept => Outcome.foldlM (fun net queue member kept => ?_) kept
  obtain ⟨i, found⟩ := setUp.ports ports connected queue.1 (given queue.1 queue.2 member).1
  exact kept.clear found queue.2.length

/-- One more datagram is sent. -/
theorem extend (inv : Inv base links s) {name : String} (honest : SentBy base name dgram) :
    Inv base links { s with sent := s.sent ++ [(name, dgram)] } where
  alike := inv.alike
  sent other d member := by
    rcases List.mem_append.mp member with old | new
    · exact inv.sent other d old
    · cases List.mem_singleton.mp new
      exact honest
  ports port i found := (inv.ports port i found).mono (List.subset_append_left _ _)

theorem sendTo (inv : Inv base links s) {name : String} {host : Host} (found : base.host name = .ok host)
    {payload : Buffer} (fits : payload.length ≤ 65515) (destination : UInt32) (ttl : UInt8) :
    Outcome (s.apply (.sendTo name destination payload ttl)) (Inv base links) False := by
  obtain ⟨now, returned, same⟩ := inv.alike.stays found
  have nextHop : now.nextHop = host.nextHop := congrArg (fun identity => identity.2.2) same
  have place := Network.interface_host returned
  have honest : SentBy base name (now.datagram destination payload ttl) := by
    have address : now.myAddress = host.myAddress := congrArg (fun identity => identity.2.1) same
    exact ⟨host, destination, payload, ttl, (Network.host_of_ok found).1, fits, by simp only [Host.datagram, address]⟩
  have more := inv.extend honest
  have due : Due base links (s.sent ++ [(name, now.datagram destination payload ttl)]) (.host name) now.nextHop
      (now.datagram destination payload ttl) := by
    rw [nextHop]
    exact ⟨name, _, 0, .sent (by simp) (Network.host_of_ok found).1⟩
  obtain ⟨eth, ip, mac, here, ledger⟩ := (more.ports _ _ place).ledger
  obtain ⟨i, eq, sent⟩ := (ledger.sendDatagram (more.wellFormed _) due).returns id
  have after : Keeps base links (s.sent ++ [(name, now.datagram destination payload ttl)]) (.host name)
      { now.interface with toNetworkInterface := i } :=
    ⟨⟨eth, ip, mac, here, sent⟩, (more.ports _ _ place).received⟩
  simp only [Session.apply, Network.sendTo, returned, Host.sendTo, AsyncNetworkInterface.sendDatagram, bind, Except.bind, eq]
  exact more.replaced (Network.replaced_host returned rfl) after

/-- A host changes nothing but what it expects and what it has received. -/
theorem onHost (inv : Inv base links s) {name : String} {host : Host} (found : base.host name = .ok host)
    {call : Host → Except String Host} {blame : Prop}
    (keep : ∀ h : Host, Outcome (call h) (fun after => after.identity = h.identity ∧
      after.interface.toNetworkInterface = h.interface.toNetworkInterface ∧
      after.interface.datagramsOut ⊆ h.interface.datagramsOut) blame) :
    Outcome (s.net.onHost name call) (fun t => Inv base links { s with net := t }) blame := by
  obtain ⟨now, returned, _⟩ := inv.alike.stays found
  refine (Network.onHost_outcome returned (keep now)).weaken ?_
  rintro t ⟨after, ⟨same, unchanged, fewer⟩, rfl⟩
  have keeps := inv.ports _ _ (Network.interface_host returned)
  refine inv.replaced (Network.replaced_host returned same) ⟨?_, fun d member => keeps.received d (fewer member)⟩
  rw [unchanged]
  exact keeps.ledger

theorem check (inv : Inv base links s) {name : String} {host : Host} (found : base.host name = .ok host) :
    Outcome (s.net.onHost name Host.check) (fun t => Inv base links { s with net := t }) True :=
  inv.onHost found fun h => Outcome.of_forall fun after checked => by
    rw [Host.check_frame checked]
    exact ⟨rfl, rfl, List.nil_subset _⟩

theorem expect (inv : Inv base links s) {name : String} {host : Host} (found : base.host name = .ok host)
    (expected : IPv4Datagram) :
    Outcome (s.net.onHost name fun host => .ok (host.expect expected))
      (fun t => Inv base links { s with net := t }) False :=
  inv.onHost found fun _ => ⟨rfl, rfl, List.Subset.refl _⟩

/-- The router sends one datagram, which is due. -/
theorem sendDatagram (inv : Inv base links s) {call : SendCall}
    (valid : call.interfaceNum < base.router.interfaces.length)
    (due : Due base links s.sent (.router call.interfaceNum) call.nextHop call.dgram) :
    ∃ r, s.net.router.sendDatagram call = .ok r ∧ Inv base links { s with net := { s.net with router := r } } := by
  have found : base.interface (.router call.interfaceNum) = some _ := List.getElem?_eq_getElem valid
  have sent : Outcome (s.net.onPort (fun i => i.sendDatagram call.dgram call.nextHop) (.router call.interfaceNum))
      (fun t => Inv base links { s with net := t }) False := by
    refine inv.onPort found fun i keeps => ?_
    obtain ⟨eth, ip, mac, here, ledger⟩ := keeps.ledger
    obtain ⟨t, eq, kept⟩ := (ledger.sendDatagram (inv.wellFormed _) due).returns id
    rw [AsyncNetworkInterface.sendDatagram, eq]
    exact ⟨⟨eth, ip, mac, here, kept⟩, keeps.received⟩
  obtain ⟨t, eq, kept⟩ := sent.returns id
  rw [← inv.alike.count] at valid
  rw [Network.onPort_sendDatagram valid] at eq
  obtain ⟨r, returned, same⟩ := Run.bind_eq_ok.mp eq
  obtain rfl := Except.ok.inj same
  exact ⟨r, returned, kept⟩

/-- The router takes the first datagram of a queue away. -/
theorem pop (inv : Inv base links s) (n : Nat) :
    Inv base links { s with net := { s.net with router := s.net.router.pop n } } where
  alike := inv.alike.trans ⟨rfl, List.length_modify _ _ _, fun _ => rfl⟩
  sent := inv.sent
  ports port i found := by
    cases port with
    | host name => exact inv.ports (.host name) i found
    | router m =>
      change (s.net.router.interfaces.modify n _)[m]? = some i at found
      rw [List.getElem?_modify] at found
      obtain ⟨old, place, rfl⟩ := Option.map_eq_some_iff.mp found
      have keeps := inv.ports (.router m) old place
      split
      · exact ⟨keeps.ledger, fun d member => keeps.received d (List.mem_of_mem_tail member)⟩
      · exact keeps

/-- The router forwards what waits: each datagram goes where it is due. -/
theorem forwards (setUp : base.SetUp links) (s : Session) :
    Router.Forwards fun r => Inv base links { s with net := { s.net with router := r } } := by
  intro r n front rest inv waiting
  have routed : ∃ calls t, r.routeOneDatagram front = .ok (calls, t) ∧
      Inv base links { s with net := { s.net with router := t } } := by
    unfold Router.routeOneDatagram
    cases decided : Router.forward r.routingTable front with
    | none => exact ⟨[], r, rfl, inv⟩
    | some call =>
      have arrived : ∃ name o hops, Arrives base links s.sent name o hops (.router n) front := by
        cases place : r.interfaces[n]? with
        | none => simp [Router.queue, place] at waiting
        | some i => exact (inv.ports (.router n) i place).received front (by
            simpa [Router.queue, place] using List.mem_of_mem_head? (congrArg List.head? waiting))
      obtain ⟨name, o, hops, src, hop, dgram, routed, linked, here, rfl⟩ := arrived
      have table : r.routingTable = base.router.routingTable := inv.alike.table
      rw [table] at decided
      obtain ⟨t, sent, kept⟩ := inv.sendDatagram (Router.forward_some setUp.table decided).1
        ⟨name, o, hops + 1, .forwarded routed linked here decided⟩
      have returned : r.sendDatagram call = .ok t := sent
      exact ⟨[call], t, by simp only [returned]; rfl, kept⟩
  obtain ⟨calls, t, eq, kept⟩ := routed
  exact ⟨calls, t, eq, kept.pop n⟩

theorem route (inv : Inv base links s) (setUp : base.SetUp links) :
    Outcome s.net.route (fun t => Inv base links { s with net := t }) False := by
  obtain ⟨t, eq, kept, _⟩ := (forwards setUp s).route inv
  rw [Network.route, eq]
  exact kept

theorem start (setUp : base.SetUp links) : Inv base links { net := base } where
  alike := .refl base
  sent := by simp
  ports port i found := by
    obtain ⟨eth, ip, rfl⟩ := setUp.fresh found
    exact ⟨⟨eth, ip, by simp [Network.mac, found, AsyncNetworkInterface.new, NetworkInterface.new],
      by simp [Network.ip, found, AsyncNetworkInterface.new, NetworkInterface.new], ledger_new eth ip⟩,
      fun d none => by cases none⟩

/-- One operation; only a check throws. -/
theorem apply (inv : Inv base links s) (setUp : base.SetUp links) {op : Op} (allowed : Allowed base links op) :
    Outcome (s.apply op) (Inv base links) (∃ name, op = .check name) := by
  cases op with
  | sendTo name destination payload ttl =>
    obtain ⟨⟨host, found⟩, fits⟩ := allowed
    exact (inv.sendTo (setUp.named found) fits destination ttl).mono (fun _ => id) False.elim
  | expect name expected =>
    obtain ⟨host, found⟩ := allowed
    exact Outcome.bind ((inv.expect (setUp.named found) expected).mono (fun _ => id) False.elim) fun t kept => kept
  | check name =>
    obtain ⟨host, found⟩ := allowed
    exact Outcome.bind ((inv.check (setUp.named found)).mono (fun _ => id) fun _ => ⟨name, rfl⟩) fun t kept => kept
  | tick port ms =>
    obtain ⟨i, found⟩ := allowed
    exact Outcome.bind ((inv.tick found ms).mono (fun _ => id) False.elim) fun t kept => kept
  | route => exact Outcome.bind ((inv.route setUp).mono (fun _ => id) False.elim) fun t kept => kept
  | exchangeFrames ports =>
    exact Outcome.bind ((inv.exchangeFrames setUp allowed).mono (fun _ => id) False.elim) fun t kept => kept
  | transfer src place dst =>
    have left : ∀ frame ∈ (s.net.framesOut src)[place]?.toList, Leaves base links s.sent src frame :=
      fun frame member => inv.leaves (List.mem_of_getElem? (Option.mem_toList.mp member))
    exact Outcome.bind ((inv.deliver setUp allowed left).mono (fun _ => id) False.elim) fun t kept => kept
  | clear n port =>
    obtain ⟨i, found⟩ := allowed
    exact Outcome.bind ((inv.clear found n).mono (fun _ => id) False.elim) fun t kept => kept

end Inv

/-- The invariant of every run. -/
theorem Runs.inv (setUp : base.SetUp links) (run : Runs base links s) : Inv base links s :=
  Run.Attains.invariant run (Inv.start setUp) fun _ _ _ kept allowed eq => (kept.apply setUp allowed).of_ok eq

theorem Inv.connections (inv : Inv base links s) (setUp : base.SetUp links) :
    Outcome (s.net.simulatePhysicalConnections links) (fun t => Inv base links { s with net := t }) False :=
  Outcome.foldlM (fun _ _ connected kept => kept.exchangeFrames setUp connected) inv

/-- The loop of `simulate`. -/
theorem Inv.turns (inv : Inv base links s) (setUp : base.SetUp links) (n : Nat) :
    Outcome (Network.turns links n s.net) (fun t => Inv base links { s with net := t }) False := by
  induction n generalizing s with
  | zero => exact inv
  | succ n ih =>
    have turned : Outcome (s.net.turn links) (fun t => Inv base links { s with net := t }) False :=
      (inv.route setUp).bind fun net kept => kept.connections setUp
    exact turned.bind fun net kept => ih kept

/-- The network of the source, with some addresses for the random ones. -/
def sourceNetwork : Network :=
  .new (fun n => .repeated (UInt8.ofNat n)) (fun name => .repeated (if name = "dm43" then 0x22 else 0x20))

theorem sourceNetwork_setUp : sourceNetwork.SetUp physicalConnections where
  router := by simp [sourceNetwork, Network.new]
  hosts name host found := by
    obtain ⟨⟨address, hop⟩, _, rfl⟩ := Option.map_eq_some_iff.mp found
    exact ⟨_, _, _, rfl⟩
  table := ⟨by decide, by decide⟩
  ports ports member port here := by
    have exist : ∀ ports ∈ physicalConnections, ∀ port ∈ ports, (sourceNetwork.interface port).isSome = true := by
      decide +kernel
    exact Option.isSome_iff_exists.mp (exist ports member port here)
  apart := apart_of_nodup (by decide) (by decide +kernel)
  unicast port all := by
    obtain ⟨i, found, eq⟩ := Option.map_eq_some_iff.mp all
    cases port with
    | router n =>
      have router : ∀ i ∈ sourceNetwork.router.interfaces, i.ethernetAddress ≠ .broadcast := by decide +kernel
      exact router i (List.mem_of_getElem? found) eq
    | host name =>
      obtain ⟨host, returned, rfl⟩ := Network.of_interface_host found
      obtain ⟨_, _, rfl⟩ := Option.map_eq_some_iff.mp (Network.host_of_ok returned).1
      change EthernetAddress.repeated (if name = "dm43" then 0x22 else 0x20) = .broadcast at eq
      split at eq <;> exact absurd eq (by decide)

/-- A datagram of one host comes to the router: the request, the answer, the datagram. -/
def toRouter : List Op :=
  .sendTo "applesauce" (ip 192 168 0 2) [7] Host.defaultTTL ::
    List.replicate 3 (.exchangeFrames [.router eth0Id, .host "applesauce"])

theorem toRouter_runs : ∃ s i entry, Runs sourceNetwork physicalConnections s ∧
    s.net.interface (.router eth0Id) = some i ∧ i.cache (ip 10 0 0 2) = some entry := by
  have shows : ((toRouter.foldlM Session.apply { net := sourceNetwork }).toOption.bind fun s =>
      (s.net.interface (.router eth0Id)).map fun i => (i.cache (ip 10 0 0 2)).isSome) = some true := by
    decide +kernel
  obtain ⟨s, returned, shows⟩ := Option.bind_eq_some_iff.mp shows
  obtain ⟨i, found, known⟩ := Option.map_eq_some_iff.mp shows
  obtain ⟨entry, cached⟩ := Option.isSome_iff_exists.mp known
  refine ⟨s, i, entry, Run.Attains.of_foldlM ?_ (Run.toOption_eq_some.mp returned), found, cached⟩
  simp only [toRouter, List.mem_cons, List.mem_replicate]
  rintro _ op (rfl | ⟨_, rfl⟩)
  · exact ⟨⟨_, rfl⟩, by decide⟩
  · simp [Allowed, physicalConnections]

/-- In every run of a network no operation throws but the check of a host, and the
loop of the simulator can be entered at any time and ends. -/
theorem run_never_throws (setUp : base.SetUp links) (run : Runs base links s) :
    (∀ op, Allowed base links op → (∀ name, op ≠ .check name) → ∃ t, s.apply op = .ok t) ∧
      ∀ n, ∃ net, Network.turns links n s.net = .ok net := by
  have inv := run.inv setUp
  refine ⟨fun op allowed quiet => ?_, fun n => ?_⟩
  · obtain ⟨t, eq, _⟩ := (inv.apply setUp allowed).returns (by simpa using quiet)
    exact ⟨t, eq⟩
  · obtain ⟨net, eq, _⟩ := (inv.turns setUp n).returns id
    exact ⟨net, eq⟩

theorem run_never_throws_toRouter :
    ∃ s, Runs sourceNetwork physicalConnections s ∧
      (∀ op, Allowed sourceNetwork physicalConnections op → (∀ name, op ≠ .check name) → ∃ t, s.apply op = .ok t) ∧
        ∀ n, ∃ net, Network.turns physicalConnections n s.net = .ok net := by
  obtain ⟨s, _, _, run, _⟩ := toRouter_runs
  exact ⟨s, run, run_never_throws sourceNetwork_setUp run⟩

/-- No cache ever lies: what an interface knows are both addresses of one of its
neighbours. -/
theorem run_cache_true (setUp : base.SetUp links) (run : Runs base links s) (found : s.net.interface port = some i)
    {entry : EthernetAddressEntry} (cached : i.cache hop = some entry) :
    ∃ q, Linked links port q ∧ base.ip q = some hop ∧ base.mac q = some entry.macAddress := by
  obtain ⟨_, _, _, _, ledger⟩ := ((run.inv setUp).ports port i found).ledger
  exact ledger.cache hop entry cached

theorem run_cache_true_toRouter :
    ∃ s i entry, Runs sourceNetwork physicalConnections s ∧ s.net.interface (.router eth0Id) = some i ∧
      i.cache (ip 10 0 0 2) = some entry ∧
      ∃ q, Linked physicalConnections (.router eth0Id) q ∧ sourceNetwork.ip q = some (ip 10 0 0 2) ∧
        sourceNetwork.mac q = some entry.macAddress := by
  obtain ⟨s, i, entry, run, found, cached⟩ := toRouter_runs
  exact ⟨s, i, entry, run, found, cached, run_cache_true sourceNetwork_setUp run found cached⟩

/-- Whatever an interface has received, in any run, was sent by a host, and came
along the routes: the last one to send it sent it to the address of this
interface. Nothing in it has changed but its checksum and its age, which is one
less to live for each router on that way. -/
theorem run_arrives (setUp : base.SetUp links) (run : Runs base links s) (found : s.net.interface port = some i)
    (received : d ∈ i.datagramsOut) :
    ∃ name o hops, (name, o) ∈ s.sent ∧ SentBy base name o ∧
      Arrives base links s.sent name o hops port d ∧ Aged o hops d := by
  have inv := run.inv setUp
  obtain ⟨name, o, hops, arrives⟩ := (inv.ports port i found).received d received
  obtain ⟨src, hop, dgram, routed, _, _, rfl⟩ := id arrives
  obtain ⟨member, honest, aged⟩ := routed.aged inv.sent
  obtain ⟨host, destination, payload, ttl, _, _, eq⟩ := id honest
  exact ⟨name, o, hops, member, honest, arrives, aged.received (eq ▸ rfl)⟩

/-- The router forwards that datagram, and asks for the address of its host. -/
def toCherrypie : List Op :=
  toRouter ++ .route :: List.replicate 3 (.exchangeFrames [.router eth2Id, .host "cherrypie"])

/-- The datagram has passed one router. -/
theorem run_arrives_toCherrypie :
    ∃ s i d, Runs sourceNetwork physicalConnections s ∧ s.net.interface (.host "cherrypie") = some i ∧
      d ∈ i.datagramsOut ∧ d.header.ttl = 63 ∧ ∃ name o hops, (name, o) ∈ s.sent ∧ SentBy sourceNetwork name o ∧
        Arrives sourceNetwork physicalConnections s.sent name o hops (.host "cherrypie") d ∧ Aged o hops d := by
  have shows : ((toCherrypie.foldlM Session.apply { net := sourceNetwork }).toOption.bind fun s =>
      (s.net.interface (.host "cherrypie")).map fun i => i.datagramsOut.map fun d => d.header.ttl) = some [63] := by
    decide +kernel
  obtain ⟨s, returned, shows⟩ := Option.bind_eq_some_iff.mp shows
  obtain ⟨i, found, received⟩ := Option.map_eq_some_iff.mp shows
  obtain ⟨d, member, ttl⟩ := List.mem_map.mp (received ▸ List.mem_singleton_self _)
  have run : Runs sourceNetwork physicalConnections s := by
    refine Run.Attains.of_foldlM ?_ (Run.toOption_eq_some.mp returned)
    simp only [toCherrypie, toRouter, List.mem_append, List.mem_cons, List.mem_replicate]
    rintro _ op ((rfl | ⟨_, rfl⟩) | rfl | ⟨_, rfl⟩)
    · exact ⟨⟨_, rfl⟩, by decide⟩
    all_goals simp [Allowed, physicalConnections]
  exact ⟨s, i, d, run, found, member, ttl, run_arrives sourceNetwork_setUp run found member⟩

end NetworkSimulator
end Sponge
