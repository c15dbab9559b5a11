import Sponge.Router.Forwarding
import Sponge.Wire.Acceptance

/-! Runs of a router that receives arbitrary frames. `IPv4Datagram::parse` drops
the errors of the header's parser, so a frame with another version or a header
length below five words gets in, and the serialiser throws when it goes out. -/
namespace Sponge

namespace IPv4Datagram

/-- The fixed fields as they are read from data that is long enough. -/
def fields (data : Buffer) : IPv4Header := (IPv4Header.parseFields { buffer := data }).1

/-- What the parser has checked of data that it accepts. -/
theorem accepted_fields {data : Buffer} (accepted : (({} : IPv4Datagram).parse data).1 = .noError) :
    20 ≤ data.length ∧ (({} : IPv4Datagram).parse data).2.header = fields data ∧
      (({} : IPv4Datagram).parse data).2.payload.size = (fields data).payloadLength.toNat ∧
      (¬ Framed data → data.length - 20 = (fields data).payloadLength.toNat) := by
  have size : 20 ≤ data.length := by
    by_contra short
    rw [parse_short (Nat.not_le.mp short)] at accepted
    cases accepted
  have stopped : ∃ rest, (({} : IPv4Datagram).header.parse { buffer := data }).2 =
      (fields data, { buffer := rest }) ∧ (¬ Framed data → rest = data.drop 20) := by
    by_cases framed : Framed data
    · exact ⟨_, congrArg Prod.snd (IPv4Header.parse_of_framed framed _), fun broken => absurd framed broken⟩
    · exact ⟨_, IPv4Header.parse_of_not_framed size framed _, fun _ => rfl⟩
  obtain ⟨rest, header, behind⟩ := stopped
  simp only [parse, header] at accepted ⊢
  split at accepted
  · cases accepted
  rename_i fits
  rw [if_neg fits]
  have payload := not_not.mp fits
  refine ⟨size, rfl, payload, fun broken => ?_⟩
  rw [← payload, behind broken]
  simp [BufferList.size]

/-- An accepted datagram is well-formed but for its version and header length. -/
theorem accepted_wellFormed {data : Buffer} (accepted : (({} : IPv4Datagram).parse data).1 = .noError)
    (ver : (fields data).ver = 4) (hlen : 5 ≤ (fields data).hlen.toNat) :
    (({} : IPv4Datagram).parse data).2.WellFormed := by
  obtain ⟨size, header, payload, _⟩ := accepted_fields accepted
  obtain ⟨_, _, words, _⟩ := IPv4Header.parseFields_spec size
  refine ⟨by rw [header, ver], ?_, by rw [payload, header]⟩
  rw [header]
  refine ⟨hlen, ?_⟩
  have four : headerLengthField data < 16 := Nat.mod_lt _ (by decide)
  rw [fields, words]
  omega

end IPv4Datagram

namespace Router
open IPv4Datagram NetworkInterface

inductive Op where
  | recvFrame (n : Nat) (frame : EthernetFrame)
  | tick (n : Nat) (msSinceLastTick : Nat)
  | route

/-- A call on interface `n`, which `interface` looks up with `at`. -/
def onInterface (r : Router) (n : Nat) (call : AsyncNetworkInterface → Except String AsyncNetworkInterface) :
    Except String Router :=
  match r.interfaces[n]? with
  | none => .error "vector::_M_range_check"
  | some interface => do
    let interface ← call interface
    return { r with interfaces := r.interfaces.set n interface }

def apply (r : Router) : Op → Except String Router
  | .recvFrame n frame => r.onInterface n fun interface => interface.recvFrame frame
  | .tick n ms => r.onInterface n fun interface => .ok (interface.tick ms)
  | .route => r.route.map Prod.snd

def run (r : Router) (ops : List Op) : Except String Router := ops.foldlM apply r

/-- The operation is on an interface of the router, a frame in one buffer. -/
def Op.Valid (interfaces : Nat) : Op → Prop
  | .recvFrame n frame => n < interfaces ∧ ∃ data, frame.payload = [data]
  | .tick n _ => n < interfaces
  | .route => True

/-- The bytes are accepted as a datagram that the router forwards, with another
version than 4 or a header length below the fixed fields. -/
structure Poison (table : List RouteEntry) (data : Buffer) : Prop where
  size : 20 ≤ data.length
  header : (fields data).ver ≠ 4 ∨ (fields data).hlen.toNat < 5
  payload : data.length - 20 = (fields data).payloadLength.toNat
  alive : 2 ≤ (fields data).ttl.toNat
  routed : ∃ entry ∈ table, entry.Clean ∧ entry.Applies (fields data).dst

/-- The interface with one of the addresses `macs` is given such bytes, in an IPv4
frame that is for it. -/
def Poisons (table : List RouteEntry) (macs : List EthernetAddress) : Op → Prop
  | .recvFrame n frame => ∃ mac data, macs[n]? = some mac ∧
      (frame.header.dst = mac ∨ frame.header.dst = .broadcast) ∧
      frame.header.type = EthernetHeader.typeIPv4 ∧ frame.payload = [data] ∧ Poison table data
  | _ => False

def addresses (r : Router) : List EthernetAddress := r.interfaces.map fun i => i.ethernetAddress

variable {r t : Router} {table : List RouteEntry} {macs : List EthernetAddress}

/-- The interfaces have the addresses `macs`, and are sound. -/
structure AllSound (macs : List EthernetAddress) (interfaces : List AsyncNetworkInterface) : Prop where
  addresses : interfaces.map (fun i => i.ethernetAddress) = macs
  sound : ∀ i ∈ interfaces, Sound i.ethernetAddress i.toNetworkInterface

theorem AllSound.set {interfaces : List AsyncNetworkInterface} (all : AllSound macs interfaces) {n : Nat}
    {i after : AsyncNetworkInterface} (found : interfaces[n]? = some i)
    (sound : Sound i.ethernetAddress after.toNetworkInterface) : AllSound macs (interfaces.set n after) := by
  obtain ⟨inside, eq⟩ := List.getElem?_eq_some_iff.mp found
  constructor
  · have bound : n < (interfaces.map fun i => i.ethernetAddress).length := by simpa using inside
    have place : (interfaces.map fun i => i.ethernetAddress)[n] = i.ethernetAddress := by
      rw [List.getElem_map, eq]
    rw [List.map_set, sound.address, ← all.addresses, ← place, List.set_getElem_self]
  · intro other member
    rcases List.mem_or_eq_of_mem_set member with old | rfl
    · exact all.sound other old
    · exact sound.address.symm ▸ sound

/-- No call can throw: the router forwards only well-formed datagrams. -/
structure Safe (table : List RouteEntry) (macs : List EthernetAddress) (r : Router) : Prop where
  table : r.routingTable = table
  allSound : AllSound macs r.interfaces
  routable : Routable r

theorem Safe.length (safe : Safe table macs r) : r.interfaces.length = macs.length := by
  rw [← safe.allSound.addresses, List.length_map]

/-- A call on one interface keeps the router safe if it keeps the interface sound
and adds only datagrams that can be sent. -/
theorem Safe.onInterface (safe : Safe table macs r) {n : Nat} (inside : n < macs.length)
    {call : AsyncNetworkInterface → Except String AsyncNetworkInterface}
    (returns : ∀ i, macs[n]? = some i.ethernetAddress → Sound i.ethernetAddress i.toNetworkInterface →
      ∃ after received, call i = .ok after ∧ Sound i.ethernetAddress after.toNetworkInterface ∧
        after.datagramsOut = i.datagramsOut ++ received ∧
        ∀ dgram ∈ received, forward table dgram ≠ none → dgram.WellFormed) :
    ∃ t, r.onInterface n call = .ok t ∧ Safe table macs t := by
  rw [← safe.length] at inside
  have found : r.interfaces[n]? = some r.interfaces[n] := List.getElem?_eq_getElem inside
  have mac : macs[n]? = some (r.interfaces[n]).ethernetAddress := by
    rw [← safe.allSound.addresses, List.getElem?_map, found]
    rfl
  obtain ⟨after, received, eq, sound, queue, fine⟩ :=
    returns _ mac (safe.allSound.sound _ (List.getElem_mem inside))
  refine ⟨{ r with interfaces := r.interfaces.set n after }, ?_, safe.table, safe.allSound.set found sound, ?_, ?_⟩
  · simp only [Router.onInterface, found, eq, bind, Except.bind]
    rfl
  · simpa [List.length_set] using safe.routable.ready
  · intro m dgram member forwarded
    by_cases same : m = n
    · subst same
      have both : dgram ∈ r.queue m ∨ dgram ∈ received := by
        rw [queue_eq_of_lt inside, ← List.mem_append, ← queue]
        simpa [Router.queue, List.getElem?_set_self inside] using member
      rcases both with old | new
      · exact safe.routable.sendable m dgram old forwarded
      · exact fine dgram new (safe.table ▸ forwarded)
    · refine safe.routable.sendable m dgram ?_ forwarded
      simpa [Router.queue, List.getElem?_set_ne (Ne.symm same)] using member

theorem AllSound.sendDatagram (all : AllSound macs r.interfaces) {call : SendCall}
    (sent : r.sendDatagram call = .ok t) (wellFormed : call.dgram.WellFormed) : AllSound macs t.interfaces := by
  unfold Router.sendDatagram at sent
  split at sent
  · cases sent
  rename_i interface found
  obtain ⟨after, returned, eq⟩ := Run.bind_eq_ok.mp sent
  obtain ⟨base, ok, rebuilt⟩ := Run.bind_eq_ok.mp returned
  cases eq
  cases rebuilt
  obtain ⟨other, _, ok', moves⟩ :=
    (all.sound _ (List.mem_of_getElem? found)).sendDatagram wellFormed call.nextHop
  obtain rfl := Except.ok.inj (ok.symm.trans ok')
  exact all.set found moves.sound

theorem AllSound.pop (all : AllSound macs r.interfaces) (n : Nat) : AllSound macs (r.pop n).interfaces := by
  have popped : ∀ m, (r.pop n).interfaces[m]? = (r.interfaces[m]?).map fun i =>
      if n = m then { i with datagramsOut := i.datagramsOut.tail } else i := by
    intro m
    rw [Router.pop, List.getElem?_modify]
    split <;> simp
  constructor
  · rw [← all.addresses]
    refine List.ext_getElem? fun m => ?_
    rw [List.getElem?_map, List.getElem?_map, popped, Option.map_map]
    congr 1
    funext i
    dsimp only [Function.comp_apply]
    split <;> rfl
  · intro i member
    obtain ⟨m, place⟩ := List.getElem?_of_mem member
    rw [popped] at place
    obtain ⟨before, found, rfl⟩ := Option.map_eq_some_iff.mp place
    have sound := all.sound before (List.mem_of_getElem? found)
    split <;> exact sound

theorem forwards_safe : Forwards (Safe table macs) := by
  rintro r n front rest safe waiting
  obtain ⟨calls, t, routed, routable⟩ := forwards_routable r n front rest safe.routable waiting
  refine ⟨calls, t, routed, ⟨(routeOneDatagram_calls routed).2.1.trans safe.table, ?_, routable⟩⟩
  have sound : AllSound macs t.interfaces := by
    unfold routeOneDatagram at routed
    split at routed
    · cases routed
      exact safe.allSound
    · rename_i call decided
      obtain ⟨after, sent, eq⟩ := Run.bind_eq_ok.mp routed
      cases eq
      have wellFormed := safe.routable.sendable n front (by simp [waiting]) (by simp [decided])
      exact safe.allSound.sendDatagram sent ((forward_some safe.routable.ready decided).2 wellFormed)
  exact sound.pop n

/-- Bytes that are not poisonous give a datagram that can be sent, or is not. -/
theorem sendable_of_not_poison {data : Buffer} (short : ∀ entry ∈ table, entry.prefixLength.toNat ≤ 32)
    (accepted : (({} : IPv4Datagram).parse data).1 = .noError) (harmless : ¬ Poison table data)
    (forwarded : forward table (({} : IPv4Datagram).parse data).2 ≠ none) :
    (({} : IPv4Datagram).parse data).2.WellFormed := by
  obtain ⟨size, header, _, behind⟩ := accepted_fields accepted
  by_contra malformed
  have bad : (fields data).ver ≠ 4 ∨ (fields data).hlen.toNat < 5 := by
    by_contra fine
    rw [not_or, not_not, Nat.not_lt] at fine
    exact malformed (accepted_wellFormed accepted fine.1 fine.2)
  rw [forward_eq short, header] at forwarded
  split at forwarded
  · exact forwarded rfl
  rename_i alive
  rw [ne_eq, Option.map_eq_none_iff, ← ne_eq, Option.ne_none_iff_exists'] at forwarded
  obtain ⟨entry, best⟩ := forwarded
  obtain ⟨member, applies⟩ := bestRoute_mem best
  refine harmless ⟨size, bad, behind ?_, ?_, entry, List.mem_of_mem_filter member, ?_, applies⟩
  · intro framed
    obtain ⟨_, ver, hlen, _⟩ := IPv4Header.parseFields_spec size
    rcases bad with version | length
    · exact version (UInt8.toNat_inj.mp (ver.trans framed.version))
    · rw [fields, hlen] at length
      exact absurd framed.headerLength.1 (by omega)
  · rw [UInt8.le_iff_toNat_le, show (1 : UInt8).toNat = 1 from rfl] at alive
    omega
  · simpa using List.of_mem_filter member

/-- One operation: it returns, and the router stays safe. -/
theorem Safe.apply (safe : Safe table macs r) {op : Op} (valid : op.Valid macs.length)
    (harmless : ¬ Poisons table macs op) : ∃ t, r.apply op = .ok t ∧ Safe table macs t := by
  cases op with
  | tick n ms =>
    refine safe.onInterface valid fun i _ sound => ⟨i.tick ms, [], rfl, (sound.tick ms).sound, ?_, by simp⟩
    exact (List.append_nil _).symm
  | route =>
    obtain ⟨t, routed, kept, _⟩ := forwards_safe.route safe
    exact ⟨t, by rw [Router.apply, routed]; rfl, kept⟩
  | recvFrame n frame =>
    obtain ⟨inside, data, whole⟩ := valid
    refine safe.onInterface inside fun i mac sound => ?_
    obtain ⟨dgram, base, eq, kept, parsed⟩ := sound.recvFrame whole
    refine ⟨⟨base, i.datagramsOut ++ dgram.toList⟩, dgram.toList, ?_, kept, rfl, ?_⟩
    · rw [AsyncNetworkInterface.recvFrame, eq]
      rfl
    · intro d member forwarded
      obtain ⟨addressed, ipType, accepted, rfl⟩ := parsed d (Option.mem_toList.mp member)
      refine sendable_of_not_poison (safe.table ▸ safe.routable.ready.short) accepted ?_ forwarded
      exact fun poison => harmless ⟨_, data, mac, addressed, ipType, whole, poison⟩

/-- Routes that can be followed, and interfaces that hold only well-formed
datagrams, as new ones do. -/
structure SetUp (r : Router) : Prop where
  ready : ValidTable r.routingTable r.interfaces.length
  sound : ∀ i ∈ r.interfaces, Sound i.ethernetAddress i.toNetworkInterface
  wellFormed : ∀ i ∈ r.interfaces, ∀ dgram ∈ i.datagramsOut, dgram.WellFormed

theorem setUp_new {r : Router} (ready : ValidTable r.routingTable r.interfaces.length)
    (fresh : ∀ i ∈ r.interfaces, ∃ ethernetAddress ipAddress, i = .new ethernetAddress ipAddress) : SetUp r := by
  refine ⟨ready, fun i member => ?_, fun i member => ?_⟩
  · obtain ⟨ethernetAddress, ipAddress, rfl⟩ := fresh i member
    exact ⟨rfl, by simp [AsyncNetworkInterface.new, NetworkInterface.new, pending],
      by simp [AsyncNetworkInterface.new, NetworkInterface.new]⟩
  · obtain ⟨ethernetAddress, ipAddress, rfl⟩ := fresh i member
    simp [AsyncNetworkInterface.new]

theorem SetUp.safe (setUp : SetUp r) : Safe r.routingTable r.addresses r := by
  refine ⟨rfl, ⟨rfl, setUp.sound⟩, setUp.ready, fun n dgram member _ => ?_⟩
  by_cases inside : n < r.interfaces.length
  · rw [queue_eq_of_lt inside] at member
    exact setUp.wellFormed _ (List.getElem_mem inside) dgram member
  · simp [queue, List.getElem?_eq_none (Nat.not_lt.mp inside)] at member

/-- A run in which no interface is given poisonous bytes returns, and what waits
to be forwarded passes the checks of the serialiser. -/
theorem run_returns {ops : List Op} (setUp : SetUp r) (valid : ∀ op ∈ ops, op.Valid r.interfaces.length)
    (harmless : ∀ op ∈ ops, ¬ Poisons r.routingTable r.addresses op) :
    ∃ t, r.run ops = .ok t ∧
      ∀ n, ∀ dgram ∈ t.queue n, forward t.routingTable dgram ≠ none → dgram.WellFormed := by
  have length : r.addresses.length = r.interfaces.length := List.length_map _
  obtain ⟨t, eq, safe⟩ := Run.foldlM_ok
    (fun s op member safe => safe.apply (by rw [length]; exact valid op member) (harmless op member)) setUp.safe
  exact ⟨t, eq, safe.routable.sendable⟩

/-- One interface, and a route that says every network is attached to it. -/
def oneInterface : Router where
  interfaces := [.new (.repeated 2) 0x0a000002]
  routingTable := [⟨0, 0, none, 0⟩]

theorem oneInterface_setUp : SetUp oneInterface :=
  setUp_new ⟨by decide, by decide⟩ (by simp [oneInterface])

def frameOf (type : UInt16) (data : Buffer) : EthernetFrame where
  header := { dst := .broadcast, src := .repeated 4, type := type }
  payload := [data]

/-- The address of 10.0.0.1. -/
def arpReply : EthernetFrame := frameOf EthernetHeader.typeARP (ARPMessage.bytes {
  opcode := ARPMessage.opcodeReply
  senderEthernetAddress := .repeated 4
  senderIPAddress := 0x0a000001
  targetEthernetAddress := .repeated 2
  targetIPAddress := 0x0a000002 })

/-- A header without payload for 10.0.0.1, of the version `firstByte` says. -/
def headerFrame (firstByte : UInt8) : EthernetFrame := frameOf EthernetHeader.typeIPv4
  [firstByte, 0, 0, 20, 0, 0, 0x40, 0, 128, 6, 0, 0, 10, 0, 0, 2, 10, 0, 0, 1]

theorem run_returns_oneInterface :
    ∃ t, oneInterface.run [.recvFrame 0 (headerFrame 0x45), .route, .recvFrame 0 arpReply] = .ok t ∧
      ∀ n, ∀ dgram ∈ t.queue n, forward t.routingTable dgram ≠ none → dgram.WellFormed := by
  refine run_returns oneInterface_setUp ?_ ?_
  · simp [Op.Valid, oneInterface, headerFrame, arpReply, frameOf]
  · simp only [List.forall_mem_cons, List.not_mem_nil, false_imp_iff, implies_true, and_true]
    refine ⟨?_, id, ?_⟩
    · rintro ⟨_, data, _, _, _, whole, poison⟩
      obtain rfl : _ = data := (List.cons.inj whole).1
      exact absurd poison.header (by decide)
    · rintro ⟨_, _, _, _, type, _⟩
      exact absurd type (by decide)

theorem drain_error {n : Nat} {front : IPv4Datagram} {rest : List IPv4Datagram} {message : String}
    (waiting : r.queue n = front :: rest) (failed : r.routeOneDatagram front = .error message) :
    r.drain n = .error message := by
  rw [drain_cons waiting, failed]
  rfl

/-- The message of the exception that ends routing the front of queue 0. -/
def frontError (r : Router) : Option String :=
  match r.queue 0 with
  | [] => none
  | front :: _ =>
    match r.routeOneDatagram front with
    | .error message => some message
    | .ok _ => none

theorem route_error {message : String} (nonempty : 0 < r.interfaces.length) (failed : r.frontError = some message) :
    r.route = .error message := by
  unfold frontError at failed
  split at failed
  · cases failed
  · rename_i front rest waiting
    split at failed
    · rename_i failure
      obtain rfl := Option.some.inj failed
      obtain ⟨left, eq⟩ : ∃ left, r.interfaces.length = left + 1 := ⟨_, (Nat.succ_pred_eq_of_pos nonempty).symm⟩
      rw [route, eq, routeFrom, drain_error waiting failure]
      rfl
    · cases failed

theorem run_snoc (r : Router) (ops : List Op) (op : Op) :
    r.run (ops ++ [op]) = r.run ops >>= fun t => t.apply op := by
  simp [run]

/-- The address of 10.0.0.1 is learned; then a header of version 6 goes there. -/
def versionSix : List Op := [.recvFrame 0 arpReply, .recvFrame 0 (headerFrame 0x65)]

theorem version_six_stops_the_router :
    ¬ ∀ (r : Router) (ops : List Op), SetUp r → (∀ op ∈ ops, op.Valid r.interfaces.length) →
      ∃ t, r.run ops = .ok t := by
  intro law
  obtain ⟨t, returned⟩ := law oneInterface (versionSix ++ [.route]) oneInterface_setUp
    (by simp [versionSix, Op.Valid, oneInterface, headerFrame, arpReply, frameOf])
  rw [run_snoc] at returned
  obtain ⟨received, before, routed⟩ := Run.bind_eq_ok.mp returned
  have count : ((oneInterface.run versionSix).map fun r => r.interfaces.length).toOption = some 1 := by
    decide +kernel
  have message : ((oneInterface.run versionSix).map frontError).toOption = some (some "wrong IP version") := by
    decide +kernel
  simp only [before, Except.map, Except.toOption, Option.some.injEq] at count message
  rw [apply, route_error (by omega) message] at routed
  cases routed

end Router
end Sponge
