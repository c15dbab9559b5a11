import Sponge.NetworkSimulator.Runs

/-! What an exchange of frames does when a single frame is under way. Caches grow as
interfaces hear each other, so an interface is described by what it shows, which is
everything but what it has learned and its clocks. -/
namespace Sponge.NetworkSimulator
open NetworkInterface

/-- What an interface shows: nothing is under way there unless it is said. -/
structure Local where
  ethernetAddress : EthernetAddress
  ipAddress : UInt32
  framesOut : List EthernetFrame := []
  datagramsOut : List IPv4Datagram := []
  waiting : UInt32 → Option (List IPv4Datagram) := fun _ => none

def shown (i : AsyncNetworkInterface) : Local where
  ethernetAddress := i.ethernetAddress
  ipAddress := i.ipAddress
  framesOut := i.framesOut
  datagramsOut := i.datagramsOut
  waiting p := (i.queuingListMap p).map QueuingList.queuingDatagrams

/-- The ARP message that an interface with the addresses `eth` and `ip` emits. -/
def arpFrame (eth : EthernetAddress) (ip : UInt32) (arpType : ARPType) (mac : EthernetAddress) (p : UInt32) :
    EthernetFrame where
  header := { dst := mac, src := eth, type := EthernetHeader.typeARP }
  payload := [((NetworkInterface.new eth ip).arpMessage arpType mac p).bytes]

section OneInterface
variable {i : AsyncNetworkInterface} {eth mac : EthernetAddress} {ip p : UInt32} {d : IPv4Datagram}
  {arpType : ARPType}

theorem sendARP_eq (i : NetworkInterface) (arpType : ARPType) (mac : EthernetAddress) (p : UInt32) :
    i.sendARP arpType mac p =
      .ok { i with framesOut := i.framesOut ++ [arpFrame i.ethernetAddress i.ipAddress arpType mac p] } := by
  have supported : (i.arpMessage arpType mac p).supported = true := by
    cases arpType <;> rfl
  rw [NetworkInterface.sendARP, ARPMessage.serialize, if_neg (by simp [supported])]
  rfl

/-- A frame for another interface. -/
theorem recvFrame_foreign {frame : EthernetFrame} (foreign : frame.header.dst ≠ i.ethernetAddress)
    (unicast : frame.header.dst ≠ .broadcast) : i.recvFrame (Network.onWire frame) = .ok i := by
  have ignored : i.toNetworkInterface.recvFrame (Network.onWire frame) = .ok (none, i.toNetworkInterface) :=
    if_pos ⟨foreign, unicast⟩
  rw [AsyncNetworkInterface.recvFrame, ignored]
  simp [bind, Except.bind, pure, Except.pure]

/-- A frame with a whole datagram. -/
theorem recvFrame_datagram (mine : mac = i.ethernetAddress) (whole : d.Whole) :
    i.recvFrame (Network.onWire (ipv4Frame eth mac d)) =
      .ok { i with datagramsOut := i.datagramsOut ++ [d.received] } := by
  have parsed := IPv4Datagram.parse_serialized whole.wellFormed whole.len {}
  have taken : i.toNetworkInterface.recvFrame (Network.onWire (ipv4Frame eth mac d)) =
      .ok (some d.received, i.toNetworkInterface) := by
    have arp : ¬ (Network.onWire (ipv4Frame eth mac d)).header.type = EthernetHeader.typeARP := by
      simp [Network.onWire, ipv4Frame, EthernetHeader.typeIPv4, EthernetHeader.typeARP]
    have type : (Network.onWire (ipv4Frame eth mac d)).header.type = EthernetHeader.typeIPv4 := rfl
    unfold NetworkInterface.recvFrame
    rw [if_neg (fun foreign => foreign.1 mine), if_neg arp, if_pos type]
    simp only [Network.onWire, ipv4Frame, BufferList.concatenate_cons, BufferList.toBuffer, bind, Except.bind,
      parsed]
    rfl
  rw [AsyncNetworkInterface.recvFrame, taken]
  rfl

/-- An ARP message that is heard. -/
theorem recvFrame_arp (mine : mac = i.ethernetAddress ∨ mac = .broadcast) {t : NetworkInterface}
    (heard : i.toNetworkInterface.recvARP ((NetworkInterface.new eth ip).arpMessage arpType mac p) = .ok t) :
    i.recvFrame (Network.onWire (arpFrame eth ip arpType mac p)) = .ok { i with toNetworkInterface := t } := by
  have supported : ((NetworkInterface.new eth ip).arpMessage arpType mac p).supported = true := by
    cases arpType <;> rfl
  have taken : i.toNetworkInterface.recvFrame (Network.onWire (arpFrame eth ip arpType mac p)) = .ok (none, t) := by
    have type : (Network.onWire (arpFrame eth ip arpType mac p)).header.type = EthernetHeader.typeARP := rfl
    unfold NetworkInterface.recvFrame
    rw [if_neg (fun foreign => mine.elim foreign.1 foreign.2), if_pos type]
    simp only [Network.onWire, arpFrame, BufferList.concatenate_singleton, BufferList.toBuffer, bind, Except.bind,
      ARPMessage.parse_bytes supported, heard]
    rfl
  rw [AsyncNetworkInterface.recvFrame, taken]
  simp [bind, Except.bind, pure, Except.pure]

/-- What waits for the sender of an ARP message is sent, and a request for the
interface is answered. -/
theorem recvARP_eq {i : NetworkInterface} {arp : ARPMessage}
    (wellFormed : ∀ d ∈ i.pending arp.senderIPAddress, d.WellFormed) :
    i.recvARP arp = .ok { i.learn arp with
      queuingListMap := Function.update i.queuingListMap arp.senderIPAddress none
      framesOut := i.framesOut ++ (i.pending arp.senderIPAddress).map
        (ipv4Frame i.ethernetAddress arp.senderEthernetAddress) ++
        if arp.opcode = ARPMessage.opcodeRequest ∧ arp.targetIPAddress = i.ipAddress
        then [arpFrame i.ethernetAddress i.ipAddress .reply arp.senderEthernetAddress arp.senderIPAddress]
        else [] } := by
  have sent : (i.learn arp).sendQueuing arp = .ok { i.learn arp with
      queuingListMap := Function.update i.queuingListMap arp.senderIPAddress none
      framesOut := i.framesOut ++ (i.pending arp.senderIPAddress).map
        (ipv4Frame i.ethernetAddress arp.senderEthernetAddress) } := by
    unfold sendQueuing
    rw [show (i.learn arp).queuingListMap = i.queuingListMap from rfl]
    unfold NetworkInterface.pending at wellFormed ⊢
    cases found : i.queuingListMap arp.senderIPAddress with
    | none =>
      have same : Function.update i.queuingListMap arp.senderIPAddress none = i.queuingListMap := by
        rw [← found, Function.update_eq_self]
      simp [same, NetworkInterface.learn]
    | some list =>
      have queue : (i.learn arp).sendQueue arp.senderEthernetAddress list.queuingDatagrams = _ :=
        sendQueue_ok (by simpa [found] using wellFormed)
      simp only [queue, bind, Except.bind]
      rfl
  rw [recvARP, sent]
  simp only [bind, Except.bind, show (i.learn arp).ipAddress = i.ipAddress from rfl]
  by_cases asks : arp.opcode = ARPMessage.opcodeRequest ∧ arp.targetIPAddress = i.ipAddress
  · rw [if_pos asks, if_pos asks, sendARP_eq]
    rfl
  · rw [if_neg asks, if_neg asks, List.append_nil]
    rfl

/-- What an ARP message that is heard changes. -/
theorem recvFrame_arp_shown (queue : List IPv4Datagram) (mine : mac = i.ethernetAddress ∨ mac = .broadcast)
    (waits : ((shown i).waiting ip).getD [] = queue) (wellFormed : ∀ d ∈ queue, d.WellFormed) :
    Outcome (i.recvFrame (Network.onWire (arpFrame eth ip arpType mac p)))
      (fun j => shown j = { shown i with
        framesOut := i.framesOut ++ queue.map (ipv4Frame i.ethernetAddress eth) ++
          if arpType = .request ∧ p = i.ipAddress
          then [arpFrame i.ethernetAddress i.ipAddress .reply eth ip] else []
        waiting := Function.update (shown i).waiting ip none }) False := by
  have heard := @recvARP_eq i.toNetworkInterface ((NetworkInterface.new eth ip).arpMessage arpType mac p)
    (by rw [← waits] at wellFormed; exact wellFormed)
  have asks : ((NetworkInterface.new eth ip).arpMessage arpType mac p).opcode = ARPMessage.opcodeRequest ↔
      arpType = .request := by
    cases arpType <;> simp [NetworkInterface.arpMessage, ARPMessage.opcodeRequest, ARPMessage.opcodeReply]
  have waiting : (fun q => (Function.update i.queuingListMap ip none q).map QueuingList.queuingDatagrams) =
      Function.update (shown i).waiting ip none := by
    funext q
    by_cases same : q = ip
    · subst same
      simp
    · simp [shown, same]
  rw [recvFrame_arp mine heard, ← waits]
  simp only [asks, ← waiting]
  rfl

/-- A request is answered by the interface it asks for. -/
theorem recvFrame_request (quiet : (shown i).waiting ip = none) :
    Outcome (i.recvFrame (Network.onWire (arpFrame eth ip .request .broadcast p)))
      (fun j => shown j = if p = i.ipAddress
        then { shown i with framesOut := i.framesOut ++ [arpFrame i.ethernetAddress i.ipAddress .reply eth ip] }
        else shown i) False := by
  have same : Function.update (shown i).waiting ip none = (shown i).waiting := by
    rw [← quiet, Function.update_eq_self]
  refine (recvFrame_arp_shown [] (.inr rfl) (by simp [quiet]) (by simp)).weaken fun j eq => ?_
  rw [eq, same]
  by_cases target : p = i.ipAddress
  · simp [target]
  · simp [target]
    rfl

/-- The answer sends what waited for it. -/
theorem recvFrame_reply {queue : List IPv4Datagram} (waits : (shown i).waiting ip = some queue)
    (wellFormed : ∀ d ∈ queue, d.WellFormed) (mine : mac = i.ethernetAddress) :
    Outcome (i.recvFrame (Network.onWire (arpFrame eth ip .reply mac p)))
      (fun j => shown j = { shown i with
        framesOut := i.framesOut ++ queue.map (ipv4Frame i.ethernetAddress eth)
        waiting := Function.update (shown i).waiting ip none }) False := by
  refine (recvFrame_arp_shown queue (.inl mine) (by rw [waits]; rfl) wellFormed).weaken fun j eq => ?_
  rw [eq, if_neg (by simp), List.append_nil]

/-- A datagram is sent at once or waits for an answer. -/
theorem sendDatagram_shown (quiet : (shown i).waiting p = none) (wellFormed : d.WellFormed) :
    Outcome (i.sendDatagram d p) (fun j =>
      (∃ entry, i.cache p = some entry ∧ shown j = { shown i with
        framesOut := i.framesOut ++ [ipv4Frame i.ethernetAddress entry.macAddress d] }) ∨
      shown j = { shown i with
        framesOut := i.framesOut ++ [arpFrame i.ethernetAddress i.ipAddress .request .broadcast p]
        waiting := Function.update (shown i).waiting p (some [d]) }) False := by
  have nothing : i.queuingListMap p = none := Option.map_eq_none_iff.mp quiet
  unfold AsyncNetworkInterface.sendDatagram NetworkInterface.sendDatagram
  cases found : i.cache p with
  | some entry =>
    simp only [sendDatagramHandler_ok wellFormed]
    exact .inl ⟨entry, rfl, rfl⟩
  | none =>
    have waiting : (fun q => (Function.update i.queuingListMap p (some { queuingDatagrams := [d] }) q).map
        QueuingList.queuingDatagrams) = Function.update (shown i).waiting p (some [d]) := by
      funext q
      by_cases same : q = p
      · subst same
        simp
      · simp [shown, same]
    simp only [nothing, sendARP_eq, ← waiting]
    exact .inr rfl

end OneInterface

/-! ### The whole network -/

/-- The interfaces show what `view` says, and the hosts expect what `expects` says. -/
structure Shows (base : Network) (expects : String → List IPv4Datagram) (view : Port → Local) (net : Network) :
    Prop where
  alike : Alike base net
  shown : ∀ port i, net.interface port = some i → shown i = view port
  expects : ∀ name host, net.hosts name = some host → host.expectingToReceive = expects name

namespace Shows

variable {base net : Network} {expects : String → List IPv4Datagram} {view after : Port → Local} {port src : Port} {b : AsyncNetworkInterface}
  {ports : List Port}

theorem replaced {j : AsyncNetworkInterface} {t : Network} (shows : Shows base expects view net)
    (replaced : Replaced net port j t) (same : SameExpectations net t) :
    Shows base expects (Function.update view port (NetworkSimulator.shown j)) t where
  alike := shows.alike.trans replaced.alike
  shown q i found := by
    by_cases here : q = port
    · subst here
      obtain rfl := Option.some.inj (replaced.here.symm.trans found)
      rw [Function.update_self]
    · rw [Function.update_of_ne here]
      exact shows.shown q i ((replaced.others q here).symm.trans found)
  expects name host found := by
    have unchanged := same name
    rw [found, Option.map_some] at unchanged
    obtain ⟨before, stored, eq⟩ := Option.map_eq_some_iff.mp unchanged.symm
    exact eq.symm.trans (shows.expects name before stored)

theorem onPort (shows : Shows base expects view net) (found : base.interface port = some b)
    {call : AsyncNetworkInterface → Except String AsyncNetworkInterface} {now : Local}
    (step : ∀ i, NetworkSimulator.shown i = view port →
      Outcome (call i) (fun j => NetworkSimulator.shown j = now) False) :
    Outcome (net.onPort call port) (Shows base expects (Function.update view port now)) False := by
  obtain ⟨i, place⟩ := shows.alike.interface found
  refine (Network.onPort_outcome place (step i (shows.shown port i place))).weaken ?_
  rintro t ⟨j, rfl, replaced, same⟩
  exact shows.replaced replaced same

theorem framesOut (shows : Shows base expects view net) (found : base.interface port = some b) :
    net.framesOut port = (view port).framesOut := by
  obtain ⟨i, place⟩ := shows.alike.interface found
  rw [Network.framesOut, place, ← shows.shown port i place]
  rfl

/-- Every queue is emptied of what was in it before the exchange. -/
theorem clear (shows : Shows base expects after net) (nodup : ports.Nodup)
    (exist : ∀ port ∈ ports, ∃ i, base.interface port = some i) (counts : Port → Nat) :
    Outcome (ports.foldlM (fun net port => net.clear (counts port) port) net)
      (Shows base expects fun q => if q ∈ ports then { after q with framesOut := (after q).framesOut.drop (counts q) }
        else after q) False := by
  refine Outcome.foldlM_update nodup (fun net port member now same kept => ?_) (fun _ _ => rfl) shows
  obtain ⟨b, found⟩ := exist port member
  refine kept.onPort found fun i eq => ?_
  rw [same] at eq
  rw [← eq]
  rfl

/-- The exchange in terms of what the interfaces show before it. -/
theorem exchangeFrames_eq (shows : Shows base expects view net) (exist : ∀ port ∈ ports, ∃ i, base.interface port = some i) :
    net.exchangeFrames ports =
      (ports.foldlM (fun net src => (ports.filter (· ≠ src)).foldlM
        (fun net dst => net.deliver (view src).framesOut dst) net) net) >>=
      fun net => ports.foldlM (fun net port => net.clear (view port).framesOut.length port) net := by
  have queues : (ports.map fun port => (port, net.framesOut port)) =
      ports.map fun port => (port, (view port).framesOut) := by
    refine List.map_congr_left fun port member => ?_
    obtain ⟨b, found⟩ := exist port member
    rw [shows.framesOut found]
  simp only [Network.exchangeFrames, queues, List.foldlM_map]

/-- Nothing is delivered. -/
theorem deliver_nil (net : Network) (dsts : List Port) :
    dsts.foldlM (fun net dst => net.deliver [] dst) net = .ok net :=
  Run.foldlM_idle (fun _ _ _ => rfl) net

/-- A connection on which nothing is under way. -/
theorem exchange_idle (shows : Shows base expects view net) (nodup : ports.Nodup)
    (exist : ∀ port ∈ ports, ∃ i, base.interface port = some i)
    (silent : ∀ port ∈ ports, (view port).framesOut = []) :
    Outcome (net.exchangeFrames ports) (Shows base expects view) False := by
  have nothing : ports.foldlM (fun net src => (ports.filter (· ≠ src)).foldlM
      (fun net dst => Network.deliver net (view src).framesOut dst) net) net = .ok net :=
    Run.foldlM_idle (fun net src member => by simpa only [silent src member] using deliver_nil net _) net
  rw [shows.exchangeFrames_eq exist, nothing]
  refine (shows.clear nodup exist fun port => (view port).framesOut.length).weaken fun t kept => ?_
  have same : (fun q => if q ∈ ports
      then { view q with framesOut := (view q).framesOut.drop (view q).framesOut.length } else view q) = view := by
    funext q
    by_cases member : q ∈ ports
    · rw [if_pos member, List.drop_length, ← silent q member]
    · rw [if_neg member]
  exact same ▸ kept

/-- A connection on which one frame is under way. -/
theorem exchange_frame (shows : Shows base expects view net) (nodup : ports.Nodup)
    (exist : ∀ port ∈ ports, ∃ i, base.interface port = some i) (member : src ∈ ports) {frame : EthernetFrame}
    (emitted : (view src).framesOut = [frame])
    (silent : ∀ port ∈ ports, port ≠ src → (view port).framesOut = [])
    (hear : ∀ port ∈ ports, port ≠ src → ∀ i, NetworkSimulator.shown i = view port →
      Outcome (i.recvFrame (Network.onWire frame)) (fun j => NetworkSimulator.shown j = after port) False)
    (sent : after src = { view src with framesOut := [] }) (outside : ∀ q, q ∉ ports → after q = view q) :
    Outcome (net.exchangeFrames ports) (Shows base expects after) False := by
  have single : ports.foldlM (fun net src => (ports.filter (· ≠ src)).foldlM
      (fun net dst => Network.deliver net (view src).framesOut dst) net) net =
      (ports.filter (· ≠ src)).foldlM (fun net dst => net.deliver [frame] dst) net := by
    rw [Run.foldlM_single nodup member, emitted]
    intro net port other distinct
    simpa only [silent port other distinct] using deliver_nil net _
  rw [shows.exchangeFrames_eq exist, single]
  have heard : Outcome ((ports.filter (· ≠ src)).foldlM (fun net dst => net.deliver [frame] dst) net)
      (Shows base expects fun q => if q ∈ ports.filter (· ≠ src) then after q else view q) False := by
    refine Outcome.foldlM_update (nodup.filter _) (fun net port other now same kept => ?_) (fun _ _ => rfl) shows
    obtain ⟨here, distinct⟩ := List.mem_filter.mp other
    obtain ⟨b, found⟩ := exist port here
    refine Outcome.bind (kept.onPort found fun i eq => ?_) fun t last => last
    exact hear port here (by simpa using distinct) i (eq.trans same)
  refine heard.bind fun t kept => ?_
  refine (kept.clear nodup exist fun port => (view port).framesOut.length).weaken fun t last => ?_
  have same : (fun q => if q ∈ ports then
      { (if q ∈ ports.filter (· ≠ src) then after q else view q) with
        framesOut := (if q ∈ ports.filter (· ≠ src) then after q else view q).framesOut.drop
          (view q).framesOut.length }
      else if q ∈ ports.filter (· ≠ src) then after q else view q) = after := by
    funext q
    by_cases here : q = src
    · subst here
      simp [member, emitted, sent]
    · by_cases inside : q ∈ ports
      · simp [here, inside, silent q inside here]
      · simp [inside, outside q inside]
  exact same ▸ last

end Shows
end Sponge.NetworkSimulator
