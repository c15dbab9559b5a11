import Sponge.NetworkSimulator.Exchange

/-! Delivery. From a network in which nothing is under way, a datagram that a host
sends takes three turns of the simulator's loop for each connection that it
crosses: the request for an address, the answer and the datagram itself. -/
namespace Sponge.NetworkSimulator
open NetworkInterface

/-- Each interface is on one connection at most, and its neighbours can be told
apart by their IP addresses too. -/
structure Wired (base : Network) (links : List (List Port)) : Prop where
  setUp : base.SetUp links
  nodup : links.flatten.Nodup
  apart : ∀ a b c, Linked links a b → Linked links a c → base.ip b = base.ip c → b = c

section Views
variable (base : Network)

/-- Nothing is under way at a port. -/
def still (port : Port) : Local where
  ethernetAddress := (base.mac port).getD (.repeated 0)
  ipAddress := (base.ip port).getD 0

/-- `src` has asked for the address of the next hop of `d`. -/
def asking (src : Port) (hop : UInt32) (d : IPv4Datagram) : Port → Local :=
  Function.update (still base) src { still base src with
    framesOut := [arpFrame (still base src).ethernetAddress (still base src).ipAddress .request .broadcast hop]
    waiting := Function.update (fun _ => none) hop (some [d]) }

/-- `dst` has answered. -/
def answering (src dst : Port) (hop : UInt32) (d : IPv4Datagram) : Port → Local :=
  Function.update
    (Function.update (still base) src { still base src with
      waiting := Function.update (fun _ => none) hop (some [d]) })
    dst { still base dst with
      framesOut := [arpFrame (still base dst).ethernetAddress (still base dst).ipAddress .reply
        (still base src).ethernetAddress (still base src).ipAddress] }

/-- `src` has sent `d` to `dst`. -/
def crossing (src dst : Port) (d : IPv4Datagram) : Port → Local :=
  Function.update (still base) src { still base src with
    framesOut := [ipv4Frame (still base src).ethernetAddress (still base dst).ethernetAddress d] }

/-- `dst` has received `d`. -/
def arrived (dst : Port) (d : IPv4Datagram) : Port → Local :=
  Function.update (still base) dst { still base dst with datagramsOut := [d] }

end Views

variable {base net : Network} {links : List (List Port)} {expects : String → List IPv4Datagram}
  {ports : List Port} {port src dst : Port} {hop : UInt32} {d : IPv4Datagram} {i : AsyncNetworkInterface}

theorem Linked.mem (linked : Linked links src dst) (wired : Wired base links) (connected : ports ∈ links)
    (here : src ∈ ports) : dst ∈ ports := by
  obtain ⟨_, others, member, left, right⟩ := linked
  exact ports_unique wired.nodup member connected left here ▸ right

/-- The neighbour with the address of the next hop is the only one. -/
theorem Linked.unique (linked : Linked links src dst) (wired : Wired base links) (target : base.ip dst = some hop)
    (other : Linked links src port) (same : base.ip port = some hop) : port = dst :=
  wired.apart src port dst other linked (same.trans target.symm)

theorem still_ip {ip : UInt32} (known : base.ip port = some ip) : (still base port).ipAddress = ip := by
  simp [still, known]

theorem still_mac {eth : EthernetAddress} (known : base.mac port = some eth) :
    (still base port).ethernetAddress = eth := by
  simp [still, known]

/-- A port that exists has both addresses. -/
theorem addresses (found : base.interface port = some i) :
    base.mac port = some i.ethernetAddress ∧ base.ip port = some i.ipAddress := by
  simp [Network.mac, Network.ip, found]

/-- As it is constructed, the network is still. -/
theorem Shows.start (setUp : base.SetUp links) : Shows base (fun _ => []) (still base) base where
  alike := .refl base
  shown port i found := by
    obtain ⟨mac, ip⟩ := addresses found
    obtain ⟨eth, address, rfl⟩ := setUp.fresh found
    simp [NetworkSimulator.shown, still, mac, ip, AsyncNetworkInterface.new, NetworkInterface.new]
  expects name host found := by
    obtain ⟨_, _, _, rfl⟩ := setUp.hosts name host found
    rfl

section Views

theorem answering_dst : answering base src dst hop d dst = { still base dst with
    framesOut := [arpFrame (still base dst).ethernetAddress (still base dst).ipAddress .reply
      (still base src).ethernetAddress (still base src).ipAddress] } := Function.update_self _ _ _

theorem answering_src (distinct : src ≠ dst) : answering base src dst hop d src = { still base src with
    waiting := Function.update (fun _ => none) hop (some [d]) } := by
  rw [answering, Function.update_of_ne distinct, Function.update_self]

theorem answering_other (left : port ≠ src) (right : port ≠ dst) :
    answering base src dst hop d port = still base port := by
  rw [answering, Function.update_of_ne right, Function.update_of_ne left]

theorem answering_received (port : Port) : (answering base src dst hop d port).datagramsOut = [] := by
  by_cases right : port = dst
  · rw [right, answering_dst]
    rfl
  · by_cases left : port = src
    · rw [left, answering_src (left ▸ right)]
      rfl
    · rw [answering_other left right]
      rfl

theorem arrived_eq (dst port : Port) (d : IPv4Datagram) : arrived base dst d port =
    { still base port with datagramsOut := if port = dst then [d] else [] } := by
  by_cases same : port = dst
  · subst same
    rw [arrived, Function.update_self, if_pos rfl]
  · rw [arrived, Function.update_of_ne same, if_neg same]
    rfl

theorem arrived_other (other : port ≠ dst) : arrived base dst d port = still base port := by
  rw [arrived_eq, if_neg other]
  rfl

end Views

section Exchanges
variable (wired : Wired base links) (connected : ports ∈ links)
include wired connected

theorem Wired.nodup_ports : ports.Nodup := (List.nodup_flatten.mp wired.nodup).1 ports connected

/-- A frame for one interface on the connection is not taken by another. -/
theorem Wired.ignores (here : src ∈ ports) (linked : Linked links src dst) {frame : EthernetFrame}
    (addressed : frame.header.dst = (still base dst).ethernetAddress) (member : port ∈ ports) (left : port ≠ src)
    (right : port ≠ dst) (eq : shown i = still base port) :
    i.recvFrame (Network.onWire frame) = .ok i := by
  obtain ⟨a, there⟩ := wired.setUp.ports ports connected dst (linked.mem wired connected here)
  obtain ⟨b, found⟩ := wired.setUp.ports ports connected port member
  have macThere := (addresses there).1
  have mac : i.ethernetAddress = b.ethernetAddress :=
    (congrArg Local.ethernetAddress eq).trans (still_mac (addresses found).1)
  rw [still_mac macThere] at addressed
  refine recvFrame_foreign ?_ ?_
  · rw [addressed, mac]
    intro same
    exact right (wired.setUp.apart src port dst ⟨left.symm, ports, connected, here, member⟩ linked
      (by rw [(addresses found).1, macThere, same]))
  · rw [addressed]
    exact fun all => wired.setUp.unicast dst (all ▸ macThere)

/-- The request is heard by all, and answered by the one it is for. -/
theorem exchange_asking (here : src ∈ ports) (linked : Linked links src dst) (target : base.ip dst = some hop)
    (shows : Shows base expects (asking base src hop d) net) :
    Outcome (net.exchangeFrames ports) (Shows base expects (answering base src dst hop d)) False := by
  refine shows.exchange_frame (wired.nodup_ports connected) (wired.setUp.ports ports connected) here
    (by rw [asking, Function.update_self]) (fun port _ other => by rw [asking, Function.update_of_ne other]; rfl)
    ?_ ?_ ?_
  · intro port member other i eq
    rw [asking, Function.update_of_ne other] at eq
    have quiet : (shown i).waiting (still base src).ipAddress = none := by rw [eq]; rfl
    refine (recvFrame_request quiet).weaken fun j changed => ?_
    have ip : i.ipAddress = (still base port).ipAddress := congrArg Local.ipAddress eq
    have mac : i.ethernetAddress = (still base port).ethernetAddress := congrArg Local.ethernetAddress eq
    have frames : i.framesOut = [] := congrArg Local.framesOut eq
    rw [changed, eq, ip, mac, frames]
    by_cases mine : port = dst
    · subst mine
      rw [if_pos (still_ip target).symm, answering_dst, List.nil_append]
    · obtain ⟨b, found⟩ := wired.setUp.ports ports connected port member
      have ask : hop ≠ (still base port).ipAddress := by
        rw [still_ip (addresses found).2]
        intro same
        exact mine (linked.unique wired target ⟨other.symm, ports, connected, here, member⟩
          (same ▸ (addresses found).2))
      rw [if_neg ask, answering_other other mine]
  · rw [asking, Function.update_self, answering_src linked.1]
    rfl
  · intro q absent
    have left : q ≠ src := fun same => absent (same ▸ here)
    have right : q ≠ dst := fun same => absent (same ▸ linked.mem wired connected here)
    rw [answering_other left right, asking, Function.update_of_ne left]

/-- The answer is heard by the one it is for, which sends what waited. -/
theorem exchange_answering (here : src ∈ ports) (linked : Linked links src dst) (target : base.ip dst = some hop)
    (whole : d.Whole) (shows : Shows base expects (answering base src dst hop d) net) :
    Outcome (net.exchangeFrames ports) (Shows base expects (crossing base src dst d)) False := by
  have there := linked.mem wired connected here
  refine shows.exchange_frame (wired.nodup_ports connected) (wired.setUp.ports ports connected) there
    (by rw [answering_dst]) ?_ ?_ ?_ ?_
  · intro port _ other
    by_cases left : port = src
    · rw [left, answering_src linked.1]
      rfl
    · rw [answering_other left other]
      rfl
  · intro port member other i eq
    by_cases mine : port = src
    · subst mine
      rw [answering_src linked.1] at eq
      have waits : (shown i).waiting (still base dst).ipAddress = some [d] := by
        rw [eq, still_ip target]
        simp
      have mac : i.ethernetAddress = (still base port).ethernetAddress := congrArg Local.ethernetAddress eq
      have frames : i.framesOut = [] := congrArg Local.framesOut eq
      refine (recvFrame_reply waits (by simpa using whole.wellFormed) mac.symm).weaken fun j changed => ?_
      rw [changed, eq, mac, frames, still_ip target, crossing, Function.update_self]
      simp [still]
    · rw [answering_other mine other] at eq
      rw [wired.ignores connected there linked.symm rfl member other mine eq]
      exact eq.trans (by rw [crossing, Function.update_of_ne mine])
  · rw [answering_dst, crossing, Function.update_of_ne linked.1.symm]
    rfl
  · intro q absent
    have left : q ≠ src := fun same => absent (same ▸ here)
    have right : q ≠ dst := fun same => absent (same ▸ there)
    rw [answering_other left right, crossing, Function.update_of_ne left]

/-- The datagram is received by the one it is for. -/
theorem exchange_crossing (here : src ∈ ports) (linked : Linked links src dst) (whole : d.Whole)
    (shows : Shows base expects (crossing base src dst d) net) :
    Outcome (net.exchangeFrames ports) (Shows base expects (arrived base dst d.received)) False := by
  have there := linked.mem wired connected here
  refine shows.exchange_frame (wired.nodup_ports connected) (wired.setUp.ports ports connected) here
    (by rw [crossing, Function.update_self]) (fun port _ other => by rw [crossing, Function.update_of_ne other]; rfl)
    ?_ ?_ ?_
  · intro port member other i eq
    rw [crossing, Function.update_of_ne other] at eq
    have mac : i.ethernetAddress = (still base port).ethernetAddress := congrArg Local.ethernetAddress eq
    by_cases mine : port = dst
    · subst mine
      have received : i.datagramsOut = [] := congrArg Local.datagramsOut eq
      rw [recvFrame_datagram mac.symm whole, arrived, Function.update_self, ← eq]
      simp [shown, received]
    · rw [wired.ignores connected here linked rfl member other mine eq]
      exact eq.trans (by rw [arrived, Function.update_of_ne mine])
  · rw [crossing, Function.update_self, arrived, Function.update_of_ne linked.1]
    rfl
  · intro q absent
    have left : q ≠ src := fun same => absent (same ▸ here)
    have right : q ≠ dst := fun same => absent (same ▸ there)
    rw [crossing, Function.update_of_ne left, arrived, Function.update_of_ne right]

end Exchanges

/-! ### One turn -/

/-- A reachable network that shows what `view` says. -/
structure Stands (base : Network) (links : List (List Port)) (sent : List (String × IPv4Datagram))
    (expects : String → List IPv4Datagram) (view : Port → Local) (net : Network) : Prop where
  inv : Inv base links ⟨net, sent⟩
  shows : Shows base expects view net

variable {sent : List (String × IPv4Datagram)} {view after : Port → Local}

/-- One connection is active, and only there something changes. -/
theorem connections_active (wired : Wired base links) (connected : ports ∈ links)
    (active : ∀ net, Shows base expects view net →
      Outcome (net.exchangeFrames ports) (Shows base expects after) False)
    (before : ∀ port, port ∉ ports → view port = still base port)
    (later : ∀ port, port ∉ ports → after port = still base port)
    (stands : Stands base links sent expects view net) :
    Outcome (net.simulatePhysicalConnections links) (Stands base links sent expects after) False := by
  have kept := stands.inv.connections wired.setUp
  have changes : Outcome (net.simulatePhysicalConnections links) (Shows base expects after) False := by
    obtain ⟨first, last, rfl⟩ := List.append_of_mem connected
    obtain ⟨_, below, apart⟩ := List.pairwise_append.mp (List.nodup_flatten.mp wired.nodup).2
    have idle : ∀ view, (∀ port, port ∉ ports → view port = still base port) →
        ∀ others ∈ first ++ ports :: last, (∀ port ∈ others, port ∉ ports) → ∀ net, Shows base expects view net →
          Outcome (net.exchangeFrames others) (Shows base expects view) False := by
      intro view silent others member away net shows
      exact shows.exchange_idle (wired.nodup_ports member) (wired.setUp.ports others member)
        fun port inside => by rw [silent port (away port inside)]; rfl
    rw [Network.simulatePhysicalConnections, List.foldlM_append]
    refine Outcome.bind (Outcome.foldlM (fun net others member shows => ?_) stands.shows) fun net shows => ?_
    · exact idle view before others (List.mem_append_left _ member)
        (fun port inside => apart others member ports List.mem_cons_self inside) net shows
    · rw [List.foldlM_cons]
      refine (active net shows).bind fun net shows => Outcome.foldlM (fun net others member shows => ?_) shows
      exact idle after later others (List.mem_append_right _ (List.mem_cons_of_mem _ member))
        (fun port inside there => (List.pairwise_cons.mp below).1 others member there inside) net shows
  exact (kept.and changes).weaken fun t both => ⟨both.1, both.2⟩

/-- Nothing is on its way along a connection. -/
theorem connections_idle (wired : Wired base links) (silent : ∀ port, (view port).framesOut = [])
    (stands : Stands base links sent expects view net) :
    Outcome (net.simulatePhysicalConnections links) (Stands base links sent expects view) False := by
  have kept := stands.inv.connections wired.setUp
  have shown : Outcome (net.simulatePhysicalConnections links) (Shows base expects view) False :=
    Outcome.foldlM (fun net others member shows => shows.exchange_idle (wired.nodup_ports member)
      (wired.setUp.ports others member) fun port _ => silent port) stands.shows
  exact (kept.and shown).weaken fun t both => ⟨both.1, both.2⟩

theorem Shows.queue (shows : Shows base expects view net) {n : Nat} {front : IPv4Datagram} {rest : List IPv4Datagram}
    (waiting : net.router.queue n = front :: rest) : (view (.router n)).datagramsOut = front :: rest := by
  cases place : net.router.interfaces[n]? with
  | none => simp [Router.queue, place] at waiting
  | some i =>
    rw [← shows.shown (.router n) i place, ← waiting]
    simp [Router.queue, place, NetworkSimulator.shown]

theorem Shows.pop (shows : Shows base expects view net) (n : Nat) : Shows base expects
    (Function.update view (.router n) { view (.router n) with datagramsOut := (view (.router n)).datagramsOut.tail })
    { net with router := net.router.pop n } where
  alike := shows.alike.trans ⟨rfl, List.length_modify _ _ _, fun _ => rfl⟩
  shown port i found := by
    cases port with
    | host name =>
      rw [Function.update_of_ne (by simp)]
      exact shows.shown (.host name) i found
    | router m =>
      change (net.router.interfaces.modify n _)[m]? = some i at found
      rw [List.getElem?_modify] at found
      obtain ⟨old, place, rfl⟩ := Option.map_eq_some_iff.mp found
      have before := shows.shown (.router m) old place
      by_cases same : n = m
      · subst same
        rw [Function.update_self, ← before, if_pos rfl]
        rfl
      · rw [Function.update_of_ne (fun eq => same (Port.router.inj eq).symm), if_neg same]
        exact before
  expects := shows.expects

/-- The router has nothing to forward. -/
theorem route_idle (silent : ∀ n, (view (.router n)).datagramsOut = [])
    (stands : Stands base links sent expects view net) :
    Outcome net.route (Stands base links sent expects view) False := by
  have forwards : Router.Forwards fun r => Stands base links sent expects view { net with router := r } := by
    intro r n front rest stands waiting
    have queue := stands.shows.queue waiting
    rw [silent] at queue
    cases queue
  obtain ⟨t, eq, kept, _⟩ := forwards.route stands
  rw [Network.route, eq]
  exact kept

/-! ### From hop to hop -/

/-- `src` has asked for the next hop of `d`, or it knew that and has sent `d`. -/
def Emits (base : Network) (links : List (List Port)) (src : Port) (hop : UInt32) (d : IPv4Datagram)
    (view : Port → Local) : Prop :=
  view = asking base src hop d ∨
    ∃ dst, Linked links src dst ∧ base.ip dst = some hop ∧ view = crossing base src dst d

theorem Emits.elsewhere (emits : Emits base links src hop d view) (other : port ≠ src) :
    view port = still base port := by
  rcases emits with rfl | ⟨dst, _, _, rfl⟩
  · rw [asking, Function.update_of_ne other]
  · rw [crossing, Function.update_of_ne other]

theorem Emits.received (emits : Emits base links src hop d view) (port : Port) : (view port).datagramsOut = [] := by
  by_cases same : port = src
  · subst same
    rcases emits with rfl | ⟨dst, _, _, rfl⟩
    · rw [asking, Function.update_self]
      rfl
    · rw [crossing, Function.update_self]
      rfl
  · rw [emits.elsewhere same]
    rfl

theorem Emits.eta (emits : Emits base links src hop d view) (port : Port) :
    { view port with datagramsOut := [] } = view port := by
  rw [← emits.received port]

/-- What an interface with nothing to send does with a datagram. -/
theorem Keeps.emits (keeps : Keeps base links sent src i) {queue : List IPv4Datagram}
    (before : shown i = { still base src with datagramsOut := queue }) (wellFormed : d.WellFormed) :
    Outcome (i.sendDatagram d hop) (fun j => ∃ view, Emits base links src hop d view ∧
      shown j = { view src with datagramsOut := queue }) False := by
  obtain ⟨_, _, _, _, ledger⟩ := keeps.ledger
  have mac : i.ethernetAddress = (still base src).ethernetAddress := congrArg Local.ethernetAddress before
  have ip : i.ipAddress = (still base src).ipAddress := congrArg Local.ipAddress before
  have frames : i.framesOut = [] := congrArg Local.framesOut before
  have waiting : (shown i).waiting = fun _ => none := congrArg Local.waiting before
  refine (sendDatagram_shown (congrFun waiting hop) wellFormed).weaken fun j changed => ?_
  rcases changed with ⟨entry, cached, changed⟩ | changed
  · obtain ⟨dst, linked, target, known⟩ := ledger.cache hop entry cached
    refine ⟨crossing base src dst d, .inr ⟨dst, linked, target, rfl⟩, ?_⟩
    rw [changed, before, mac, frames, crossing, Function.update_self, still_mac known]
    rfl
  · refine ⟨asking base src hop d, .inl rfl, ?_⟩
    rw [changed, waiting, before, mac, ip, frames, asking, Function.update_self]
    rfl

/-- One datagram goes out on an interface of the router and is taken from a queue. -/
theorem forward_emits (wired : Wired base links) {n : Nat} {r : Router} (whole : d.Whole) {call : SendCall}
    (decided : Router.forward base.router.routingTable d = some call)
    (stands : Stands base links sent expects (arrived base (.router n) d) { net with router := r })
    (waiting : r.queue n = [d]) :
    ∃ calls t view, r.routeOneDatagram d = .ok (calls, t) ∧
      Emits base links (.router call.interfaceNum) call.nextHop call.dgram view ∧
      Stands base links sent expects view { net with router := t.pop n } := by
  obtain ⟨calls, t, eq, inv⟩ := Inv.forwards wired.setUp ⟨net, sent⟩ r n d [] stands.inv waiting
  have table : r.routingTable = base.router.routingTable := stands.shows.alike.table
  have sent : r.sendDatagram call = .ok t := by
    unfold Router.routeOneDatagram at eq
    rw [table, decided] at eq
    obtain ⟨after, sent, same⟩ := Run.bind_eq_ok.mp eq
    cases same
    exact sent
  have valid : call.interfaceNum < r.interfaces.length :=
    (Router.forward_some wired.setUp.table decided).1.trans_eq stands.shows.alike.count.symm
  have called : Network.onPort { net with router := r } (fun i => i.sendDatagram call.dgram call.nextHop)
      (.router call.interfaceNum) = .ok { net with router := t } := by
    rw [Network.onPort_sendDatagram valid, sent]
    rfl
  obtain ⟨i, place⟩ : ∃ i, Network.interface { net with router := r } (.router call.interfaceNum) = some i :=
    ⟨_, List.getElem?_eq_getElem valid⟩
  have before := (stands.shows.shown _ i place).trans (arrived_eq _ _ _)
  have emitted : Outcome (i.sendDatagram call.dgram call.nextHop) _ False :=
    (stands.inv.ports _ i place).emits before (whole.forward decided).wellFormed
  obtain ⟨j, ⟨view, emits, changed⟩, replaced, same⟩ := (Network.onPort_outcome place emitted).of_ok called
  refine ⟨calls, t, view, eq, emits, inv, ?_⟩
  have before : ∀ port, Function.update (arrived base (.router n) d) (.router call.interfaceNum) (shown j) port =
      { view port with datagramsOut := if port = .router n then [d] else [] } := by
    intro port
    by_cases here : port = .router call.interfaceNum
    · rw [here, Function.update_self, changed]
    · rw [Function.update_of_ne here, arrived_eq, emits.elsewhere here]
  have popped := (stands.shows.replaced replaced same).pop n
  convert popped using 1
  funext port
  by_cases here : port = .router n
  · rw [here, Function.update_self, before, if_pos rfl]
    exact (emits.eta _).symm
  · rw [Function.update_of_ne here, before, if_neg here]
    exact (emits.eta _).symm

/-- The router has a datagram to forward. -/
theorem route_arrived (wired : Wired base links) {n : Nat} (found : base.interface (.router n) = some i)
    (whole : d.Whole) {call : SendCall} (decided : Router.forward base.router.routingTable d = some call)
    (stands : Stands base links sent expects (arrived base (.router n) d) net) :
    Outcome net.route (fun t => ∃ view, Emits base links (.router call.interfaceNum) call.nextHop call.dgram view ∧
      Stands base links sent expects view t) False := by
  have forwards : Router.Forwards fun r =>
      Stands base links sent expects (arrived base (.router n) d) { net with router := r } ∨
      ∃ view, Emits base links (.router call.interfaceNum) call.nextHop call.dgram view ∧
        Stands base links sent expects view { net with router := r } := by
    rintro r m front rest (stands | ⟨view, emits, stands⟩) waiting
    · have queue := stands.shows.queue waiting
      rw [arrived_eq] at queue
      split at queue
      · rename_i same
        cases same
        cases queue
        obtain ⟨calls, t, view, eq, emits, after⟩ := forward_emits wired whole decided stands waiting
        exact ⟨calls, t, eq, .inr ⟨view, emits, after⟩⟩
      · cases queue
    · have queue := stands.shows.queue waiting
      rw [emits.received] at queue
      cases queue
  obtain ⟨t, eq, kept, empty⟩ := forwards.route (.inl stands)
  rw [Network.route, eq]
  rcases kept with stands | emitted
  · obtain ⟨i, place⟩ := stands.shows.alike.interface found
    have left := congrArg Local.datagramsOut ((stands.shows.shown _ i place).trans (arrived_eq _ _ _))
    rw [if_pos rfl, show (shown i).datagramsOut = [] from empty i (List.mem_of_getElem? place)] at left
    cases left
  · exact emitted

/-- The router drops what has no route or no time to live. -/
theorem route_dropped {n : Nat} (found : base.interface (.router n) = some i)
    (decided : Router.forward base.router.routingTable d = none)
    (stands : Stands base links sent expects (arrived base (.router n) d) net) :
    Outcome net.route (Stands base links sent expects (still base)) False := by
  have forwards : Router.Forwards fun r =>
      Stands base links sent expects (arrived base (.router n) d) { net with router := r } ∨
      Stands base links sent expects (still base) { net with router := r } := by
    rintro r m front rest (stands | stands) waiting
    · have queue := stands.shows.queue waiting
      rw [arrived_eq] at queue
      split at queue
      · rename_i same
        cases same
        cases queue
        have routed : r.routeOneDatagram d = .ok ([], r) := by
          have table : r.routingTable = base.router.routingTable := stands.shows.alike.table
          rw [Router.routeOneDatagram, table, decided]
        refine ⟨[], r, routed, .inr ⟨stands.inv.pop n, ?_⟩⟩
        convert stands.shows.pop n using 1
        funext port
        by_cases here : port = .router n
        · rw [here, Function.update_self, arrived_eq, if_pos rfl]
          rfl
        · rw [Function.update_of_ne here, arrived_eq, if_neg here]
          rfl
      · cases queue
    · cases stands.shows.queue waiting
  obtain ⟨t, eq, kept, empty⟩ := forwards.route (.inl stands)
  rw [Network.route, eq]
  rcases kept with stands | dropped
  · obtain ⟨i, place⟩ := stands.shows.alike.interface found
    have left := congrArg Local.datagramsOut ((stands.shows.shown _ i place).trans (arrived_eq _ _ _))
    rw [if_pos rfl, show (shown i).datagramsOut = [] from empty i (List.mem_of_getElem? place)] at left
    cases left
  · exact dropped

/-! ### From end to end -/

/-- The loop of the simulator from the middle of a turn. -/
def rest (links : List (List Port)) (n : Nat) (net : Network) : Except String Network :=
  net.simulatePhysicalConnections links >>= Network.turns links n

theorem turns_succ (n : Nat) (net : Network) : Network.turns links (n + 1) net = net.route >>= rest links n := by
  rw [Network.turns, Network.turn]
  exact bind_assoc _ _ _

/-- Nothing is under way. -/
theorem turns_idle (wired : Wired base links) (silent : ∀ port, (view port).framesOut = [])
    (received : ∀ n, (view (.router n)).datagramsOut = []) (n : Nat)
    (stands : Stands base links sent expects view net) :
    Outcome (Network.turns links n net) (Stands base links sent expects view) False := by
  induction n generalizing net with
  | zero => exact stands
  | succ n ih =>
    rw [turns_succ]
    refine (route_idle received stands).bind fun net stands => ?_
    exact (connections_idle wired silent stands).bind fun net stands => ih stands

/-- A datagram crosses one connection within three turns. -/
theorem crosses (wired : Wired base links) (linked : Linked links src dst) (target : base.ip dst = some hop)
    (whole : d.Whole) {Q : Network → Prop} {k : Nat}
    (next : ∀ m net, k ≤ m → Stands base links sent expects (arrived base dst d.received) net →
      Outcome (Network.turns links m net) Q False)
    {n : Nat} (enough : k + 2 ≤ n) (emits : Emits base links src hop d view)
    (stands : Stands base links sent expects view net) : Outcome (rest links n net) Q False := by
  obtain ⟨_, ports, connected, here, there⟩ := id linked
  have off : ∀ port, port ∉ ports → port ≠ src ∧ port ≠ dst := fun port absent =>
    ⟨fun same => absent (same ▸ here), fun same => absent (same ▸ there)⟩
  have ask : Emits base links src hop d (asking base src hop d) := .inl rfl
  have send : Emits base links src hop d (crossing base src dst d) := .inr ⟨dst, linked, target, rfl⟩
  have answered : ∀ port, port ∉ ports → answering base src dst hop d port = still base port :=
    fun port absent => answering_other (off port absent).1 (off port absent).2
  have third : ∀ m net, k ≤ m → Stands base links sent expects (crossing base src dst d) net →
      Outcome (rest links m net) Q False := by
    intro m net more stands
    refine (connections_active wired connected (fun net => exchange_crossing wired connected here linked whole)
      ?_ ?_ stands).bind fun net stands => next m net more stands
    · exact fun port absent => send.elsewhere (off port absent).1
    · exact fun port absent => arrived_other (off port absent).2
  have second : ∀ m net, k ≤ m → Stands base links sent expects (answering base src dst hop d) net →
      Outcome (rest links (m + 1) net) Q False := by
    intro m net more stands
    refine (connections_active wired connected
      (fun net => exchange_answering wired connected here linked target whole) answered ?_ stands).bind
      fun net stands => ?_
    · exact fun port absent => send.elsewhere (off port absent).1
    · rw [turns_succ]
      exact (route_idle (fun n => send.received _) stands).bind fun net stands => third m net more stands
  obtain ⟨m, rfl⟩ : ∃ m, n = m + 2 := ⟨n - 2, by omega⟩
  rcases emits with rfl | ⟨other, neighbour, same, rfl⟩
  · refine (connections_active wired connected
      (fun net => exchange_asking wired connected here linked target) ?_ answered stands).bind fun net stands => ?_
    · exact fun port absent => ask.elsewhere (off port absent).1
    · rw [turns_succ]
      exact (route_idle (fun n => answering_received _) stands).bind fun net stands =>
        second m net (by omega) stands
  · obtain rfl := linked.unique wired target neighbour same
    exact third (m + 2) net (by omega) stands

/-- A datagram that is to go from an interface to a next hop: the host that receives
it in the end, as it is then, if it is not dropped, and how many connections it
crosses. -/
inductive Travels (base : Network) (links : List (List Port)) :
    Port → UInt32 → IPv4Datagram → Option (String × IPv4Datagram) → Nat → Prop
  | received {src name hop d} : Linked links src (.host name) → base.ip (.host name) = some hop →
      Travels base links src hop d (some (name, d.received)) 1
  | dropped {src n hop d} : Linked links src (.router n) → base.ip (.router n) = some hop →
      Router.forward base.router.routingTable d.received = none → Travels base links src hop d none 1
  | forwarded {src n hop d call final crossed} : Linked links src (.router n) → base.ip (.router n) = some hop →
      Router.forward base.router.routingTable d.received = some call →
      Travels base links (.router call.interfaceNum) call.nextHop call.dgram final crossed →
      Travels base links src hop d final (crossed + 1)

/-- What the network shows when a datagram has come to its end. -/
def delivered (base : Network) : Option (String × IPv4Datagram) → Port → Local
  | none => still base
  | some (name, d) => arrived base (.host name) d

theorem Linked.found (linked : Linked links src dst) (wired : Wired base links) : ∃ i, base.interface dst = some i := by
  obtain ⟨_, ports, connected, _, there⟩ := linked
  exact wired.setUp.ports ports connected dst there

/-- By induction on the way of the datagram. -/
theorem Travels.delivers (wired : Wired base links) {final : Option (String × IPv4Datagram)} {crossed : Nat}
    (travels : Travels base links src hop d final crossed) (whole : d.Whole) {n : Nat} (enough : 3 * crossed ≤ n)
    (emits : Emits base links src hop d view) (stands : Stands base links sent expects view net) :
    Outcome (rest links n net) (Stands base links sent expects (delivered base final)) False := by
  induction travels generalizing n view net with
  | @received src name hop d linked target =>
    refine crosses wired linked target whole (k := 0) (fun m net _ stands => ?_) (by omega) emits stands
    refine turns_idle wired (fun port => ?_) (fun k => ?_) m stands
    · rw [delivered, arrived_eq]
      rfl
    · rw [delivered, arrived_other (by simp)]
      rfl
  | @dropped src k hop d linked target decided =>
    refine crosses wired linked target whole (k := 1) (fun m net more stands => ?_) (by omega) emits stands
    obtain ⟨i, found⟩ := linked.found wired
    obtain ⟨m, rfl⟩ : ∃ l, m = l + 1 := ⟨m - 1, by omega⟩
    rw [turns_succ]
    refine (route_dropped found decided stands).bind fun net stands => ?_
    exact (connections_idle wired (fun _ => rfl) stands).bind fun net stands =>
      turns_idle wired (fun _ => rfl) (fun _ => rfl) m stands
  | @forwarded src k hop d call final crossed linked target decided _ ih =>
    refine crosses wired linked target whole (k := 3 * crossed + 1) (fun m net more stands => ?_) (by omega) emits
      stands
    obtain ⟨i, found⟩ := linked.found wired
    obtain ⟨m, rfl⟩ : ∃ l, m = l + 1 := ⟨m - 1, by omega⟩
    rw [turns_succ]
    refine (route_arrived wired found whole.received decided stands).bind fun net emitted => ?_
    obtain ⟨view, emits, stands⟩ := emitted
    exact ih (whole.received.forward decided) (by omega) emits stands

/-- A host sends. -/
theorem sendTo_emits (wired : Wired base links) {name : String} {host : Host} (found : base.hosts name = some host)
    {payload : Buffer} (fits : payload.length ≤ 65515) (destination : UInt32) (ttl : UInt8)
    (stands : Stands base links sent expects (still base) net) :
    Outcome (net.sendTo name destination payload ttl) (fun out => ∃ view,
      out.1 = host.datagram destination payload ttl ∧
      Emits base links (.host name) host.nextHop (host.datagram destination payload ttl) view ∧
      Stands base links (sent ++ [(name, host.datagram destination payload ttl)]) expects view out.2) False := by
  have named := wired.setUp.named found
  obtain ⟨now, returned, same⟩ := stands.shows.alike.stays named
  have address : now.myAddress = host.myAddress := congrArg (fun identity => identity.2.1) same
  have nextHop : now.nextHop = host.nextHop := congrArg (fun identity => identity.2.2) same
  have dgram : now.datagram destination payload ttl = host.datagram destination payload ttl := by
    simp only [Host.datagram, address]
  have place := Network.interface_host returned
  have before : shown now.interface = { still base (.host name) with datagramsOut := [] } :=
    stands.shows.shown _ _ place
  have emitted : Outcome (now.interface.sendDatagram (host.datagram destination payload ttl) host.nextHop) _ False :=
    (stands.inv.ports _ _ place).emits before (host.datagram_whole fits destination ttl).wellFormed
  obtain ⟨j, sends, view, emits, changed⟩ := emitted.returns id
  have outcome := stands.inv.sendTo named fits destination ttl
  simp only [Session.apply, Network.sendTo, returned, Host.sendTo, dgram, nextHop, bind, Except.bind, sends] at outcome ⊢
  refine ⟨view, rfl, emits, outcome, ?_⟩
  have views : view = Function.update (still base) (.host name) (shown j) := by
    funext port
    by_cases here : port = .host name
    · rw [here, Function.update_self, changed, emits.eta]
    · rw [Function.update_of_ne here, emits.elsewhere here]
  have identity : Host.identity { now with interface := j, nextHop := host.nextHop } = now.identity :=
    congrArg (fun hop => (now.name, now.myAddress, hop)) nextHop.symm
  rw [views]
  exact stands.shows.replaced (Network.replaced_host returned identity) (Network.sameExpectations_host returned rfl)

end Sponge.NetworkSimulator
