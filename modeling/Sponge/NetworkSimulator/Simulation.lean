import Sponge.NetworkSimulator.Delivery

/-! The simulator itself. Whatever the network and the tests are, if every datagram
has a route then all the tests pass: each is received once, by the host that
expects it, and nothing else is. -/
namespace Sponge

namespace IPv4Datagram

/-- The serialiser computes the checksum and cuts the offset itself. -/
theorem wire_eq {x d : IPv4Datagram} (header : { x.header with cksum := 0, offset := x.header.offset &&& 0x1fff } =
    { d.header with cksum := 0, offset := d.header.offset &&& 0x1fff })
    (payload : x.payload.concatenate = d.payload.concatenate) : x.wire = d.wire := by
  have bytes : ∀ (h : IPv4Header) cksum, { h with cksum := cksum }.bytes =
      { { h with cksum := 0, offset := h.offset &&& 0x1fff } with cksum := cksum }.bytes := by
    intro h cksum
    have masked : h.offset &&& 0x1fff &&& 0x1fff = h.offset &&& 0x1fff := by rw [UInt16.and_assoc, UInt16.and_self]
    simp only [IPv4Header.bytes, masked]
  have same : ∀ cksum, { x.header with cksum := cksum }.bytes = { d.header with cksum := cksum }.bytes := by
    intro cksum
    rw [bytes, header, ← bytes]
  rw [wire, wire, headerOut, headerOut, same, same, payload]

/-- A datagram is sent on as it was received. -/
theorem received_wire (d : IPv4Datagram) (ttl : UInt8) :
    wire { d.received with header := { d.received.header with ttl := ttl } } =
      wire { d with header := { d.header with ttl := ttl } } := by
  have masked : d.header.offset &&& 0x1fff &&& 0x1fff = d.header.offset &&& 0x1fff := by
    rw [UInt16.and_assoc, UInt16.and_self]
  refine wire_eq ?_ (BufferList.concatenate_singleton _)
  simp only [received, headerOut, masked]

theorem received_wire_self (d : IPv4Datagram) : d.received.wire = d.wire := received_wire d d.header.ttl

end IPv4Datagram

namespace NetworkSimulator

variable {base net : Network} {links : List (List Port)} {expects : String → List IPv4Datagram}
  {sent : List (String × IPv4Datagram)} {view : Port → Local} {name : String} {host after : Host}

/-- A host is changed in place. -/
theorem Shows.onHost (shows : Shows base expects view net) (returned : net.host name = .ok host)
    (same : after.identity = host.identity) :
    Shows base (Function.update expects name after.expectingToReceive)
      (Function.update view (.host name) (NetworkSimulator.shown after.interface))
      { net with hosts := Function.update net.hosts name (some after) } := by
  have replaced := Network.replaced_host returned same
  refine ⟨shows.alike.trans replaced.alike, fun port i found => ?_, fun other stored found => ?_⟩
  · by_cases here : port = .host name
    · subst here
      rw [Function.update_self, Option.some.inj (replaced.here.symm.trans found)]
    · rw [Function.update_of_ne here]
      exact shows.shown port i ((replaced.others port here).symm.trans found)
  · by_cases here : other = name
    · subst here
      simp only [Function.update_self, Option.some.injEq] at found ⊢
      rw [found]
    · simp only [Function.update_of_ne here] at found ⊢
      exact shows.expects other stored found

/-- A host that has received what it expects passes its check. -/
theorem check_passes (named : base.host name = .ok host) (stands : Stands base links sent expects view net)
    (received : ∀ d ∈ (view (.host name)).datagramsOut, d.WellFormed)
    (expected : ∀ d ∈ expects name, d.WellFormed)
    (same : ((view (.host name)).datagramsOut.map IPv4Datagram.wire).Perm ((expects name).map IPv4Datagram.wire)) :
    Outcome (net.onHost name Host.check) (Stands base links sent (Function.update expects name [])
      (Function.update view (.host name) { view (.host name) with datagramsOut := [] })) False := by
  obtain ⟨now, returned, _⟩ := stands.shows.alike.stays named
  have place := stands.shows.shown _ _ (Network.interface_host returned)
  have datagrams : now.interface.datagramsOut = (view (.host name)).datagramsOut := congrArg Local.datagramsOut place
  have expectations := stands.shows.expects name now (Network.host_of_ok returned).1
  rw [← datagrams] at received same
  rw [← expectations] at expected same
  obtain ⟨after, checked⟩ := (Host.check_passes_iff received expected).mpr same
  have frame := Host.check_frame checked
  have eq : net.onHost name Host.check = .ok { net with hosts := Function.update net.hosts name (some after) } := by
    simp only [Network.onHost, returned, bind, Except.bind, checked]
    rfl
  rw [eq]
  refine ⟨(stands.inv.check named).of_ok eq, ?_⟩
  have shows := stands.shows.onHost returned (show after.identity = now.identity by rw [frame]; rfl)
  have cleared : shown after.interface = { view (.host name) with datagramsOut := [] } := by
    rw [frame, ← place]
    rfl
  have none : after.expectingToReceive = [] := by rw [frame]
  rw [cleared, none] at shows
  exact shows

/-- A host expects one more datagram. -/
theorem expect_stands (named : base.host name = .ok host) (expected : IPv4Datagram)
    (stands : Stands base links sent expects view net) :
    Outcome (net.onHost name fun host => .ok (host.expect expected))
      (Stands base links sent (Function.update expects name (expects name ++ [expected])) view) False := by
  obtain ⟨now, returned, _⟩ := stands.shows.alike.stays named
  have eq : (net.onHost name fun host => .ok (host.expect expected)) =
      .ok { net with hosts := Function.update net.hosts name (some (now.expect expected)) } := by
    simp only [Network.onHost, returned]
    rfl
  rw [eq]
  refine ⟨(stands.inv.expect named expected).of_ok eq, ?_⟩
  have shows := @Shows.onHost _ _ _ _ _ _ (now.expect expected) stands.shows returned rfl
  have place := stands.shows.shown _ _ (Network.interface_host returned)
  have views : Function.update view (.host name) (shown (now.expect expected).interface) = view := by
    rw [show (now.expect expected).interface = now.interface from rfl, place, Function.update_eq_self]
  rw [views] at shows
  rw [← stands.shows.expects name now (Network.host_of_ok returned).1]
  exact shows

/-- A host that neither received nor expects anything passes and stays. -/
theorem check_idle (named : base.host name = .ok host) (none : expects name = [])
    (silent : (view (.host name)).datagramsOut = []) (stands : Stands base links sent expects view net) :
    Outcome (net.onHost name Host.check) (Stands base links sent expects view) False := by
  have views : Function.update view (.host name) { view (.host name) with datagramsOut := [] } = view := by
    rw [← silent]
    exact Function.update_eq_self _ _
  have expectations : Function.update expects name [] = expects := by
    rw [← none]
    exact Function.update_eq_self _ _
  have passed := check_passes named stands (by simp [silent]) (by simp [none]) (by simp [silent, none])
  rwa [views, expectations] at passed

/-- The checks of hosts that neither received nor expect anything. -/
theorem checks_idle {names : List String} (named : ∀ name ∈ names, ∃ host, base.host name = .ok host)
    (none : ∀ name ∈ names, expects name = []) (silent : ∀ name ∈ names, (view (.host name)).datagramsOut = [])
    (stands : Stands base links sent expects view net) :
    Outcome (names.foldlM (fun net name => net.onHost name Host.check) net) (Stands base links sent expects view)
      False := by
  refine Outcome.foldlM (fun net name member stands => ?_) stands
  obtain ⟨host, found⟩ := named name member
  exact check_idle found (none name member) (silent name member) stands

/-- All the checks, when one host has received what it expects. -/
theorem checks_pass {names : List String} (nodup : names.Nodup)
    (named : ∀ name ∈ names, ∃ host, base.host name = .ok host) {receiver : String} (member : receiver ∈ names)
    {d expected : IPv4Datagram} (whole : d.WellFormed) (wellFormed : expected.WellFormed)
    (same : d.wire = expected.wire)
    (stands : Stands base links sent (Function.update (fun _ => []) receiver [expected])
      (arrived base (.host receiver) d) net) :
    Outcome (names.foldlM (fun net name => net.onHost name Host.check) net)
      (Stands base links sent (fun _ => []) (still base)) False := by
  obtain ⟨before, later, rfl⟩ := List.append_of_mem member
  have first : ∀ name ∈ before, name ≠ receiver := fun name inside =>
    (List.nodup_append.mp nodup).2.2 name inside receiver List.mem_cons_self
  rw [List.foldlM_append]
  refine (checks_idle (fun name inside => named name (List.mem_append_left _ inside)) ?_ ?_ stands).bind
    fun net stands => ?_
  · exact fun name inside => Function.update_of_ne (first name inside) _ _
  · intro name inside
    rw [arrived_other (fun eq => first name inside (Port.host.inj eq))]
    rfl
  · obtain ⟨host, found⟩ := named receiver member
    rw [List.foldlM_cons]
    have passed := check_passes found stands (by simpa [arrived_eq] using whole) (by simpa using wellFormed)
      (by simp [arrived_eq, same])
    have expectations : Function.update (Function.update (fun _ => []) receiver [expected]) receiver [] =
        fun _ : String => ([] : List IPv4Datagram) := by
      rw [Function.update_idem, Function.update_eq_self]
    have views : Function.update (arrived base (.host receiver) d) (.host receiver)
        { arrived base (.host receiver) d (.host receiver) with datagramsOut := [] } = still base := by
      rw [arrived, Function.update_idem, Function.update_self]
      exact Function.update_eq_self _ _
    rw [expectations, views] at passed
    refine passed.bind fun net stands => checks_idle ?_ (fun _ _ => rfl) (fun _ _ => rfl) stands
    exact fun name inside => named name (List.mem_append_right _ (List.mem_cons_of_mem _ inside))

/-- The call that the router makes leads to the receiver; it makes none if there is
to be no receiver. -/
def LeadsTo (base : Network) (links : List (List Port)) : Option String → Option SendCall → Prop
  | none, none => True
  | some receiver, some call =>
    Linked links (.router call.interfaceNum) (.host receiver) ∧ base.ip (.host receiver) = some call.nextHop
  | _, _ => False

instance (base : Network) (links : List (List Port)) : ∀ receiver call, Decidable (LeadsTo base links receiver call)
  | none, none => isTrue trivial
  | some _, some _ => inferInstanceAs (Decidable (_ ∧ _))
  | none, some _ => isFalse id
  | some _, none => isFalse id

/-- The datagram of a test gets to the router, and on to the receiver. -/
def Test.Routed (base : Network) (links : List (List Port)) (test : Test) : Prop :=
  test.payload.length ≤ 65515 ∧ ∃ host ∈ base.hosts test.sender, ∃ n ∈ List.range base.router.interfaces.length,
    Linked links (.host test.sender) (.router n) ∧ base.ip (.router n) = some host.nextHop ∧
    LeadsTo base links test.receiver (Router.forward base.router.routingTable
      (host.datagram test.destination test.payload test.ttl).received)

instance (base : Network) (links : List (List Port)) (test : Test) : Decidable (test.Routed base links) :=
  inferInstanceAs (Decidable (_ ∧ _))

/-- The loop of the simulator after a host has sent. -/
theorem turns_delivers (wired : Wired base links) {src : Port} {hop : UInt32} {d : IPv4Datagram}
    {final : Option (String × IPv4Datagram)} {crossed : Nat} (travels : Travels base links src hop d final crossed)
    (whole : d.Whole) {n : Nat} (enough : 3 * crossed < n) (emits : Emits base links src hop d view)
    (stands : Stands base links sent expects view net) :
    Outcome (Network.turns links n net) (Stands base links sent expects (delivered base final)) False := by
  obtain ⟨m, rfl⟩ : ∃ m, n = m + 1 := ⟨n - 1, by omega⟩
  rw [turns_succ]
  exact (route_idle (fun n => emits.received _) stands).bind fun net stands =>
    travels.delivers wired whole (by omega) emits stands

/-- In a reachable network in which nothing is under way, a datagram that has a way
through the routers gets there, and is the only thing that anybody has then. -/
theorem run_delivers (wired : Wired base links) {s : Session} (run : Runs base links s)
    (quiet : Shows base expects (still base) s.net) (found : base.hosts name = some host) {payload : Buffer}
    (fits : payload.length ≤ 65515) {destination : UInt32} {ttl : UInt8} {final : Option (String × IPv4Datagram)}
    {crossed : Nat} (travels : Travels base links (.host name) host.nextHop (host.datagram destination payload ttl)
      final crossed) {n : Nat} (enough : 3 * crossed < n) :
    ∃ dgram t u, s.net.sendTo name destination payload ttl = .ok (dgram, t) ∧ Network.turns links n t = .ok u ∧
      Shows base expects (delivered base final) u := by
  have stands : Stands base links s.sent expects (still base) s.net := ⟨run.inv wired.setUp, quiet⟩
  obtain ⟨⟨dgram, t⟩, returned, view, _, emits, after⟩ := (sendTo_emits wired found fits destination ttl stands).returns id
  obtain ⟨u, turned, last⟩ := (turns_delivers wired travels (host.datagram_whole fits destination ttl) enough emits
    after).returns id
  exact ⟨dgram, t, u, returned, turned, last.shows⟩

theorem sourceNetwork_wired : Wired sourceNetwork physicalConnections where
  nodup := by decide
  apart := apart_of_nodup (by decide) (by decide +kernel)
  setUp := sourceNetwork_setUp

def applesauce : Host := .new "applesauce" (.repeated 0x20) (ip 10 0 0 2) (ip 10 0 0 1)

/-- Through the router, with one hop to spare. -/
theorem run_delivers_applesauce : ∃ call dgram t u,
    Router.forward sourceNetwork.router.routingTable (applesauce.datagram (ip 192 168 0 2) [7] 2).received =
      some call ∧
    sourceNetwork.sendTo "applesauce" (ip 192 168 0 2) [7] 2 = .ok (dgram, t) ∧
    Network.turns physicalConnections 7 t = .ok u ∧
    Shows sourceNetwork (fun _ => [])
      (delivered sourceNetwork (some ("cherrypie", call.dgram.received))) u := by
  have forwards : (Router.forward sourceNetwork.router.routingTable
      (applesauce.datagram (ip 192 168 0 2) [7] 2).received).map (fun call => (call.interfaceNum, call.nextHop)) =
        some (eth2Id, ip 192 168 0 2) := by
    decide +kernel
  obtain ⟨call, decided, eq⟩ := Option.map_eq_some_iff.mp forwards
  obtain ⟨interface, nextHop⟩ := Prod.mk.inj eq
  have found : sourceNetwork.hosts "applesauce" = some applesauce := rfl
  have onward : Linked physicalConnections (.router call.interfaceNum) (.host "cherrypie") := by
    rw [interface]
    decide
  have there : sourceNetwork.ip (.host "cherrypie") = some call.nextHop := by
    rw [nextHop]
    decide +kernel
  have near : Linked physicalConnections (.host "applesauce") (.router eth0Id) := by decide
  have gateway : sourceNetwork.ip (.router eth0Id) = some applesauce.nextHop := by decide +kernel
  have travels := (Travels.received onward there).forwarded near gateway decided
  obtain ⟨dgram, t, u, sent, turned, last⟩ := run_delivers sourceNetwork_wired Relation.ReflTransGen.refl
    (Shows.start sourceNetwork_setUp) found (by decide) travels (by decide : 3 * (1 + 1) < 7)
  exact ⟨call, dgram, t, u, decided, sent, turned, last⟩

/-- One test passes, and leaves the network as quiet as it was. -/
theorem test_passes (wired : Wired base links) {names : List String} (nodup : names.Nodup)
    (all : ∀ name, name ∈ names ↔ ∃ host, base.hosts name = some host) {test : Test}
    (routed : test.Routed base links) (stands : Stands base links sent (fun _ => []) (still base) net) :
    Outcome (test.run links names net) (fun t => ∃ sent, Stands base links sent (fun _ => []) (still base) t)
      False := by
  have named : ∀ name ∈ names, ∃ host, base.host name = .ok host := by
    intro name member
    obtain ⟨host, found⟩ := (all name).mp member
    exact ⟨host, wired.setUp.named found⟩
  obtain ⟨fits, host, found, n, _, linked, target, way⟩ := routed
  have whole := host.datagram_whole fits test.destination test.ttl
  obtain ⟨⟨dgramSent, t⟩, returned, view, rfl, emits, after⟩ :=
    (sendTo_emits wired found fits test.destination test.ttl stands).returns id
  simp only [Test.run, returned, bind, Except.bind]
  generalize decided : Router.forward base.router.routingTable
    (host.datagram test.destination test.payload test.ttl).received = forwarded at way
  cases awaited : test.receiver with
  | none =>
    rw [awaited] at way
    have none : forwarded = none := by
      cases forwarded with
      | none => rfl
      | some call => exact way.elim
    have travels := Travels.dropped linked target (decided.trans none)
    refine Outcome.bind (turns_delivers wired travels whole (by decide) emits after) fun u quiet => ?_
    exact (checks_idle named (fun _ _ => rfl) (fun _ _ => rfl) quiet).weaken fun last stands => ⟨_, stands⟩
  | some receiver =>
    rw [awaited] at way
    cases forwarded with
    | none => exact way.elim
    | some call =>
      obtain ⟨onward, there⟩ := way
      have travels := (Travels.received onward there).forwarded linked target decided
      have forwarded := whole.received.forward decided
      obtain ⟨i, place, _⟩ := Option.map_eq_some_iff.mp there
      obtain ⟨receiving, named', _⟩ := Network.of_interface_host place
      have older := (IPv4Datagram.forward_dgram decided).2
      have same : call.dgram.received.wire = IPv4Datagram.wire { host.datagram test.destination test.payload test.ttl with
          header := { (host.datagram test.destination test.payload test.ttl).header with
            ttl := (host.datagram test.destination test.payload test.ttl).header.ttl - 1 } } := by
        rw [IPv4Datagram.received_wire_self, older]
        exact IPv4Datagram.received_wire _ _
      refine Outcome.bind (expect_stands named' _ after) fun u expecting => ?_
      rw [List.nil_append] at expecting
      refine Outcome.bind (turns_delivers wired travels whole (by decide) emits expecting) fun v quiet => ?_
      refine (checks_pass nodup named ((all receiver).mpr ⟨receiving, (Network.host_of_ok named').1⟩)
        forwarded.received.wellFormed ?_ same quiet).weaken fun last stands => ⟨_, stands⟩
      exact ⟨whole.wellFormed.ver, whole.wellFormed.hlen, whole.wellFormed.payload⟩

/-- Whatever the network is, if every datagram of the tests has its route then the
simulator comes to its end: every receiver has got what it expected and nothing
else, and nothing is left under way. -/
theorem network_simulator_passes (wired : Wired base links) {names : List String} (nodup : names.Nodup)
    (all : ∀ name, name ∈ names ↔ ∃ host, base.hosts name = some host) {tests : List Test}
    (routed : ∀ test ∈ tests, test.Routed base links) :
    ∃ t, networkSimulator links names base tests = .ok t ∧ Shows base (fun _ => []) (still base) t := by
  have begin : ∃ sent, Stands base links sent (fun _ => []) (still base) base :=
    ⟨[], Inv.start wired.setUp, Shows.start wired.setUp⟩
  have passed : Outcome (networkSimulator links names base tests)
      (fun t => ∃ sent, Stands base links sent (fun _ => []) (still base) t) False := by
    refine Outcome.foldlM (fun net test member stands => ?_) begin
    obtain ⟨sent, stands⟩ := stands
    exact test_passes wired nodup all (routed test member) stands
  obtain ⟨t, eq, sent, stands⟩ := passed.returns id
  exact ⟨t, eq, stands.shows⟩

/-- All ten tests of the source. -/
theorem network_simulator_passes_source :
    ∃ t, networkSimulator physicalConnections (hostTable.map Prod.fst) sourceNetwork tests = .ok t ∧
      Shows sourceNetwork (fun _ => []) (still sourceNetwork) t := by
  refine network_simulator_passes sourceNetwork_wired (by decide) ?_ ?_
  · intro name
    have known : (hostTable.lookup name).isSome = true ↔ name ∈ hostTable.map Prod.fst := by
      rw [List.lookup_isSome_iff]
      simp
    rw [← known, Option.isSome_iff_exists]
    constructor
    · rintro ⟨entry, found⟩
      exact ⟨_, congrArg (Option.map _) found⟩
    · rintro ⟨host, found⟩
      obtain ⟨entry, stored, _⟩ := Option.map_eq_some_iff.mp found
      exact ⟨entry, stored⟩
  · decide +kernel

end NetworkSimulator
end Sponge
