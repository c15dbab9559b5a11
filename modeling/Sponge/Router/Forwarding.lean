import Sponge.Router.Selection
import Sponge.NetworkInterface.Steps

/-! One call of `route`. It empties the queues in the order of the interfaces; a
datagram is forwarded once, over the documented route where no route carries
host bits. What sends need is a property of the router that forwarding keeps. -/
namespace Sponge.Router

variable {r t : Router} {n : Nat}

theorem sendDatagram_frame {call : SendCall} (sent : r.sendDatagram call = .ok t) :
    t.routingTable = r.routingTable ∧ t.interfaces.length = r.interfaces.length := by
  unfold sendDatagram at sent
  split at sent
  · cases sent
  · obtain ⟨interface, _, eq⟩ := Run.bind_eq_ok.mp sent
    cases eq
    exact ⟨rfl, List.length_set⟩

/-- What a datagram that was routed has caused: its call, and nothing else than
that call changed the router. -/
theorem routeOneDatagram_calls {dgram : IPv4Datagram} {calls : List SendCall}
    (routed : r.routeOneDatagram dgram = .ok (calls, t)) :
    calls = (forward r.routingTable dgram).toList ∧ t.routingTable = r.routingTable ∧
      t.interfaces.length = r.interfaces.length := by
  unfold routeOneDatagram at routed
  split at routed
  · rename_i nothing
    cases routed
    simp [nothing]
  · rename_i call decided
    obtain ⟨after, sent, eq⟩ := Run.bind_eq_ok.mp routed
    cases eq
    exact ⟨by simp [decided], sendDatagram_frame sent⟩

section Performed

/-- The router without the datagrams that wait in it. -/
def emptied (r : Router) : Router :=
  { r with interfaces := r.interfaces.map fun i => { i with datagramsOut := [] } }

theorem emptied_pop (r : Router) (n : Nat) : (r.pop n).emptied = r.emptied := by
  simp only [emptied, pop, Router.mk.injEq, and_true]
  refine List.ext_getElem? fun m => ?_
  rw [List.getElem?_map, List.getElem?_map, List.getElem?_modify]
  cases r.interfaces[m]? <;> simp
  split <;> rfl

theorem emptied_of_empty (empty : ∀ i ∈ r.interfaces, i.datagramsOut = []) : r.emptied = r := by
  have same : ∀ i ∈ r.interfaces, ({ i with datagramsOut := [] } : AsyncNetworkInterface) = i :=
    fun i member => by rw [← empty i member]
  rw [emptied, List.map_congr_left same, List.map_id']

/-- A call does not look at the queues. -/
theorem sendDatagram_emptied {call : SendCall} (sent : r.sendDatagram call = .ok t) :
    r.emptied.sendDatagram call = .ok t.emptied := by
  unfold sendDatagram at sent ⊢
  split at sent
  · cases sent
  · rename_i interface found
    obtain ⟨after, returned, eq⟩ := Run.bind_eq_ok.mp sent
    obtain ⟨base, based, made⟩ := Run.bind_eq_ok.mp returned
    cases eq
    cases made
    have known : r.emptied.interfaces[call.interfaceNum]? = some { interface with datagramsOut := [] } := by
      simp [emptied, found]
    rw [known]
    simp only [AsyncNetworkInterface.sendDatagram, based, bind, Except.bind, pure, Except.pure]
    rw [emptied, emptied, List.map_set]

theorem routeOneDatagram_performs {dgram : IPv4Datagram} {calls : List SendCall}
    (routed : r.routeOneDatagram dgram = .ok (calls, t)) : calls.foldlM sendDatagram r.emptied = .ok t.emptied := by
  unfold routeOneDatagram at routed
  split at routed
  · cases routed
    rfl
  · rename_i call decided
    obtain ⟨after, sent, eq⟩ := Run.bind_eq_ok.mp routed
    cases eq
    rw [List.foldlM_cons, sendDatagram_emptied sent]
    rfl

/-- Calls performed one after the other. -/
theorem performs_append {left right : List SendCall} {s : Router} (first : left.foldlM sendDatagram r = .ok s)
    (second : right.foldlM sendDatagram s = .ok t) : (left ++ right).foldlM sendDatagram r = .ok t := by
  rw [List.foldlM_append, first]
  exact second

theorem drain_performs {calls : List SendCall} (drained : r.drain n = .ok (calls, t)) :
    calls.foldlM sendDatagram r.emptied = .ok t.emptied := by
  generalize waiting : r.queue n = queue
  induction queue generalizing r calls with
  | nil =>
    rw [drain_nil waiting] at drained
    cases drained
    rfl
  | cons front rest ih =>
    rw [drain_cons waiting] at drained
    obtain ⟨⟨made, after⟩, routed, others⟩ := Run.bind_eq_ok.mp drained
    obtain ⟨⟨more, last⟩, left, eq⟩ := Run.bind_eq_ok.mp others
    cases eq
    have popped : (after.pop n).queue n = rest := by
      rw [pop_queue, if_pos rfl, routeOneDatagram_queue routed, waiting, List.tail_cons]
    have later := ih left popped
    rw [emptied_pop] at later
    exact performs_append (routeOneDatagram_performs routed) later

theorem routeFrom_performs {calls : List SendCall} {left : Nat} (routed : r.routeFrom n left = .ok (calls, t)) :
    calls.foldlM sendDatagram r.emptied = .ok t.emptied := by
  induction left generalizing r n calls with
  | zero =>
    cases routed
    rfl
  | succ left ih =>
    obtain ⟨⟨made, after⟩, drained, others⟩ := Run.bind_eq_ok.mp routed
    obtain ⟨⟨more, last⟩, rest, eq⟩ := Run.bind_eq_ok.mp others
    cases eq
    exact performs_append (drain_performs drained) (ih rest)

/-- The table and the two addresses of every interface. -/
def fixture (r : Router) : List RouteEntry × List (EthernetAddress × UInt32) :=
  (r.routingTable, r.interfaces.map fun i => (i.ethernetAddress, i.ipAddress))

theorem sendDatagram_fixture {call : SendCall} (sent : r.sendDatagram call = .ok t) : t.fixture = r.fixture := by
  unfold sendDatagram at sent
  split at sent
  · cases sent
  · rename_i interface found
    obtain ⟨after, returned, eq⟩ := Run.bind_eq_ok.mp sent
    obtain ⟨base, based, made⟩ := Run.bind_eq_ok.mp returned
    cases eq
    cases made
    obtain ⟨mac, ip⟩ := NetworkInterface.sendDatagram_addresses based
    rw [fixture, fixture, Prod.mk.injEq]
    refine ⟨rfl, List.ext_getElem? fun m => ?_⟩
    rw [List.getElem?_map, List.getElem?_map, List.getElem?_set]
    split
    · rename_i same
      rw [← same, found, if_pos (List.getElem?_eq_some_iff.mp found).1]
      simp [mac, ip]
    · rfl

theorem performs_fixture {calls : List SendCall} (performed : calls.foldlM sendDatagram r = .ok t) :
    t.fixture = r.fixture := by
  induction calls generalizing r with
  | nil =>
    cases performed
    rfl
  | cons call rest ih =>
    rw [List.foldlM_cons] at performed
    obtain ⟨after, sent, others⟩ := Run.bind_eq_ok.mp performed
    exact (ih others).trans (sendDatagram_fixture sent)

end Performed

/-- Every datagram at the front of a queue can be forwarded, and `P` holds again
once it is popped. -/
def Forwards (P : Router → Prop) : Prop :=
  ∀ r n front rest, P r → r.queue n = front :: rest →
    ∃ calls t, r.routeOneDatagram front = .ok (calls, t) ∧ P (t.pop n)

variable {P : Router → Prop}

/-- The loop over one queue, by induction on what waits in it. -/
theorem Forwards.drain (forwards : Forwards P) (holds : P r) (n : Nat) :
    ∃ t, r.drain n = .ok ((r.queue n).filterMap (forward r.routingTable), t) ∧ P t ∧
      t.routingTable = r.routingTable ∧ t.interfaces.length = r.interfaces.length ∧
      ∀ m, t.queue m = if m = n then [] else r.queue m := by
  generalize waiting : r.queue n = queue
  induction queue generalizing r with
  | nil =>
    refine ⟨r, drain_nil waiting, holds, rfl, rfl, ?_⟩
    intro m
    split
    · rename_i same
      rw [same, waiting]
    · rfl
  | cons front rest ih =>
    obtain ⟨calls, after, routed, kept⟩ := forwards r n front rest holds waiting
    obtain ⟨made, table, count⟩ := routeOneDatagram_calls routed
    have queues := routeOneDatagram_queue routed
    have popped : (after.pop n).queue n = rest := by rw [pop_queue, if_pos rfl, queues, waiting, List.tail_cons]
    obtain ⟨t, drained, last, sameTable, sameCount, empty⟩ := ih kept popped
    refine ⟨t, ?_, last, sameTable.trans table, ?_, ?_⟩
    · have table' : (after.pop n).routingTable = r.routingTable := table
      rw [drain_cons waiting, routed, made, List.filterMap_cons]
      simp only [bind, Except.bind, drained, table', pure, Except.pure]
      cases forward r.routingTable front <;> rfl
    · rw [sameCount, ← count]
      exact List.length_modify _ _ _
    · intro m
      rw [empty]
      by_cases same : m = n
      · rw [if_pos same, if_pos same]
      · rw [if_neg same, if_neg same, pop_queue, if_neg (Ne.symm same), queues]

/-- The loop over the interfaces, by induction on how many are left. -/
theorem Forwards.routeFrom (forwards : Forwards P) (holds : P r) (n left : Nat) :
    ∃ t, r.routeFrom n left =
        .ok ((List.range' n left).flatMap (fun m => (r.queue m).filterMap (forward r.routingTable)), t) ∧
      P t ∧ t.interfaces.length = r.interfaces.length ∧
      ∀ m, t.queue m = if n ≤ m ∧ m < n + left then [] else r.queue m := by
  induction left generalizing r n with
  | zero =>
    refine ⟨r, rfl, holds, rfl, ?_⟩
    intro m
    rw [if_neg (by omega)]
  | succ left ih =>
    obtain ⟨after, drained, kept, table, count, first⟩ := forwards.drain holds n
    obtain ⟨t, others, last, sameCount, rest⟩ := ih kept (n + 1)
    refine ⟨t, ?_, last, sameCount.trans count, ?_⟩
    · have untouched : ∀ m ∈ List.range' (n + 1) left, after.queue m = r.queue m := by
        intro m member
        rw [first, if_neg]
        have := List.mem_range'_1.mp member
        omega
      have same : (List.range' (n + 1) left).flatMap
            (fun m => (after.queue m).filterMap (forward after.routingTable)) =
          (List.range' (n + 1) left).flatMap (fun m => (r.queue m).filterMap (forward r.routingTable)) := by
        refine List.flatMap_congr fun m member => ?_
        rw [untouched m member, table]
      rw [Router.routeFrom, drained]
      simp only [bind, Except.bind, others, same]
      rfl
    · intro m
      rw [rest, first]
      by_cases here : m = n
      · rw [if_neg (by omega), if_pos here, if_pos (by omega)]
      · by_cases later : n + 1 ≤ m ∧ m < n + 1 + left
        · rw [if_pos later, if_pos (by omega)]
        · rw [if_neg later, if_neg here, if_neg (by omega)]

theorem queue_eq_of_lt (valid : n < r.interfaces.length) : r.queue n = r.interfaces[n].datagramsOut := by
  simp [queue, List.getElem?_eq_getElem valid]

theorem range_queue (r : Router) :
    (List.range' 0 r.interfaces.length).map r.queue = r.interfaces.map AsyncNetworkInterface.datagramsOut := by
  refine List.ext_getElem (by simp) fun n valid valid' => ?_
  rw [List.length_map] at valid'
  simp [queue_eq_of_lt valid']

/-- The whole call: every datagram that waits, in the order of the interfaces. -/
theorem Forwards.route (forwards : Forwards P) (holds : P r) :
    ∃ t, r.route = .ok (r.interfaces.flatMap
        (fun i => i.datagramsOut.filterMap (forward r.routingTable)), t) ∧
      P t ∧ ∀ i ∈ t.interfaces, i.datagramsOut = [] := by
  obtain ⟨t, routed, kept, count, queues⟩ := forwards.routeFrom holds 0 r.interfaces.length
  refine ⟨t, ?_, kept, ?_⟩
  · have order : (List.range' 0 r.interfaces.length).flatMap
          (fun m => (r.queue m).filterMap (forward r.routingTable)) =
        r.interfaces.flatMap (fun i => i.datagramsOut.filterMap (forward r.routingTable)) := by
      have flat := congrArg (fun queues => queues.flatMap (List.filterMap (forward r.routingTable))) r.range_queue
      simpa [List.flatMap_map] using flat
    rw [Router.route, routed, order]
  · intro i member
    obtain ⟨n, valid, rfl⟩ := List.getElem_of_mem member
    rw [← queue_eq_of_lt valid, queues, if_pos (by omega)]

/-- The routes can be looked up and followed. -/
structure ValidTable (table : List RouteEntry) (interfaces : Nat) : Prop where
  short : ∀ entry ∈ table, entry.prefixLength.toNat ≤ 32
  valid : ∀ entry ∈ table, entry.interfaceNum < interfaces

/-- A call goes out on a valid interface, with the datagram one hop older. -/
theorem forward_some {table : List RouteEntry} {interfaces : Nat} (ready : ValidTable table interfaces)
    {dgram : IPv4Datagram} {call : SendCall} (decided : forward table dgram = some call) :
    call.interfaceNum < interfaces ∧ (dgram.WellFormed → call.dgram.WellFormed) := by
  rw [forward_eq ready.short] at decided
  split at decided
  · cases decided
  · obtain ⟨entry, best, rfl⟩ := Option.map_eq_some_iff.mp decided
    have member := List.mem_of_mem_filter (bestRoute_mem best).1
    exact ⟨ready.valid entry member, fun wellFormed => ⟨wellFormed.ver, wellFormed.hlen, wellFormed.payload⟩⟩

theorem sendDatagram_ok {call : SendCall} (valid : call.interfaceNum < r.interfaces.length)
    (wellFormed : call.dgram.WellFormed) : ∃ t, r.sendDatagram call = .ok t := by
  have sent : ∃ base, r.interfaces[call.interfaceNum].toNetworkInterface.sendDatagram call.dgram call.nextHop =
      .ok base := by
    rcases NetworkInterface.sendDatagram_cases _ call.nextHop wellFormed with
      ⟨_, _, eq⟩ | ⟨_, _, _, eq⟩ | ⟨_, _, _, eq⟩
    all_goals exact ⟨_, eq⟩
  obtain ⟨base, eq⟩ := sent
  rw [sendDatagram, List.getElem?_eq_getElem valid]
  exact ⟨_, by simp only [AsyncNetworkInterface.sendDatagram, eq, bind, Except.bind]; rfl⟩

/-- The routes can be followed, and what waits and will be forwarded is well-formed. -/
structure Routable (r : Router) : Prop where
  ready : ValidTable r.routingTable r.interfaces.length
  sendable : ∀ n, ∀ dgram ∈ r.queue n, forward r.routingTable dgram ≠ none → dgram.WellFormed

theorem forwards_routable : Forwards Routable := by
  rintro r n front rest ⟨ready, sendable⟩ waiting
  have routed : ∃ calls t, r.routeOneDatagram front = .ok (calls, t) := by
    unfold routeOneDatagram
    split
    · exact ⟨[], r, rfl⟩
    · rename_i call decided
      obtain ⟨valid, older⟩ := forward_some ready decided
      have wellFormed := sendable n front (by simp [waiting]) (by simp [decided])
      obtain ⟨t, sent⟩ := sendDatagram_ok valid (older wellFormed)
      exact ⟨[call], t, by rw [sent]; rfl⟩
  obtain ⟨calls, t, eq⟩ := routed
  obtain ⟨_, table, count⟩ := routeOneDatagram_calls eq
  refine ⟨calls, t, eq, ?_, ?_⟩
  · have count' : (t.pop n).interfaces.length = r.interfaces.length := (List.length_modify _ _ _).trans count
    have table' : (t.pop n).routingTable = r.routingTable := table
    rw [table', count']
    exact ready
  · intro m dgram member
    have table' : (t.pop n).routingTable = r.routingTable := table
    rw [table']
    rw [pop_queue, routeOneDatagram_queue eq] at member
    split at member
    · exact sendable m dgram (List.mem_of_mem_tail member)
    · exact sendable m dgram member

/-- The call a datagram is due: one if it has time to live and a route. -/
def due (table : List RouteEntry) (dgram : IPv4Datagram) : Option SendCall :=
  if 2 ≤ dgram.header.ttl.toNat then
    (bestRoute table dgram.header.dst).map fun entry => entry.call dgram
  else none

theorem forward_eq_due {table : List RouteEntry} (short : ∀ entry ∈ table, entry.prefixLength.toNat ≤ 32)
    (clean : ∀ entry ∈ table, entry.Clean) (dgram : IPv4Datagram) : forward table dgram = due table dgram := by
  have all : table.filter (fun entry => entry.Clean) = table :=
    List.filter_eq_self.mpr fun entry member => by simpa using clean entry member
  have expired : dgram.header.ttl ≤ 1 ↔ ¬ 2 ≤ dgram.header.ttl.toNat := by
    rw [UInt8.le_iff_toNat_le, show (1 : UInt8).toNat = 1 from rfl]
    omega
  rw [forward_eq short, all, due]
  simp only [expired]
  split <;> rename_i old <;> simp [old]

/-- `route` ends with every queue empty, and has made exactly the calls that are
due, in the order of the interfaces and of each queue: the router it leaves is the
one without the waiting datagrams after these calls, with the same table and the
same interfaces. -/
theorem route_forwards_each_once (r : Router) (short : ∀ entry ∈ r.routingTable, entry.prefixLength.toNat ≤ 32)
    (clean : ∀ entry ∈ r.routingTable, entry.Clean)
    (valid : ∀ entry ∈ r.routingTable, entry.interfaceNum < r.interfaces.length)
    (wellFormed : ∀ i ∈ r.interfaces, ∀ dgram ∈ i.datagramsOut, dgram.WellFormed) :
    ∃ calls t, r.route = .ok (calls, t) ∧
      calls = r.interfaces.flatMap (fun i => i.datagramsOut.filterMap (due r.routingTable)) ∧
      calls.foldlM sendDatagram r.emptied = .ok t ∧ t.fixture = r.fixture ∧
      ∀ i ∈ t.interfaces, i.datagramsOut = [] := by
  have routable : Routable r := by
    refine ⟨⟨short, valid⟩, fun n dgram member _ => ?_⟩
    by_cases inside : n < r.interfaces.length
    · rw [queue_eq_of_lt inside] at member
      exact wellFormed _ (List.getElem_mem inside) dgram member
    · simp [queue, List.getElem?_eq_none (Nat.not_lt.mp inside)] at member
  obtain ⟨t, routed, _, empty⟩ := forwards_routable.route routable
  have same : forward r.routingTable = due r.routingTable := funext (forward_eq_due short clean)
  rw [same] at routed
  have performed := routeFrom_performs routed
  rw [emptied_of_empty empty] at performed
  have kept : r.emptied.fixture = r.fixture := by
    simp [fixture, emptied]
  exact ⟨_, t, routed, rfl, performed, (performs_fixture performed).trans kept, empty⟩

/-- Two interfaces; one datagram waits on its own outbound interface, one on the
other. -/
def twoWaiting : Router where
  interfaces := [
    { toNetworkInterface := .new (.repeated 2) 0x0a000001, datagramsOut := [datagramTo 0x0a000002] },
    { toNetworkInterface := .new (.repeated 3) 0xc0a80001, datagramsOut := [datagramTo 0x0a000003] }]
  routingTable := [⟨0x0a000000, 8, none, 0⟩]

theorem route_forwards_each_once_twoWaiting :
    (twoWaiting.interfaces.flatMap (fun i => i.datagramsOut.filterMap (due twoWaiting.routingTable))).length = 2 ∧
    ∃ calls t, twoWaiting.route = .ok (calls, t) ∧
      calls = twoWaiting.interfaces.flatMap (fun i => i.datagramsOut.filterMap (due twoWaiting.routingTable)) ∧
      calls.foldlM sendDatagram twoWaiting.emptied = .ok t ∧ t.fixture = twoWaiting.fixture ∧
      ∀ i ∈ t.interfaces, i.datagramsOut = [] := by
  have empty : ∀ dst, (datagramTo dst).WellFormed := fun dst =>
    ⟨rfl, (by decide : 5 ≤ (5 : UInt8).toNat ∧ (5 : UInt8).toNat ≤ 15),
      (by decide : 0 = ((20 : UInt16) - 4 * UInt16.ofNat (5 : UInt8).toNat).toNat)⟩
  refine ⟨by decide, route_forwards_each_once twoWaiting (by decide) (by decide) (by decide) ?_⟩
  simp only [twoWaiting, List.forall_mem_cons, List.not_mem_nil, false_imp_iff, implies_true, and_true]
  exact ⟨empty _, empty _⟩

end Sponge.Router
