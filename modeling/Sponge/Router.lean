import Sponge.NetworkInterface
import Sponge.Lib.Run
import Mathlib.Data.List.MinMax

/-! The router as the source computes it. The vector of interfaces and the routing
table are lists, a next hop is its IPv4 address as a number. Every call of
`send_datagram` the router makes is part of the result. -/
namespace Sponge

structure AsyncNetworkInterface extends NetworkInterface where
  datagramsOut : List IPv4Datagram

namespace AsyncNetworkInterface

/-- The constructor inherited from `NetworkInterface`. -/
def new (ethernetAddress : EthernetAddress) (ipAddress : UInt32) : AsyncNetworkInterface where
  toNetworkInterface := .new ethernetAddress ipAddress
  datagramsOut := []

def recvFrame (i : AsyncNetworkInterface) (frame : EthernetFrame) : Except String AsyncNetworkInterface := do
  let (optionalDgram, base) ← i.toNetworkInterface.recvFrame frame
  return { toNetworkInterface := base, datagramsOut := i.datagramsOut ++ optionalDgram.toList }

def sendDatagram (i : AsyncNetworkInterface) (dgram : IPv4Datagram) (nextHop : UInt32) :
    Except String AsyncNetworkInterface := do
  let base ← i.toNetworkInterface.sendDatagram dgram nextHop
  return { i with toNetworkInterface := base }

def tick (i : AsyncNetworkInterface) (msSinceLastTick : Nat) : AsyncNetworkInterface :=
  { i with toNetworkInterface := i.toNetworkInterface.tick msSinceLastTick }

end AsyncNetworkInterface

structure RouteEntry where
  routePrefix : UInt32 := 0
  prefixLength : UInt8 := 0
  nextHop : Option UInt32 := none
  interfaceNum : Nat := 0
deriving DecidableEq, Repr

/-- For prefix lengths up to 32; the shift of the source is undefined above. -/
def RouteEntry.mask (entry : RouteEntry) : UInt32 :=
  if entry.prefixLength = 0 then 0 else (0xffffffff : UInt32) <<< (32 - UInt32.ofNat entry.prefixLength.toNat)

/-- A call of `send_datagram` on one of the router's interfaces. -/
structure SendCall where
  interfaceNum : Nat
  dgram : IPv4Datagram
  nextHop : UInt32
deriving DecidableEq, Repr

structure Router where
  interfaces : List AsyncNetworkInterface
  routingTable : List RouteEntry

namespace Router

def new : Router := ⟨[], []⟩

def addInterface (r : Router) (interface : AsyncNetworkInterface) : Router :=
  { r with interfaces := r.interfaces ++ [interface] }

def addRoute (r : Router) (routePrefix : UInt32) (prefixLength : UInt8) (nextHop : Option UInt32)
    (interfaceNum : Nat) : Router :=
  { r with routingTable := r.routingTable ++ [⟨routePrefix, prefixLength, nextHop, interfaceNum⟩] }

/-- The two counters of the loop over the table, `-1` before the first match. -/
structure Match where
  matchNum : Int := -1
  matchLen : Int := -1
deriving DecidableEq, Repr

def matchEntry (dst : UInt32) (m : Match) (entry : RouteEntry × Nat) : Match :=
  if (dst &&& entry.1.mask) = entry.1.routePrefix ∧ m.matchLen < entry.1.prefixLength.toNat then
    { matchNum := entry.2, matchLen := entry.1.prefixLength.toNat }
  else m

def longestMatch (table : List RouteEntry) (dst : UInt32) : Match :=
  table.zipIdx.foldl (matchEntry dst) {}

/-- What `route_one_datagram` decides: the call it makes, if any. -/
def forward (table : List RouteEntry) (dgram : IPv4Datagram) : Option SendCall :=
  if dgram.header.ttl ≤ 1 then none
  else
    let m := longestMatch table dgram.header.dst
    if m.matchNum = -1 then none
    else
      let dgram := { dgram with header := { dgram.header with ttl := dgram.header.ttl - 1 } }
      table[m.matchNum.toNat]?.map fun matchEntry =>
        match matchEntry.nextHop with
        | some nextHop => ⟨matchEntry.interfaceNum, dgram, nextHop⟩
        | none => ⟨matchEntry.interfaceNum, dgram, dgram.header.dst⟩

/-- The call on the interface. An interface number that is not valid has no
meaning in the source; here it is an error. -/
def sendDatagram (r : Router) (call : SendCall) : Except String Router :=
  match r.interfaces[call.interfaceNum]? with
  | none => .error "interface number out of range"
  | some interface => do
    let interface ← interface.sendDatagram call.dgram call.nextHop
    return { r with interfaces := r.interfaces.set call.interfaceNum interface }

def routeOneDatagram (r : Router) (dgram : IPv4Datagram) : Except String (List SendCall × Router) :=
  match forward r.routingTable dgram with
  | none => .ok ([], r)
  | some call => do
    let r ← r.sendDatagram call
    return ([call], r)

/-- The datagrams that wait in `datagrams_out` of interface `n`. -/
def queue (r : Router) (n : Nat) : List IPv4Datagram :=
  (r.interfaces[n]?.map AsyncNetworkInterface.datagramsOut).getD []

def pop (r : Router) (n : Nat) : Router :=
  { r with interfaces := r.interfaces.modify n fun i => { i with datagramsOut := i.datagramsOut.tail } }

end Router

theorem AsyncNetworkInterface.sendDatagram_datagramsOut {i t : AsyncNetworkInterface} {dgram : IPv4Datagram}
    {nextHop : UInt32} (sent : i.sendDatagram dgram nextHop = .ok t) : t.datagramsOut = i.datagramsOut := by
  obtain ⟨base, _, eq⟩ := Run.bind_eq_ok.mp sent
  rw [← Except.ok.inj eq]

namespace Router

variable {r t : Router} {n : Nat}

/-- Sending leaves every queue of received datagrams as it is. -/
theorem sendDatagram_queue {call : SendCall} (sent : r.sendDatagram call = .ok t) (n : Nat) :
    t.queue n = r.queue n := by
  unfold sendDatagram at sent
  split at sent
  · cases sent
  · rename_i interface found
    obtain ⟨after, returned, eq⟩ := Run.bind_eq_ok.mp sent
    have kept := AsyncNetworkInterface.sendDatagram_datagramsOut returned
    rw [← Except.ok.inj eq]
    by_cases same : call.interfaceNum = n
    · subst same
      have valid := (List.getElem?_eq_some_iff.mp found).1
      simp [queue, found, kept, List.getElem?_set_self valid]
    · simp [queue, List.getElem?_set_ne same]

theorem routeOneDatagram_queue {dgram : IPv4Datagram} {calls : List SendCall}
    (routed : r.routeOneDatagram dgram = .ok (calls, t)) (n : Nat) : t.queue n = r.queue n := by
  unfold routeOneDatagram at routed
  split at routed
  · cases routed
    rfl
  · obtain ⟨after, sent, eq⟩ := Run.bind_eq_ok.mp routed
    cases eq
    exact sendDatagram_queue sent n

theorem pop_queue (r : Router) (n m : Nat) : (r.pop n).queue m = if n = m then (r.queue m).tail else r.queue m := by
  unfold pop queue
  rw [List.getElem?_modify]
  by_cases same : n = m
  · subst same
    cases r.interfaces[n]? <;> simp
  · simp [same]

/-- The loop that empties one queue. The front of the queue is popped after it
was forwarded, so the loop ends because forwarding does not touch the queue. -/
def drain (r : Router) (n : Nat) : Except String (List SendCall × Router) :=
  match _waiting : r.queue n with
  | [] => .ok ([], r)
  | front :: _ =>
    match _routed : r.routeOneDatagram front with
    | .error message => .error message
    | .ok (calls, after) =>
      match (after.pop n).drain n with
      | .error message => .error message
      | .ok (more, after) => .ok (calls ++ more, after)
termination_by (r.queue n).length
decreasing_by
  rw [pop_queue, if_pos rfl, routeOneDatagram_queue _routed, _waiting]
  simp

theorem drain_nil (empty : r.queue n = []) : r.drain n = .ok ([], r) := by
  rw [drain]
  split
  · rfl
  · rename_i found
    simp [empty] at found

theorem drain_cons {front : IPv4Datagram} {rest : List IPv4Datagram} (waiting : r.queue n = front :: rest) :
    r.drain n = do
      let (calls, after) ← r.routeOneDatagram front
      let (more, after) ← (after.pop n).drain n
      return (calls ++ more, after) := by
  rw [drain]
  split
  · rename_i found
    simp [waiting] at found
  · rename_i other more found
    obtain ⟨rfl, rfl⟩ := List.cons.inj (found.symm.trans waiting)
    split <;> rename_i returned <;> rw [returned]
    · rfl
    · rename_i calls after
      change _ = (after.pop n).drain n >>= _
      cases (after.pop n).drain n <;> rfl

/-- The loop over the interfaces, from number `n` on. -/
def routeFrom (r : Router) (n : Nat) : Nat → Except String (List SendCall × Router)
  | 0 => .ok ([], r)
  | left + 1 => do
    let (calls, r) ← r.drain n
    let (more, r) ← r.routeFrom (n + 1) left
    return (calls ++ more, r)

def route (r : Router) : Except String (List SendCall × Router) := r.routeFrom 0 r.interfaces.length

end Router
end Sponge
