import Sponge.Wire.Adapter
import Sponge.Wire.Checksum
import Sponge.Lib.Run

/-! Whom an adapter listens to over time. A listening adapter takes over the
addresses of the first SYN it returns and stops listening; from then on, as when
it was connected from the start, its configuration does not change. -/
namespace Sponge.TCPOverIPv4Adapter

open InternetChecksum

variable {a : TCPOverIPv4Adapter} {dgram : IPv4Datagram} {buffer : Buffer} {seg : TCPSegment}

/-- The datagram and its segment come from the configured peer, to us. -/
structure OfPeer (config : FdAdapterConfig) (dgram : IPv4Datagram) (seg : TCPSegment) : Prop where
  src : dgram.header.src = config.destination.ipv4Numeric
  dst : dgram.header.dst = config.source.ipv4Numeric
  sport : seg.header.sport = config.destination.port
  dport : seg.header.dport = config.source.port

instance (config : FdAdapterConfig) (dgram : IPv4Datagram) (seg : TCPSegment) :
    Decidable (OfPeer config dgram seg) :=
  decidable_of_iff (dgram.header.src = config.destination.ipv4Numeric ∧ dgram.header.dst = config.source.ipv4Numeric ∧
    seg.header.sport = config.destination.port ∧ seg.header.dport = config.source.port)
    ⟨fun h => ⟨h.1, h.2.1, h.2.2.1, h.2.2.2⟩, fun h => ⟨h.src, h.dst, h.sport, h.dport⟩⟩

/-- A SYN without RST for our port, with a valid checksum. -/
structure Opens (a : TCPOverIPv4Adapter) (dgram : IPv4Datagram) (buffer : Buffer) (seg : TCPSegment) : Prop where
  parsed : ({} : TCPSegment).parse buffer dgram.header.pseudoCksum = (.noError, seg)
  checksum : (({ sum := dgram.header.pseudoCksum.toNat } : InternetChecksum).add buffer).value = 0
  syn : seg.header.syn = true
  rst : seg.header.rst = false
  dport : seg.header.dport = a.config.source.port

/-- What a call that returns a segment leaves. -/
structure Returns (a : TCPOverIPv4Adapter) (dgram : IPv4Datagram) (buffer : Buffer) (seg : TCPSegment)
    (after : TCPOverIPv4Adapter) : Prop where
  peer : OfPeer after.config dgram seg
  settled : after.listening = false
  opens : a.listening = true → a.Opens dgram buffer seg
  kept : a.listening = false → after = a

theorem checksum_of_parse {start : UInt32} (parsed : ({} : TCPSegment).parse buffer start = (.noError, seg)) :
    (({ sum := start.toNat } : InternetChecksum).add buffer).value = 0 := by
  by_contra bad
  simp [Sponge.TCPSegment.parse, bad] at parsed

/-- A listening adapter. -/
theorem unwrapTcpInIp_listening (single : dgram.payload = [buffer]) (listening : a.listening = true) :
    a.unwrapTcpInIp dgram = .ok (none, a) ∨
      ∃ seg after, a.unwrapTcpInIp dgram = .ok (some seg, after) ∧ Returns a dgram buffer seg after := by
  unfold unwrapTcpInIp
  simp only [listening, Bool.true_eq_false, false_and, if_false, if_true, single, BufferList.toBuffer, bind,
    Except.bind]
  rcases parsed : ({} : TCPSegment).parse buffer dgram.header.pseudoCksum with ⟨result, seg⟩
  dsimp only
  split_ifs with proto failed foreign opening
  · exact Or.inl rfl
  · exact Or.inl rfl
  · exact Or.inl rfl
  · obtain rfl : result = .noError := by simpa using failed
    have port : seg.header.dport = a.config.source.port := by simpa using foreign
    refine Or.inr ⟨seg, ⟨⟨⟨dgram.header.dst, a.config.source.port⟩, ⟨dgram.header.src, seg.header.sport⟩⟩, false⟩,
      ?_, ⟨rfl, rfl, rfl, port⟩, rfl, ?_, ?_⟩
    · simp [fromPeer]
    · exact fun _ => ⟨parsed, checksum_of_parse parsed, opening.1, opening.2, port⟩
    · simp [listening]
  · exact Or.inl rfl

/-- An adapter that has a peer. -/
theorem unwrapTcpInIp_settled (single : dgram.payload = [buffer]) (settled : a.listening = false) :
    a.unwrapTcpInIp dgram = .ok (none, a) ∨
      ∃ seg after, a.unwrapTcpInIp dgram = .ok (some seg, after) ∧ Returns a dgram buffer seg after := by
  unfold unwrapTcpInIp
  simp only [settled, true_and, Bool.false_eq_true, if_false, single, BufferList.toBuffer, bind, Except.bind]
  rcases parsed : ({} : TCPSegment).parse buffer dgram.header.pseudoCksum with ⟨result, seg⟩
  dsimp only
  split_ifs with dst src proto failed foreign
  · exact Or.inl rfl
  · exact Or.inl rfl
  · exact Or.inl rfl
  · exact Or.inl rfl
  · exact Or.inl rfl
  · unfold fromPeer
    split_ifs with other
    · exact Or.inl rfl
    · refine Or.inr ⟨seg, a, rfl, ⟨?_, ?_, ?_, ?_⟩, settled, ?_, fun _ => rfl⟩
      · simpa using src
      · simpa using dst
      · simpa using other
      · simpa using foreign
      · simp [settled]

/-- Either nothing is returned and nothing changes, or a segment of the peer the
adapter has afterwards. -/
theorem unwrapTcpInIp_cases (a : TCPOverIPv4Adapter) (single : dgram.payload = [buffer]) :
    a.unwrapTcpInIp dgram = .ok (none, a) ∨
      ∃ seg after, a.unwrapTcpInIp dgram = .ok (some seg, after) ∧ Returns a dgram buffer seg after := by
  cases listening : a.listening with
  | true => exact unwrapTcpInIp_listening single listening
  | false => exact unwrapTcpInIp_settled single listening

/-- An adapter with the segments it has returned, each with its datagram. -/
structure Inbox where
  adapter : TCPOverIPv4Adapter
  returned : List (IPv4Datagram × TCPSegment) := []
deriving DecidableEq, Repr

namespace Inbox

def receive (inbox : Inbox) (dgram : IPv4Datagram) : Except String Inbox := do
  let (seg, adapter) ← inbox.adapter.unwrapTcpInIp dgram
  return { adapter := adapter, returned := inbox.returned ++ (seg.map (fun seg => (dgram, seg))).toList }

/-- Everything returned so far is from the configured peer. -/
structure Locked (inbox : Inbox) : Prop where
  peer : ∀ entry ∈ inbox.returned, OfPeer inbox.adapter.config entry.1 entry.2
  settled : inbox.returned ≠ [] → inbox.adapter.listening = false

theorem Locked.receive {inbox : Inbox} (locked : Locked inbox) (single : dgram.payload = [buffer]) :
    ∃ next, inbox.receive dgram = .ok next ∧ Locked next := by
  unfold Inbox.receive
  rcases inbox.adapter.unwrapTcpInIp_cases single with eq | ⟨seg, after, eq, returns⟩
  · rw [eq]
    refine ⟨_, rfl, ?_⟩
    rw [Option.map_none, Option.toList_none, List.append_nil]
    exact locked
  · rw [eq]
    refine ⟨_, rfl, ?_, fun _ => returns.settled⟩
    intro entry member
    rcases List.mem_append.mp member with member | member
    · -- Something was returned before, so this call has changed nothing.
      have same := returns.kept (locked.settled (List.ne_nil_of_mem member))
      rw [same]
      exact locked.peer entry member
    · obtain rfl : entry = (dgram, seg) := by simpa using member
      exact returns.peer

/-- The adapter locks onto one peer. Over any datagrams of one buffer each, all
that was returned has the four addresses of the configuration now stored, and
an adapter that has returned a segment does not listen; and the next call
changes nothing if it returns nothing, and settles a listening adapter if it
returns a segment, which is then an opening one. -/
theorem run_locks_onto_peer (a : TCPOverIPv4Adapter) (dgrams : List IPv4Datagram)
    (single : ∀ dgram ∈ dgrams, ∃ buffer, dgram.payload = [buffer]) :
    ∃ inbox, dgrams.foldlM receive { adapter := a } = .ok inbox ∧
      (∀ entry ∈ inbox.returned, OfPeer inbox.adapter.config entry.1 entry.2) ∧
      (inbox.returned ≠ [] → inbox.adapter.listening = false) ∧
      ∀ dgram buffer, dgram.payload = [buffer] →
        ∃ result after, inbox.adapter.unwrapTcpInIp dgram = .ok (result, after) ∧
          (result = none → after = inbox.adapter) ∧
          ∀ seg, result = some seg → inbox.adapter.listening = true →
            inbox.adapter.Opens dgram buffer seg ∧ after.listening = false := by
  have start : Locked { adapter := a } := ⟨by simp, by simp⟩
  have preserved : ∀ inbox, ∀ dgram ∈ dgrams, Locked inbox → ∃ next, inbox.receive dgram = .ok next ∧ Locked next := by
    intro inbox dgram member locked
    obtain ⟨_, one⟩ := single dgram member
    exact locked.receive one
  obtain ⟨inbox, run, locked⟩ := Run.foldlM_ok preserved start
  refine ⟨inbox, run, locked.peer, locked.settled, fun dgram buffer one => ?_⟩
  rcases inbox.adapter.unwrapTcpInIp_cases one with eq | ⟨seg, after, eq, returns⟩
  · exact ⟨_, _, eq, fun _ => rfl, by simp⟩
  · refine ⟨_, _, eq, by simp, ?_⟩
    rintro _ ⟨⟩ listening
    exact ⟨returns.opens listening, returns.settled⟩

/-- A datagram of one buffer with a segment of the configured ports. -/
def segmentFrom (a : TCPOverIPv4Adapter) (header : TCPHeader) (payload : Buffer) : IPv4Datagram :=
  match a.wrapTcpInIp { header := header, payload := payload } with
  | .ok (dgram, _) => { dgram with payload := [dgram.payload.concatenate] }
  | .error _ => { payload := [[]] }

/-- A stray segment, the SYN of a peer, the SYN of another host, and data of the peer. -/
def twoCallers : List IPv4Datagram :=
  let peer : TCPOverIPv4Adapter := { config := { source := ⟨0x0a000002, 4000⟩, destination := ⟨0x0a000001, 80⟩ } }
  let other : TCPOverIPv4Adapter := { config := { source := ⟨0x0a000003, 4000⟩, destination := ⟨0x0a000001, 80⟩ } }
  [segmentFrom peer { ack := true } [1], segmentFrom peer { syn := true } [], segmentFrom other { syn := true } [],
    segmentFrom peer { ack := true } [2]]

theorem run_locks_onto_peer_twoCallers :
    ∃ inbox, twoCallers.foldlM receive { adapter := { config := { source := ⟨0, 80⟩ }, listening := true } } = .ok inbox ∧
      inbox.returned.length = 2 ∧ (∀ entry ∈ inbox.returned, OfPeer inbox.adapter.config entry.1 entry.2) := by
  obtain ⟨inbox, run, peer, _⟩ := run_locks_onto_peer { config := { source := ⟨0, 80⟩ }, listening := true }
    twoCallers (by
      intro dgram member
      have one : ∀ dgram ∈ twoCallers, dgram.payload.length = 1 := by decide +kernel
      exact List.length_eq_one_iff.mp (one dgram member))
  have returned : (twoCallers.foldlM receive { adapter := { config := { source := ⟨0, 80⟩ }, listening := true } }).map
      (fun inbox => inbox.returned.length) = .ok 2 := by decide +kernel
  rw [run] at returned
  exact ⟨inbox, run, Except.ok.inj returned, peer⟩

end Inbox
end Sponge.TCPOverIPv4Adapter
