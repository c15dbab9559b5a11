import Sponge.Adapter
import Sponge.TCP.Sendable
import Sponge.Wire.RoundTrip

/-! What a socket can rely on. An adapter puts on the wire only datagrams of the
segments it was given, and whatever adapter of its kind reads one of them returns
that segment, with other ports and another checksum, or nothing. An adapter
throws only if a system call fails. -/
namespace Sponge

/-- `other` is `seg` up to what an adapter writes into its header. -/
def TCPSegment.Same (seg other : TCPSegment) : Prop :=
  ∃ sport dport cksum, other =
    { seg with header := { seg.header with sport := sport, dport := dport, cksum := cksum } }

/-- A connection does not look at the ports or the checksum. -/
theorem TCPSegment.Same.segmentReceived {seg other : TCPSegment} (same : seg.Same other) (c : TCPConnection) :
    c.segmentReceived other = c.segmentReceived seg := by
  obtain ⟨_, _, _, rfl⟩ := same
  rfl

/-- What the answers of the kernel may be: every call succeeds, a datagram that
is taken is taken whole, and this datagram can be read. -/
class Device (δ : Type) where
  Lawful : δ → Prop
  Whole : δ → Prop
  Gives : δ → Buffer → Prop

instance : Device Kernel where
  Lawful := Kernel.Lawful
  Whole k := ∀ fd views n, k.writev fd views = .ok n → n = views.size
  Gives k bytes := ∃ fd size, k.read fd size = .ok bytes

/-- A datagram socket rejects what it cannot send whole. -/
structure DatagramKernel.Lawful (k : DatagramKernel) : Prop where
  recvfrom : ∀ sock mtu, ∃ source payload, k.recvfrom sock mtu = .ok (source, payload) ∧ payload.length ≤ mtu
  sendmsg : ∀ sock destination views, k.sendmsg sock destination views = .ok views.size

instance : Device DatagramKernel where
  Lawful := DatagramKernel.Lawful
  Whole _ := True
  Gives k bytes := ∃ sock mtu source, k.recvfrom sock mtu = .ok (source, bytes)

/-- The laws of an adapter that has been given the segments `written`. -/
class LawfulFdAdapter (α : Type) {δ : outParam Type} [FdAdapter α δ] [Device δ] where
  Kept : List TCPSegment → α → Prop
  read : ∀ {written : List TCPSegment} {a : α} (k : δ), Device.Whole k → Kept written a →
    Outcome (FdAdapter.read k a)
      (fun out => Kept written out.2 ∧ (FdAdapter.fd a).readCount ≠ (FdAdapter.fd out.2).readCount)
      (¬ Device.Lawful k)
  write : ∀ {written : List TCPSegment} {a : α} (k : δ) {seg : TCPSegment}, Device.Whole k → seg.Sendable →
    Kept written a → Outcome (FdAdapter.write k seg a) (Kept (written ++ [seg])) (¬ Device.Lawful k)
  tick : ∀ {written : List TCPSegment} {a : α} (k : δ) (ms : Nat), Device.Whole k → Kept written a →
    Outcome (FdAdapter.tick k ms a) (Kept written) (¬ Device.Lawful k)
  setListening : ∀ {written : List TCPSegment} {a : α} (l : Bool), Kept written a →
    Kept written (FdAdapter.setListening l a)
  configure : ∀ {written : List TCPSegment} {a : α} (cfg : LossyAdapterConfig), Kept written a →
    Kept written (FdAdapter.configure cfg a)
  opened : ∀ {written : List TCPSegment} {a : α}, Kept written a → (FdAdapter.fd a).closed = false
  honest : ∀ {written : List TCPSegment} {a reader after : α} {k : δ} {seg : TCPSegment},
    Kept written a → (∀ bytes, Device.Gives k bytes → bytes ∈ (FdAdapter.fd a).sent) →
    FdAdapter.read k reader = .ok (some seg, after) → ∃ sent ∈ written, sent.Same seg

theorem TCPSegment.Sendable.doff_eq {seg : TCPSegment} (sendable : seg.Sendable) : seg.header.doff.toNat = 5 := by
  rw [sendable.doff]
  rfl

namespace UDPSocket

theorem recv_outcome (sock : UDPSocket) (mtu : Nat) (k : DatagramKernel) :
    Outcome (recv sock mtu k)
      (fun out => k.recvfrom sock mtu = .ok out.1 ∧
        out.2 = { sock.registerRead with received := sock.received ++ [out.1.2] }) (¬ k.Lawful) := by
  rw [recv]
  cases answer : k.recvfrom sock mtu with
  | error message =>
    intro lawful
    obtain ⟨_, _, ok, _⟩ := lawful.recvfrom sock mtu
    rw [answer] at ok
    cases ok
  | ok got =>
    obtain ⟨source, payload⟩ := got
    change Outcome (ite _ _ _) _ _
    split
    · rename_i large
      intro lawful
      obtain ⟨_, _, ok, fits⟩ := lawful.recvfrom sock mtu
      rw [answer] at ok
      cases ok
      omega
    · exact ⟨rfl, rfl⟩

theorem sendto_outcome (sock : UDPSocket) (destination : Address) (payload : BufferViewList) (k : DatagramKernel) :
    Outcome (sendto sock destination payload k)
      (· = { sock.registerWrite with sent := sock.sent ++ [payload.flatten] }) (¬ k.Lawful) := by
  rw [sendto]
  cases answer : k.sendmsg sock destination payload with
  | error message =>
    intro lawful
    rw [lawful.sendmsg] at answer
    cases answer
  | ok n =>
    change Outcome (ite _ _ _) _ _
    split
    · rename_i cut
      intro lawful
      rw [lawful.sendmsg] at answer
      cases answer
      exact cut rfl
    · rfl

end UDPSocket

namespace TCPOverUDPSocketAdapter

variable {written : List TCPSegment} {a : TCPOverUDPSocketAdapter} {seg : TCPSegment}

/-- The datagram made of a segment under some configuration. -/
def wire (a : TCPOverUDPSocketAdapter) (seg : TCPSegment) : Buffer :=
  ((a.withPorts seg).headerOut 0).bytes ++ seg.payload

/-- Every datagram sent holds a segment that was given to the adapter. -/
structure Kept (written : List TCPSegment) (a : TCPOverUDPSocketAdapter) : Prop where
  opened : a.sock.closed = false
  sent : ∀ bytes ∈ a.sock.sent, ∃ b : TCPOverUDPSocketAdapter, ∃ seg ∈ written, seg.Sendable ∧ bytes = b.wire seg

theorem accept_sock (a : TCPOverUDPSocketAdapter) (source : Address) (payload : Buffer) :
    (a.accept source payload).2.sock = a.sock := by
  unfold accept
  dsimp only
  split_ifs <;> rfl

theorem accept_parsed {source : Address} {payload : Buffer} (returned : (a.accept source payload).1 = some seg) :
    ({} : TCPSegment).parse payload 0 = (.noError, seg) := by
  unfold accept at returned
  rcases parsed : ({} : TCPSegment).parse payload 0 with ⟨result, got⟩
  rw [parsed] at returned
  dsimp only at returned
  split_ifs at returned with other failed
  all_goals
    cases returned
    rw [show result = .noError by simpa using failed]

theorem parse_wire (sendable : seg.Sendable) : ({} : TCPSegment).parse (a.wire seg) 0 =
    (.noError, { header := (a.withPorts seg).headerOut 0, payload := seg.payload }) := by
  have doff : (a.withPorts seg).header.doff.toNat = 5 := sendable.doff_eq
  have small : (a.withPorts seg).payload.length ≤ 1452 := sendable.small
  have zero : (0 : UInt32).toNat = 0 := rfl
  exact TCPSegment.parse_serialized (a.withPorts seg) 0 (by omega) (by omega) (by omega) {}

theorem read_outcome (kept : Kept written a) (k : DatagramKernel) :
    Outcome (read k a) (fun out => Kept written out.2 ∧ a.sock.readCount ≠ out.2.sock.readCount)
      (¬ k.Lawful) := by
  refine (UDPSocket.recv_outcome a.sock _ k).bind ?_
  rintro ⟨⟨source, payload⟩, sock⟩ ⟨_, eq⟩
  dsimp only at eq
  subst eq
  refine ⟨⟨?_, ?_⟩, ?_⟩
  · rw [accept_sock]
    exact kept.opened
  · rw [accept_sock]
    exact kept.sent
  · rw [accept_sock]
    simp [FileDescriptor.registerRead]

theorem write_outcome (kept : Kept written a) (sendable : seg.Sendable) (k : DatagramKernel) :
    Outcome (write k seg a) (Kept (written ++ [seg])) (¬ k.Lawful) := by
  have long : 5 ≤ (a.withPorts seg).header.doff.toNat := sendable.doff_eq.ge
  rw [write, TCPSegment.serialize_eq _ long]
  refine (UDPSocket.sendto_outcome a.sock a.config.destination _ k).bind ?_
  rintro _ rfl
  refine ⟨kept.opened, fun bytes member => ?_⟩
  rcases List.mem_append.mp member with old | new
  · obtain ⟨b, other, known, rest⟩ := kept.sent bytes old
    exact ⟨b, other, List.mem_append_left _ known, rest⟩
  · refine ⟨a, seg, List.mem_append_right _ (List.mem_singleton.mpr rfl), sendable, ?_⟩
    rw [List.mem_singleton.mp new, wire]
    simp [withPorts]

instance : LawfulFdAdapter TCPOverUDPSocketAdapter where
  Kept := Kept
  read k _ kept := read_outcome kept k
  write k _ _ sendable kept := write_outcome kept sendable k
  tick _ _ _ kept := kept
  setListening _ kept := ⟨kept.opened, kept.sent⟩
  configure _ kept := ⟨kept.opened, kept.sent⟩
  opened := Kept.opened
  honest {written a reader after k seg} kept gives eq := by
    obtain ⟨⟨⟨source, payload⟩, sock⟩, got, returned⟩ := Run.bind_eq_ok.mp eq
    have answer := ((UDPSocket.recv_outcome reader.sock _ k).of_ok got).1
    obtain ⟨b, other, known, sendable, rfl⟩ := kept.sent payload (gives payload ⟨_, _, source, answer⟩)
    have parsed := accept_parsed (congrArg Prod.fst (Except.ok.inj returned))
    rw [parse_wire sendable] at parsed
    cases parsed
    exact ⟨other, known, _, _, _, rfl⟩

end TCPOverUDPSocketAdapter

namespace TCPOverIPv4Adapter

/-- On one buffer the adapter does not throw, and what it returns is what the
buffer parses to. -/
theorem unwrapTcpInIp_parsed (a : TCPOverIPv4Adapter) {dgram : IPv4Datagram} {buffer : Buffer}
    (single : dgram.payload = [buffer]) : ∃ ret after, a.unwrapTcpInIp dgram = .ok (ret, after) ∧
      ∀ seg, ret = some seg → ({} : TCPSegment).parse buffer dgram.header.pseudoCksum = (.noError, seg) := by
  unfold unwrapTcpInIp
  simp only [single, BufferList.toBuffer, bind, Except.bind]
  rcases parsed : ({} : TCPSegment).parse buffer dgram.header.pseudoCksum with ⟨result, got⟩
  dsimp only
  have accepted : ¬ result ≠ .noError → ∀ (b : TCPOverIPv4Adapter) seg, (b.fromPeer got).1 = some seg →
      (result, got) = (.noError, seg) := by
    intro fine b seg returned
    unfold fromPeer at returned
    split_ifs at returned
    cases returned
    rw [not_not.mp fine]
  split_ifs with dst src proto failed foreign listening opening
  all_goals first
    | exact ⟨_, _, rfl, accepted failed _⟩
    | exact ⟨none, _, rfl, by simp⟩

/-- The bytes of a datagram around a segment. -/
def wire (a : TCPOverIPv4Adapter) (seg : TCPSegment) : Buffer :=
  (a.wrapped seg).headerOut.bytes ++ (a.wrapped seg).payload.concatenate

variable {a : TCPOverIPv4Adapter} {seg : TCPSegment}

/-- The datagram that is read back from the wire. -/
def received (a : TCPOverIPv4Adapter) (seg : TCPSegment) : IPv4Datagram where
  header := { (a.wrapped seg).headerOut with offset := (a.wrapped seg).header.offset &&& 0x1fff }
  payload := [(a.segmentHeader seg).bytes ++ seg.payload]

theorem wrapped_sendable (sendable : seg.Sendable) : (a.wrapped seg).WellFormed ∧
    ({} : IPv4Datagram).parse (a.wire seg) = (.noError, a.received seg) := by
  have doff := sendable.doff_eq
  have small : seg.payload.length ≤ 1452 := sendable.small
  have wellFormed := wrapped_wellFormed (a := a) doff.ge (by omega)
  have whole : (a.wrapped seg).header.len.toNat =
      4 * (a.wrapped seg).header.hlen.toNat + (a.wrapped seg).payload.size := by
    rw [wrapped_size doff.ge]
    exact (headerFor_len (by omega)).trans (Nat.add_assoc _ _ _)
  refine ⟨wellFormed, ?_⟩
  rw [wire, IPv4Datagram.parse_serialized wellFormed whole]
  simp [received, wrapped, BufferList.concatenate]

/-- Whoever reads the datagram gets its segment, or nothing. -/
theorem received_honest (sendable : seg.Sendable) (reader : TCPOverIPv4Adapter) :
    ∃ ret after, reader.unwrapTcpInIp (a.received seg) = .ok (ret, after) ∧ ∀ got, ret = some got → seg.Same got := by
  have doff := sendable.doff_eq
  have small : seg.payload.length ≤ 1452 := sendable.small
  obtain ⟨ret, after, eq, parsed⟩ := reader.unwrapTcpInIp_parsed (show (a.received seg).payload = _ from rfl)
  refine ⟨ret, after, eq, fun got returned => ?_⟩
  have read := parsed got returned
  have pseudo : (a.received seg).header.pseudoCksum = (a.headerFor seg).pseudoCksum := rfl
  rw [pseudo, parse_wrapped doff.ge (by omega) (by omega)] at read
  cases read
  exact ⟨_, _, _, rfl⟩

end TCPOverIPv4Adapter

namespace FileDescriptor

variable {fd : FileDescriptor} {k : Kernel}

/-- A device that takes whole datagrams gets this one in one write. -/
theorem write_whole (fd : FileDescriptor) (buffer : BufferViewList) (whole : Device.Whole k) :
    Outcome (fd.write buffer true k)
      (fun out => out.2.sent = fd.sent ++ [buffer.flatten] ∧ out.2.readCount = fd.readCount ∧
        out.2.closed = fd.closed) (¬ k.Lawful) := by
  rw [write, writeLoop]
  refine ((fd.writeOnce_outcome buffer k).and (Outcome.of_forall (fun out eq => eq))).bind ?_
  rintro ⟨n, rest, after⟩ ⟨⟨writes, left, _, _, sent⟩, eq⟩
  have all : n = buffer.size := by
    obtain ⟨m, answer, checked⟩ := Run.bind_eq_ok.mp eq
    have took := whole fd buffer m answer
    split_ifs at checked
    obtain ⟨_, _, made⟩ := Run.bind_eq_ok.mp checked
    cases made
    exact took
  have done : rest.size = 0 := by
    rw [BufferViewList.size_eq, left, all, BufferViewList.size_eq]
    simp
  change Outcome (ite _ _ _) _ _
  rw [if_neg (fun again => again.2 done)]
  refine ⟨?_, writes.reads, writes.closed⟩
  rw [sent, all, BufferViewList.size_eq]
  simp

end FileDescriptor

namespace TCPOverIPv4OverTunFdAdapter

variable {written : List TCPSegment} {a : TCPOverIPv4OverTunFdAdapter} {seg : TCPSegment} {k : Kernel}

/-- Every datagram sent holds a segment that was given to the adapter. -/
structure Kept (written : List TCPSegment) (a : TCPOverIPv4OverTunFdAdapter) : Prop where
  opened : a.tun.closed = false
  sent : ∀ bytes ∈ a.tun.sent, ∃ b : TCPOverIPv4Adapter, ∃ seg ∈ written, seg.Sendable ∧ bytes = b.wire seg

theorem parse_single (into : IPv4Datagram) (bytes : Buffer) :
    ∃ buffer, (into.parse bytes).2.payload = [buffer] := by
  unfold IPv4Datagram.parse
  dsimp only
  split_ifs <;> exact ⟨_, rfl⟩

theorem read_outcome (kept : Kept written a) (k : Kernel) :
    Outcome (read k a) (fun out => Kept written out.2 ∧ a.tun.readCount ≠ out.2.tun.readCount) (¬ k.Lawful) := by
  refine (a.tun.read_outcome _ k).bind ?_
  rintro ⟨bytes, tun⟩ ⟨_, reads⟩
  dsimp only at reads
  have sent : ∀ base : TCPOverIPv4Adapter, Kept written { toTCPOverIPv4Adapter := base, tun := tun } := by
    intro base
    refine ⟨reads.closed.trans kept.opened, ?_⟩
    rw [reads.sent]
    exact kept.sent
  have counted : a.tun.readCount ≠ tun.readCount := by
    rw [reads.counted]
    simp
  obtain ⟨buffer, single⟩ := parse_single {} bytes
  rcases parsed : ({} : IPv4Datagram).parse bytes with ⟨result, dgram⟩
  rw [parsed] at single
  dsimp only
  rw [parsed]
  cases result with
  | noError =>
    obtain ⟨ret, base, eq, _⟩ := a.unwrapTcpInIp_parsed single
    simp only [eq]
    exact ⟨sent base, counted⟩
  | _ => exact ⟨sent _, counted⟩

theorem write_outcome (kept : Kept written a) (sendable : seg.Sendable) (k : Kernel) (whole : Device.Whole k) :
    Outcome (write k seg a) (Kept (written ++ [seg])) (¬ k.Lawful) := by
  have wellFormed := (TCPOverIPv4Adapter.wrapped_sendable (a := a.toTCPOverIPv4Adapter) sendable).1
  rw [write, TCPOverIPv4Adapter.wrapTcpInIp_eq sendable.doff_eq.ge]
  change Outcome ((a.wrapped seg).serialize >>= _) _ _
  rw [wellFormed.serialize]
  refine (a.tun.write_whole _ whole).bind ?_
  rintro ⟨n, tun⟩ ⟨sent, _, closed⟩
  dsimp only at sent closed
  refine ⟨closed.trans kept.opened, fun bytes member => ?_⟩
  rw [sent] at member
  rcases List.mem_append.mp member with old | new
  · obtain ⟨b, other, known, rest⟩ := kept.sent bytes old
    exact ⟨b, other, List.mem_append_left _ known, rest⟩
  · exact ⟨a.toTCPOverIPv4Adapter, seg, List.mem_append_right _ (List.mem_singleton.mpr rfl), sendable,
      List.mem_singleton.mp new⟩

instance : LawfulFdAdapter TCPOverIPv4OverTunFdAdapter where
  Kept := Kept
  read k _ kept := read_outcome kept k
  write k _ whole sendable kept := write_outcome kept sendable k whole
  tick _ _ _ kept := kept
  setListening _ kept := ⟨kept.opened, kept.sent⟩
  configure _ kept := ⟨kept.opened, kept.sent⟩
  opened := Kept.opened
  honest {written a reader after k seg} kept gives eq := by
    obtain ⟨⟨got, tun⟩, answer, returned⟩ := Run.bind_eq_ok.mp eq
    have read := ((reader.tun.read_outcome _ k).of_ok answer).1
    obtain ⟨b, other, known, sendable, rfl⟩ := kept.sent got (gives got ⟨_, _, read⟩)
    simp only [(TCPOverIPv4Adapter.wrapped_sendable (a := b) sendable).2] at returned
    obtain ⟨ret, base, unwrapped, honest⟩ := TCPOverIPv4Adapter.received_honest (a := b) sendable
      reader.toTCPOverIPv4Adapter
    rw [unwrapped] at returned
    cases returned
    exact ⟨other, known, honest seg rfl⟩

end TCPOverIPv4OverTunFdAdapter

namespace LossyFdAdapter

variable {α δ : Type} [FdAdapter α δ] [Device δ] [LawfulFdAdapter α] {written : List TCPSegment}
  {a : LossyFdAdapter α}

theorem shouldDrop_adapter (a : LossyFdAdapter α) (uplink : Bool) : (a.shouldDrop uplink).2.adapter = a.adapter := by
  unfold shouldDrop
  dsimp only
  split_ifs <;> rfl

/-- Dropping a segment is as if it had never been given to the adapter inside, and
then the adapter inside may as well have been given it. -/
def Kept (written : List TCPSegment) (a : LossyFdAdapter α) : Prop :=
  ∃ inside, inside ⊆ written ∧ LawfulFdAdapter.Kept inside a.adapter

instance : LawfulFdAdapter (LossyFdAdapter α) where
  Kept := Kept
  read {written a} k whole kept := by
    obtain ⟨inside, fewer, kept⟩ := kept
    refine (LawfulFdAdapter.read k whole kept).bind ?_
    rintro ⟨ret, adapter⟩ ⟨kept, counted⟩
    have same := shouldDrop_adapter { a with adapter := adapter } false
    refine ⟨⟨inside, fewer, ?_⟩, ?_⟩
    · rw [same]
      exact kept
    · change _ ≠ (FdAdapter.fd (shouldDrop _ _).2.adapter).readCount
      rw [same]
      exact counted
  write {written a} k seg whole sendable kept := by
    obtain ⟨inside, fewer, kept⟩ := kept
    have same := shouldDrop_adapter a true
    change Outcome (write k seg a) _ _
    unfold write
    generalize a.shouldDrop true = draw at same
    rw [← same] at kept
    dsimp only
    split
    · exact ⟨inside, fun _ member => List.mem_append_left _ (fewer member), kept⟩
    · refine (LawfulFdAdapter.write k whole sendable kept).bind ?_
      intro adapter kept
      refine ⟨inside ++ [seg], ?_, kept⟩
      intro other member
      exact List.mem_append.mpr ((List.mem_append.mp member).imp_left (fun old => fewer old))
  tick {written a} k ms whole kept := by
    obtain ⟨inside, fewer, kept⟩ := kept
    exact (LawfulFdAdapter.tick k ms whole kept).bind (fun adapter kept => ⟨inside, fewer, kept⟩)
  setListening l kept := by
    obtain ⟨inside, fewer, kept⟩ := kept
    exact ⟨inside, fewer, LawfulFdAdapter.setListening l kept⟩
  configure cfg kept := by
    obtain ⟨inside, fewer, kept⟩ := kept
    exact ⟨inside, fewer, LawfulFdAdapter.configure cfg kept⟩
  opened {written a} kept := by
    obtain ⟨inside, _, kept⟩ := kept
    exact LawfulFdAdapter.opened (a := a.adapter) kept
  honest {written a reader after k seg} kept gives eq := by
    obtain ⟨inside, fewer, kept⟩ := kept
    obtain ⟨⟨ret, adapter⟩, got, returned⟩ := Run.bind_eq_ok.mp eq
    have same : ret = some seg := by
      have draw := congrArg Prod.fst (Except.ok.inj returned)
      dsimp only at draw
      split at draw
      · cases draw
      · exact draw
    rw [same] at got
    obtain ⟨other, known, honest⟩ := LawfulFdAdapter.honest kept gives got
    exact ⟨other, fewer known, honest⟩

end LossyFdAdapter
end Sponge
