import Sponge.Adapter.Honest
import Sponge.NetworkInterface.Ledger

/-! The laws of the adapter over Ethernet. Between the socket and the wire stands a
network interface, which sends on what it was given at once or when the address
of the next hop is known, and ARP messages of its own. -/
namespace Sponge

open NetworkInterface

theorem EthernetFrame.parse_single (into : EthernetFrame) (bytes : Buffer) :
    ∃ buffer, (into.parse bytes).2.payload = [buffer] := ⟨_, rfl⟩

namespace TCPOverIPv4OverEthernetAdapter

variable {written : List TCPSegment} {a : TCPOverIPv4OverEthernetAdapter} {seg : TCPSegment} {k : Kernel}

/-- The datagrams that the interface is given, to any next hop. -/
def Due (written : List TCPSegment) (_ : UInt32) (dgram : IPv4Datagram) : Prop :=
  ∃ b : TCPOverIPv4Adapter, ∃ seg ∈ written, seg.Sendable ∧ dgram = b.wrapped seg

/-- The dummy frame, or one that the interface emits; anybody may claim to have any
address, for a wrong receiver reads nothing wrong. -/
def Sent (written : List TCPSegment) (a : TCPOverIPv4OverEthernetAdapter) (frame : EthernetFrame) : Prop :=
  frame = {} ∨
    Emitted (Due written) (fun _ _ => True) a.interface.ethernetAddress a.interface.ipAddress frame

structure Kept (written : List TCPSegment) (a : TCPOverIPv4OverEthernetAdapter) : Prop where
  opened : a.tap.closed = false
  ledger : Ledger (Due written) (fun _ _ => True) a.interface.ethernetAddress a.interface.ipAddress a.interface
  sent : ∀ bytes ∈ a.tap.sent, ∃ frame, Sent written a frame ∧ bytes = frame.serialize.concatenate

theorem due_wellFormed (p : UInt32) (dgram : IPv4Datagram) (due : Due written p dgram) : dgram.WellFormed := by
  obtain ⟨b, seg, _, sendable, rfl⟩ := due
  exact (TCPOverIPv4Adapter.wrapped_sendable sendable).1

theorem due_append (seg : TCPSegment) (p : UInt32) (dgram : IPv4Datagram) (due : Due written p dgram) :
    Due (written ++ [seg]) p dgram := by
  obtain ⟨b, other, member, rest⟩ := due
  exact ⟨b, other, List.mem_append_left _ member, rest⟩

theorem Kept.append (kept : Kept written a) (seg : TCPSegment) : Kept (written ++ [seg]) a where
  opened := kept.opened
  ledger := kept.ledger.mono (due_append seg)
  sent bytes member := by
    obtain ⟨frame, sent, eq⟩ := kept.sent bytes member
    exact ⟨frame, sent.imp_right (fun emitted => emitted.mono (due_append seg)), eq⟩

/-- The interface did something, and nothing went to the device. -/
theorem Kept.interface (kept : Kept written a) {i : NetworkInterface}
    (ledger : Ledger (Due written) (fun _ _ => True) a.interface.ethernetAddress a.interface.ipAddress i) :
    Kept written { a with interface := i } where
  opened := kept.opened
  ledger := by
    rw [ledger.ethernetAddress, ledger.ipAddress]
    exact ledger
  sent bytes member := by
    unfold Sent
    dsimp only
    rw [ledger.ethernetAddress, ledger.ipAddress]
    exact kept.sent bytes member

theorem writeFrames_outcome (whole : Device.Whole k) (tap : FileDescriptor) (frames : List EthernetFrame) :
    Outcome (writeFrames k tap frames)
      (fun out => (∀ bytes ∈ out.sent, bytes ∈ tap.sent ∨ ∃ frame ∈ frames, bytes = frame.serialize.concatenate) ∧
        out.readCount = tap.readCount ∧ out.closed = tap.closed) (¬ k.Lawful) := by
  refine Outcome.foldlM ?_ ⟨fun bytes member => Or.inl member, rfl, rfl⟩
  rintro fd frame member ⟨known, counted, closed⟩
  refine (fd.write_whole frame.serialize whole).bind ?_
  rintro ⟨n, after⟩ ⟨sent, reads, stays⟩
  refine ⟨?_, reads.trans counted, stays.trans closed⟩
  intro bytes written
  dsimp only at sent written
  rw [sent] at written
  rcases List.mem_append.mp written with old | new
  · exact known bytes old
  · exact Or.inr ⟨frame, member, List.mem_singleton.mp new⟩

theorem sendPending_outcome (kept : Kept written a) (whole : Device.Whole k) :
    Outcome (sendPending k a)
      (fun out => Kept written out ∧ out.tap.readCount = a.tap.readCount ∧
        out.toTCPOverIPv4Adapter = a.toTCPOverIPv4Adapter) (¬ k.Lawful) := by
  refine (writeFrames_outcome whole a.tap _).bind ?_
  rintro tap ⟨known, counted, closed⟩
  refine ⟨⟨closed.trans kept.opened, kept.ledger, ?_⟩, counted, rfl⟩
  intro bytes member
  rcases known bytes member with old | ⟨frame, pending, eq⟩
  · exact kept.sent bytes old
  · exact ⟨frame, Or.inr (kept.ledger.frames frame (List.mem_of_mem_drop pending)), eq⟩

theorem new_outcome (whole : Device.Whole k) (ethAddress : EthernetAddress) (ipAddress nextHop : UInt32) :
    Outcome (new k ethAddress ipAddress nextHop) (Kept []) (¬ k.Lawful) := by
  refine (writeFrames_outcome whole {} [{}]).bind ?_
  rintro tap ⟨known, _, closed⟩
  refine ⟨closed, ledger_new ethAddress ipAddress, ?_⟩
  intro bytes member
  rcases known bytes member with old | ⟨frame, dummy, eq⟩
  · cases old
  · exact ⟨frame, Or.inl (List.mem_singleton.mp dummy), eq⟩

theorem read_outcome (kept : Kept written a) (whole : Device.Whole k) :
    Outcome (read k a) (fun out => Kept written out.2 ∧ a.tap.readCount ≠ out.2.tap.readCount)
      (¬ k.Lawful) := by
  refine (a.tap.read_outcome _ k).bind ?_
  rintro ⟨bytes, tap⟩ ⟨_, reads⟩
  dsimp only at reads
  have counted : a.tap.readCount ≠ tap.readCount := by
    rw [reads.counted]
    simp
  have taken : Kept written { a with tap := tap } := ⟨reads.closed.trans kept.opened, kept.ledger, by
    rw [reads.sent]
    exact kept.sent⟩
  obtain ⟨payload, single⟩ := EthernetFrame.parse_single {} bytes
  rcases parsed : ({} : EthernetFrame).parse bytes with ⟨result, frame⟩
  rw [parsed] at single
  dsimp only at single ⊢
  rw [parsed]
  cases result with
  | noError =>
    obtain ⟨⟨dgram, i⟩, eq, ledger⟩ := (kept.ledger.recvFrame due_wellFormed
      (fun arp (_ : accepted _ frame = some arp) => trivial)).returns (by simp [single, BufferList.toBuffer])
    simp only [eq]
    refine (sendPending_outcome (taken.interface ledger) whole).bind ?_
    rintro after ⟨kept, same, _⟩
    dsimp only at same
    cases dgram with
    | none => exact ⟨kept, by rwa [same]⟩
    | some dgram =>
      obtain ⟨_, _, _, buffer, _, received⟩ := recvFrame_some eq
      obtain ⟨inner, one⟩ := TCPOverIPv4OverTunFdAdapter.parse_single {} buffer
      rw [received] at one
      obtain ⟨ret, base, unwrapped, _⟩ := after.unwrapTcpInIp_parsed one
      simp only [unwrapped]
      exact ⟨⟨kept.opened, kept.ledger, kept.sent⟩, by rwa [same]⟩
  | _ => exact ⟨taken, counted⟩

theorem tick_outcome (kept : Kept written a) (whole : Device.Whole k) (ms : Nat) :
    Outcome (tick k ms a) (Kept written) (¬ k.Lawful) :=
  (sendPending_outcome (kept.interface (kept.ledger.tick ms)) whole).weaken (fun _ => And.left)

theorem write_outcome (kept : Kept written a) (sendable : seg.Sendable) (whole : Device.Whole k) :
    Outcome (write k seg a) (Kept (written ++ [seg])) (¬ k.Lawful) := by
  have due : Due (written ++ [seg]) a.nextHop (a.wrapped seg) :=
    ⟨a.toTCPOverIPv4Adapter, seg, List.mem_append_right _ (List.mem_singleton.mpr rfl), sendable, rfl⟩
  obtain ⟨i, eq, ledger⟩ := ((kept.append seg).ledger.sendDatagram due_wellFormed due).returns id
  rw [write, TCPOverIPv4Adapter.wrapTcpInIp_eq sendable.doff_eq.ge]
  change Outcome (a.interface.sendDatagram _ _ >>= _) _ _
  rw [eq]
  exact (sendPending_outcome ((kept.append seg).interface ledger) whole).weaken (fun _ => And.left)

/-- Among the frames sent only those that carry a datagram give one to a reader. -/
theorem honest {reader after : TCPOverIPv4OverEthernetAdapter} (kept : Kept written a)
    (gives : ∀ bytes, Device.Gives k bytes → bytes ∈ a.tap.sent)
    (eq : read k reader = .ok (some seg, after)) : ∃ sent ∈ written, sent.Same seg := by
  obtain ⟨⟨got, tap⟩, answer, returned⟩ := Run.bind_eq_ok.mp eq
  have taken := ((reader.tap.read_outcome _ k).of_ok answer).1
  obtain ⟨frame, sent, rfl⟩ := kept.sent got (gives got ⟨_, _, taken⟩)
  simp only [frame.parse_serialize] at returned
  obtain ⟨⟨dgram, i⟩, received, returned⟩ := Run.bind_eq_ok.mp returned
  obtain ⟨b, _, returned⟩ := Run.bind_eq_ok.mp returned
  cases dgram with
  | none => cases returned
  | some dgram =>
    obtain ⟨_, _, type, buffer, whole, parsed⟩ := recvFrame_some received
    rcases sent with rfl | ⟨_, _, _, _, _, rfl⟩ | ⟨_, mac, _, ⟨sender, other, known, sendable, rfl⟩, _, rfl⟩
    · exact absurd type (by decide)
    · exact absurd type (by decide : EthernetHeader.typeARP ≠ EthernetHeader.typeIPv4)
    · have wire : BufferList.concatenate (ipv4Frame a.interface.ethernetAddress mac (sender.wrapped other)).payload =
          sender.wire other := BufferList.concatenate_cons _ _
      dsimp only at whole
      rw [wire] at whole
      cases whole
      rw [(TCPOverIPv4Adapter.wrapped_sendable sendable).2] at parsed
      cases parsed
      obtain ⟨ret, base, unwrapped, same⟩ := TCPOverIPv4Adapter.received_honest (a := sender) sendable
        b.toTCPOverIPv4Adapter
      dsimp only at returned
      rw [unwrapped] at returned
      cases returned
      exact ⟨other, known, same seg rfl⟩

instance : LawfulFdAdapter TCPOverIPv4OverEthernetAdapter where
  Kept := Kept
  read _ whole kept := read_outcome kept whole
  write _ _ whole sendable kept := write_outcome kept sendable whole
  tick _ ms whole kept := tick_outcome kept whole ms
  setListening _ kept := ⟨kept.opened, kept.ledger, kept.sent⟩
  configure _ kept := ⟨kept.opened, kept.ledger, kept.sent⟩
  opened := Kept.opened
  honest kept gives eq := TCPOverIPv4OverEthernetAdapter.honest kept gives eq

end TCPOverIPv4OverEthernetAdapter
end Sponge
