import Sponge.Lib.Outcome
import Sponge.NetworkInterface.Steps
import Sponge.Wire.RoundTrip

/-! What an interface owes. Its user promises which datagrams it hands over for
which next hop, and whoever sends it ARP messages promises whose they are; then
every frame that leaves is an announcement of the interface itself, or carries a
promised datagram to an address that was promised for the next hop. -/
namespace Sponge.NetworkInterface

/-- An ARP message in which the interface speaks of itself. -/
def Announces (eth : EthernetAddress) (ip : UInt32) (frame : EthernetFrame) : Prop :=
  ∃ (dst : EthernetAddress) (arp : ARPMessage), arp.supported = true ∧ arp.senderEthernetAddress = eth ∧ arp.senderIPAddress = ip ∧
    frame = { header := { dst := dst, src := eth, type := EthernetHeader.typeARP }, payload := [arp.bytes] }

/-- `due p dgram`: it may be sent to the next hop `p`. `known p mac`: it may be
believed that `p` has the address `mac`. -/
def Emitted (due : UInt32 → IPv4Datagram → Prop) (known : UInt32 → EthernetAddress → Prop)
    (eth : EthernetAddress) (ip : UInt32) (frame : EthernetFrame) : Prop :=
  Announces eth ip frame ∨ ∃ p mac dgram, due p dgram ∧ known p mac ∧ frame = ipv4Frame eth mac dgram

structure Ledger (due : UInt32 → IPv4Datagram → Prop) (known : UInt32 → EthernetAddress → Prop)
    (eth : EthernetAddress) (ip : UInt32) (i : NetworkInterface) : Prop where
  ethernetAddress : i.ethernetAddress = eth
  ipAddress : i.ipAddress = ip
  pending : ∀ p, ∀ dgram ∈ i.pending p, due p dgram
  cache : ∀ p entry, i.cache p = some entry → known p entry.macAddress
  frames : ∀ frame ∈ i.framesOut, Emitted due known eth ip frame

variable {due more : UInt32 → IPv4Datagram → Prop} {known : UInt32 → EthernetAddress → Prop}
  {eth : EthernetAddress} {ip : UInt32} {i t : NetworkInterface} {p : UInt32} {dgram : IPv4Datagram}

theorem ledger_new (eth : EthernetAddress) (ip : UInt32) : Ledger due known eth ip (.new eth ip) where
  ethernetAddress := rfl
  ipAddress := rfl
  pending p dgram member := by simp [NetworkInterface.pending, new] at member
  cache p entry found := by cases found
  frames frame member := by cases member

theorem Emitted.mono {frame : EthernetFrame} (emitted : Emitted due known eth ip frame)
    (grows : ∀ p dgram, due p dgram → more p dgram) : Emitted more known eth ip frame := by
  refine emitted.imp_right ?_
  rintro ⟨p, mac, dgram, sendable, rest⟩
  exact ⟨p, mac, dgram, grows p dgram sendable, rest⟩

theorem Ledger.mono (ledger : Ledger due known eth ip i) (grows : ∀ p dgram, due p dgram → more p dgram) :
    Ledger more known eth ip i :=
  { ledger with
    pending := fun p dgram member => grows p dgram (ledger.pending p dgram member)
    frames := fun frame member => (ledger.frames frame member).mono grows }

/-- A frame is pushed. -/
theorem Ledger.push (ledger : Ledger due known eth ip i) {frame : EthernetFrame}
    (emitted : Emitted due known eth ip frame) :
    Ledger due known eth ip { i with framesOut := i.framesOut ++ [frame] } :=
  { ledger with
    frames := fun other member => by
      rcases List.mem_append.mp member with old | new
      · exact ledger.frames other old
      · rw [List.mem_singleton.mp new]
        exact emitted }

/-- One queue is replaced. -/
theorem Ledger.requeue (ledger : Ledger due known eth ip i) {q : UInt32} {queue : Option QueuingList}
    (promised : ∀ dgram ∈ (queue.map QueuingList.queuingDatagrams).getD [], due q dgram) :
    Ledger due known eth ip { i with queuingListMap := Function.update i.queuingListMap q queue } :=
  { ledger with
    pending := fun p dgram member => by
      rw [pending_update] at member
      split at member
      · rename_i same
        exact same ▸ promised dgram member
      · exact ledger.pending p dgram member }

theorem Ledger.learn (ledger : Ledger due known eth ip i) {arp : ARPMessage}
    (honest : known arp.senderIPAddress arp.senderEthernetAddress) : Ledger due known eth ip (i.learn arp) :=
  { ledger with
    cache := fun p entry found => by
      unfold NetworkInterface.learn at found
      by_cases same : p = arp.senderIPAddress
      · subst same
        simp only [Function.update_self, Option.some.injEq] at found
        exact found ▸ honest
      · simp only [Function.update_of_ne same] at found
        exact ledger.cache p entry found }

/-- The interface announces itself, whatever it answers and to whom. -/
theorem Ledger.sendARP (ledger : Ledger due known eth ip i) (arpType : ARPType) (mac : EthernetAddress)
    (p : UInt32) : Outcome (i.sendARP arpType mac p) (Ledger due known eth ip) False := by
  have supported : (i.arpMessage arpType mac p).supported = true := by
    cases arpType <;> rfl
  have eq : (i.arpMessage arpType mac p).serialize = .ok (i.arpMessage arpType mac p).bytes :=
    if_neg (by simp [supported])
  rw [NetworkInterface.sendARP, eq]
  refine ledger.push (Or.inl ⟨mac, i.arpMessage arpType mac p, supported, ledger.ethernetAddress,
    ledger.ipAddress, ?_⟩)
  rw [ledger.ethernetAddress]

section Sending
variable (wellFormed : ∀ p dgram, due p dgram → dgram.WellFormed)
include wellFormed

theorem Ledger.sendQueue {queue : List IPv4Datagram} {mac : EthernetAddress}
    (ledger : Ledger due known eth ip i) (promised : ∀ dgram ∈ queue, due p dgram) (believed : known p mac) :
    Outcome (i.sendQueue mac queue) (Ledger due known eth ip) False := by
  induction queue generalizing i with
  | nil => exact ledger
  | cons dgram rest ih =>
    have first := promised dgram List.mem_cons_self
    rw [NetworkInterface.sendQueue, sendDatagramHandler_ok (wellFormed p dgram first)]
    refine ih (ledger.push (Or.inr ⟨p, mac, dgram, first, believed, ?_⟩))
      (fun other member => promised other (List.mem_cons_of_mem _ member))
    rw [ledger.ethernetAddress]

theorem Ledger.sendDatagram (ledger : Ledger due known eth ip i) (promised : due p dgram) :
    Outcome (i.sendDatagram dgram p) (Ledger due known eth ip) False := by
  unfold NetworkInterface.sendDatagram
  split
  · rename_i entry found
    rw [sendDatagramHandler_ok (wellFormed p dgram promised)]
    refine ledger.push (Or.inr ⟨p, entry.macAddress, dgram, promised, ledger.cache p entry found, ?_⟩)
    rw [ledger.ethernetAddress]
  · split
    · change Outcome (ite _ _ _) _ _
      split
      · exact ledger.sendARP _ _ _
      · exact ledger
    · exact (ledger.requeue (by simpa using promised)).sendARP _ _ _

/-- An honest ARP message is believed, and answered. -/
theorem Ledger.recvARP (ledger : Ledger due known eth ip i) {arp : ARPMessage}
    (honest : known arp.senderIPAddress arp.senderEthernetAddress) :
    Outcome (i.recvARP arp) (Ledger due known eth ip) False := by
  have learned := ledger.learn honest
  have sent : Outcome ((i.learn arp).sendQueuing arp) (Ledger due known eth ip) False := by
    unfold sendQueuing
    split
    · exact learned
    · rename_i list found
      have promised : ∀ dgram ∈ list.queuingDatagrams, due arp.senderIPAddress dgram := by
        intro dgram member
        exact learned.pending _ dgram (by simpa [NetworkInterface.pending, found] using member)
      refine (learned.sendQueue wellFormed promised honest).bind (fun t kept => ?_)
      exact kept.requeue (by simp)
  rw [NetworkInterface.recvARP]
  refine sent.bind (fun t kept => ?_)
  split
  · exact kept.sendARP _ _ _
  · exact kept

/-- A frame is received; only a payload in several pieces throws. -/
theorem Ledger.recvFrame (ledger : Ledger due known eth ip i) {frame : EthernetFrame}
    (honest : ∀ arp, i.accepted frame = some arp → known arp.senderIPAddress arp.senderEthernetAddress) :
    Outcome (i.recvFrame frame) (fun out => Ledger due known eth ip out.2)
      (∃ message, frame.payload.toBuffer = .error message) := by
  unfold NetworkInterface.recvFrame
  by_cases foreign : frame.header.dst ≠ i.ethernetAddress ∧ frame.header.dst ≠ .broadcast
  · rw [if_pos foreign]
    exact ledger
  rw [if_neg foreign]
  cases whole : frame.payload.toBuffer with
  | error message =>
    split
    · exact ⟨message, rfl⟩
    · split
      · exact ⟨message, rfl⟩
      · exact ledger
  | ok buffer =>
    simp only [bind, Except.bind]
    split
    · rename_i arpType
      split
      · rename_i arp parsed
        have heard : i.accepted frame = some arp := by
          rw [accepted, if_neg foreign, if_neg (not_not.mpr arpType)]
          simp only [whole, parsed]
        obtain ⟨t, eq, kept⟩ := (ledger.recvARP wellFormed (honest arp heard)).returns id
        rw [eq]
        exact kept
      · exact ledger
    · split
      · split <;> exact ledger
      · exact ledger

end Sending

/-- Time only forgets. -/
theorem Ledger.tick (ledger : Ledger due known eth ip i) (ms : Nat) : Ledger due known eth ip (i.tick ms) :=
  { ledger with
    pending := fun p dgram member => by
      have same : (i.tick ms).pending p = i.pending p := by
        simp only [NetworkInterface.pending, NetworkInterface.tick]
        cases i.queuingListMap p <;> rfl
      exact ledger.pending p dgram (same ▸ member)
    cache := fun p entry found => by
      obtain ⟨old, cached, aged⟩ := Option.bind_eq_some_iff.mp found
      unfold age at aged
      dsimp only at aged
      split at aged
      · cases aged
      · cases aged
        exact ledger.cache p old cached }

/-- A datagram that is handed up was parsed from an IPv4 frame for this address. -/
theorem recvFrame_some {frame : EthernetFrame} (returned : i.recvFrame frame = .ok (some dgram, t)) :
    t = i ∧ (frame.header.dst = i.ethernetAddress ∨ frame.header.dst = .broadcast) ∧
      frame.header.type = EthernetHeader.typeIPv4 ∧
      ∃ buffer, frame.payload.toBuffer = .ok buffer ∧ ({} : IPv4Datagram).parse buffer = (.noError, dgram) := by
  unfold NetworkInterface.recvFrame at returned
  split_ifs at returned with foreign arpType ipType
  · cases returned
  · obtain ⟨buffer, _, rest⟩ := Run.bind_eq_ok.mp returned
    split at rest
    · obtain ⟨_, _, none⟩ := Run.bind_eq_ok.mp rest
      cases none
    · cases rest
  · obtain ⟨buffer, whole, rest⟩ := Run.bind_eq_ok.mp returned
    split at rest
    · rename_i parsed
      cases rest
      exact ⟨rfl, by tauto, ipType, buffer, whole, parsed⟩
    · cases rest
  · cases returned

/-- What an interface announces is what others hear. -/
theorem Announces.accepted {frame other : EthernetFrame} (announces : Announces eth ip frame)
    (header : other.header = frame.header) (payload : other.payload = [frame.payload.concatenate])
    {arp : ARPMessage} (heard : i.accepted other = some arp) :
    arp.senderIPAddress = ip ∧ arp.senderEthernetAddress = eth := by
  obtain ⟨dst, spoken, supported, rfl, rfl, rfl⟩ := announces
  unfold NetworkInterface.accepted at heard
  rw [header, payload, BufferList.concatenate_singleton] at heard
  simp only [BufferList.toBuffer, ARPMessage.parse_bytes supported] at heard
  split_ifs at heard
  obtain rfl := Option.some.inj heard
  exact ⟨rfl, rfl⟩

end Sponge.NetworkInterface
