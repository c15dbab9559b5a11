import Sponge.NetworkInterface
import Sponge.Lib.Run

/-! Datagrams that wait for an Ethernet address. For one next hop every operation
does one of five things to the frames, the queue and the datagrams handed over;
one of the five drops a datagram, when a second one is sent to a next hop that
is still unresolved. -/
namespace Sponge.NetworkInterface

variable {i t : NetworkInterface} {p : UInt32} {dgram : IPv4Datagram} {mac : EthernetAddress}

/-- The datagrams waiting for the address of `p`. -/
def pending (i : NetworkInterface) (p : UInt32) : List IPv4Datagram :=
  ((i.queuingListMap p).map QueuingList.queuingDatagrams).getD []

/-- The ARP message of a frame that the interface accepts. -/
def accepted (i : NetworkInterface) (frame : EthernetFrame) : Option ARPMessage :=
  if frame.header.dst ≠ i.ethernetAddress ∧ frame.header.dst ≠ .broadcast then none
  else if frame.header.type ≠ EthernetHeader.typeARP then none
  else
    match frame.payload.toBuffer with
    | .error _ => none
    | .ok buffer =>
      match ({} : ARPMessage).parse buffer with
      | (.noError, arp) => some arp
      | _ => none

/-- The frame that carries a datagram. -/
def ipv4Frame (src dst : EthernetAddress) (dgram : IPv4Datagram) : EthernetFrame where
  header := { dst := dst, src := src, type := EthernetHeader.typeIPv4 }
  payload := dgram.headerOut.bytes :: dgram.payload

theorem sendDatagramHandler_ok (wellFormed : dgram.WellFormed) :
    i.sendDatagramHandler dgram mac =
      .ok { i with framesOut := i.framesOut ++ [ipv4Frame i.ethernetAddress mac dgram] } := by
  rw [sendDatagramHandler, wellFormed.serialize]
  rfl

theorem sendARP_ok (i : NetworkInterface) (arpType : ARPType) (mac : EthernetAddress) (p : UInt32) :
    ∃ frame, frame.header.type = EthernetHeader.typeARP ∧
    i.sendARP arpType mac p = .ok { i with framesOut := i.framesOut ++ [frame] } := by
  have supported : (i.arpMessage arpType mac p).supported = true := by
    cases arpType <;> rfl
  rw [sendARP, ARPMessage.serialize, if_neg (by simp [supported])]
  exact ⟨_, rfl, rfl⟩

theorem sendQueue_ok {queue : List IPv4Datagram} (wellFormed : ∀ dgram ∈ queue, dgram.WellFormed) :
    i.sendQueue mac queue =
      .ok { i with framesOut := i.framesOut ++ queue.map (ipv4Frame i.ethernetAddress mac) } := by
  induction queue generalizing i with
  | nil => simp [sendQueue]
  | cons dgram rest ih =>
    rw [sendQueue, sendDatagramHandler_ok (wellFormed dgram List.mem_cons_self)]
    simp only [bind, Except.bind]
    rw [ih (fun other member => wellFormed other (List.mem_cons_of_mem _ member))]
    simp

/-- Whatever is sent, an interface keeps its two addresses. -/
theorem sendDatagram_addresses (ok : i.sendDatagram dgram p = .ok t) :
    t.ethernetAddress = i.ethernetAddress ∧ t.ipAddress = i.ipAddress := by
  have arp : ∀ {j : NetworkInterface}, j.sendARP .request .broadcast p = .ok t →
      t.ethernetAddress = j.ethernetAddress ∧ t.ipAddress = j.ipAddress := by
    intro j asked
    obtain ⟨payload, _, eq⟩ := Run.bind_eq_ok.mp asked
    cases eq
    exact ⟨rfl, rfl⟩
  unfold sendDatagram at ok
  split at ok
  · obtain ⟨payload, _, eq⟩ := Run.bind_eq_ok.mp ok
    cases eq
    exact ⟨rfl, rfl⟩
  · split at ok
    · dsimp only at ok
      split at ok
      · exact arp ok
      · cases ok
        exact ⟨rfl, rfl⟩
    · have kept := arp ok
      exact kept

/-- What holds of every interface that is given well-formed datagrams: they wait
in the queues, and nothing waits for an address that is known. -/
structure Sound (eth : EthernetAddress) (i : NetworkInterface) : Prop where
  address : i.ethernetAddress = eth
  wellFormed : ∀ p, ∀ dgram ∈ i.pending p, dgram.WellFormed
  known : ∀ p, i.cache p ≠ none → i.queuingListMap p = none

/-- The next hop is unresolved and something waits for it already. -/
def Waiting (i : NetworkInterface) (p : UInt32) : Prop := i.cache p = none ∧ i.queuingListMap p ≠ none

inductive Op where
  | sendDatagram (dgram : IPv4Datagram) (nextHopIP : UInt32)
  | recvFrame (frame : EthernetFrame)
  | tick (msSinceLastTick : Nat)

def apply (i : NetworkInterface) : Op → Except String NetworkInterface
  | .sendDatagram dgram nextHopIP => i.sendDatagram dgram nextHopIP
  | .recvFrame frame => (i.recvFrame frame).map Prod.snd
  | .tick ms => .ok (i.tick ms)

/-- The next hop for which an operation can emit datagrams. -/
def hop (i : NetworkInterface) : Op → Option UInt32
  | .sendDatagram _ nextHopIP => some nextHopIP
  | .recvFrame frame => (i.accepted frame).map ARPMessage.senderIPAddress
  | .tick _ => none

def Op.WellFormed : Op → Prop
  | .sendDatagram dgram _ => dgram.WellFormed
  | _ => True

/-- A known address, the first datagram for an unknown one, or a later one. -/
theorem sendDatagram_cases (i : NetworkInterface) (p : UInt32) (wellFormed : dgram.WellFormed) :
    (∃ entry, i.cache p = some entry ∧ i.sendDatagram dgram p = .ok { i with
      framesOut := i.framesOut ++ [ipv4Frame i.ethernetAddress entry.macAddress dgram] }) ∨
    ((i.cache p = none ∧ i.queuingListMap p = none) ∧
      ∃ frame, frame.header.type = EthernetHeader.typeARP ∧ i.sendDatagram dgram p = .ok { i with
        queuingListMap := Function.update i.queuingListMap p (some { queuingDatagrams := [dgram] })
        framesOut := i.framesOut ++ [frame] }) ∨
    (i.Waiting p ∧ ∃ arps, (∀ frame ∈ arps, frame.header.type = EthernetHeader.typeARP) ∧
      i.sendDatagram dgram p = .ok { i with framesOut := i.framesOut ++ arps }) := by
  unfold sendDatagram
  split
  · rename_i entry known
    exact Or.inl ⟨entry, known, sendDatagramHandler_ok wellFormed⟩
  · rename_i unknown
    split
    · rename_i found waiting
      refine Or.inr (Or.inr ⟨⟨unknown, by simp [waiting]⟩, ?_⟩)
      dsimp only
      split
      · obtain ⟨frame, type, eq⟩ := i.sendARP_ok .request .broadcast p
        exact ⟨[frame], by simpa using type, eq⟩
      · exact ⟨[], by simp, by simp⟩
    · rename_i fresh
      obtain ⟨frame, type, eq⟩ := sendARP_ok { i with
        queuingListMap := Function.update i.queuingListMap p (some { queuingDatagrams := [dgram] }) }
        .request .broadcast p
      exact Or.inr (Or.inl ⟨⟨unknown, fresh⟩, frame, type, eq⟩)

/-- A frame is an accepted ARP message, or it changes nothing. -/
theorem recvFrame_cases (i : NetworkInterface) (frame : EthernetFrame) :
    (∃ arp, i.accepted frame = some arp ∧
      i.apply (.recvFrame frame) = i.recvARP arp) ∨
    (i.accepted frame = none ∧
      ((∃ message, i.apply (.recvFrame frame) = .error message) ∨ i.apply (.recvFrame frame) = .ok i)) := by
  simp only [apply, recvFrame, accepted]
  by_cases foreign : frame.header.dst ≠ i.ethernetAddress ∧ frame.header.dst ≠ .broadcast
  · simp only [if_pos foreign]
    exact Or.inr ⟨trivial, Or.inr rfl⟩
  simp only [if_neg foreign]
  by_cases arpType : frame.header.type = EthernetHeader.typeARP
  · simp only [arpType, if_true, ne_eq, not_true_eq_false, if_false]
    cases frame.payload.toBuffer with
    | error message => exact Or.inr ⟨rfl, Or.inl ⟨message, rfl⟩⟩
    | ok buffer =>
      simp only [bind, Except.bind]
      cases parsed : ({} : ARPMessage).parse buffer with
      | mk result arp =>
        cases result
        case noError =>
          refine Or.inl ⟨arp, rfl, ?_⟩
          cases heard : i.recvARP arp <;> simp [heard, Except.map, pure, Except.pure]
        all_goals exact Or.inr ⟨rfl, Or.inr rfl⟩
  · simp only [arpType, if_false, ne_eq, not_false_eq_true, if_true]
    refine Or.inr ⟨trivial, ?_⟩
    split
    · cases frame.payload.toBuffer with
      | error message => exact Or.inl ⟨message, rfl⟩
      | ok buffer =>
        simp only [bind, Except.bind]
        split <;> exact Or.inr rfl
    · exact Or.inr rfl

/-- An accepted ARP message sends everything that waits for its sender. -/
theorem recvARP_ok (arp : ARPMessage)
    (wellFormed : ∀ dgram ∈ i.pending arp.senderIPAddress, dgram.WellFormed) :
    ∃ arps, (∀ frame ∈ arps, frame.header.type = EthernetHeader.typeARP) ∧ i.recvARP arp = .ok { i.learn arp with
      queuingListMap := Function.update i.queuingListMap arp.senderIPAddress none
      framesOut := i.framesOut ++ (i.pending arp.senderIPAddress).map
        (ipv4Frame i.ethernetAddress arp.senderEthernetAddress) ++ arps } := by
  have sent : (i.learn arp).sendQueuing arp = .ok { i.learn arp with
      queuingListMap := Function.update i.queuingListMap arp.senderIPAddress none
      framesOut := i.framesOut ++ (i.pending arp.senderIPAddress).map
        (ipv4Frame i.ethernetAddress arp.senderEthernetAddress) } := by
    have same : (i.learn arp).queuingListMap = i.queuingListMap := rfl
    unfold pending at wellFormed ⊢
    rw [sendQueuing, same]
    cases queue : i.queuingListMap arp.senderIPAddress with
    | none =>
      have absent : Function.update i.queuingListMap arp.senderIPAddress none = i.queuingListMap := by
        rw [← queue, Function.update_eq_self]
      simp [absent, learn]
    | some list =>
      have sent : (i.learn arp).sendQueue arp.senderEthernetAddress list.queuingDatagrams = _ :=
        sendQueue_ok (by simpa [queue] using wellFormed)
      simp only [bind, Except.bind, sent]
      rfl
  rw [recvARP, sent]
  simp only [bind, Except.bind]
  split
  · obtain ⟨frame, type, eq⟩ := sendARP_ok { i.learn arp with
        queuingListMap := Function.update i.queuingListMap arp.senderIPAddress none
        framesOut := i.framesOut ++ (i.pending arp.senderIPAddress).map
          (ipv4Frame i.ethernetAddress arp.senderEthernetAddress) }
      .reply arp.senderEthernetAddress arp.senderIPAddress
    exact ⟨[frame], by simpa using type, eq⟩
  · exact ⟨[], by simp, by rw [List.append_nil]; rfl⟩

/-- `frame` carries `dgram`, from the interface with address `eth`. -/
def Carries (eth : EthernetAddress) (frame : EthernetFrame) (dgram : IPv4Datagram) : Prop :=
  frame.header.type = EthernetHeader.typeIPv4 ∧ frame.header.src = eth ∧ dgram.serialize = .ok frame.payload

theorem carries_ipv4Frame (wellFormed : dgram.WellFormed) (src dst : EthernetAddress) :
    Carries src (ipv4Frame src dst dgram) dgram := ⟨rfl, rfl, wellFormed.serialize⟩

def isIPv4 (frame : EthernetFrame) : Bool := frame.header.type == EthernetHeader.typeIPv4

theorem filter_arps {arps : List EthernetFrame}
    (types : ∀ frame ∈ arps, frame.header.type = EthernetHeader.typeARP) : arps.filter isIPv4 = [] := by
  rw [List.filter_eq_nil_iff]
  intro frame member
  simp [isIPv4, types frame member, EthernetHeader.typeARP, EthernetHeader.typeIPv4]

theorem filter_ipv4Frames (src dst : EthernetAddress) (dgrams : List IPv4Datagram) :
    (dgrams.map (ipv4Frame src dst)).filter isIPv4 = dgrams.map (ipv4Frame src dst) := by
  rw [List.filter_eq_self]
  intro frame member
  obtain ⟨_, _, rfl⟩ := List.mem_map.mp member
  rfl

/-- What one operation does for one next hop: new frames, datagrams handed over,
and the queue before and after. The flag marks the one that drops a datagram. -/
inductive Change (eth : EthernetAddress) :
    Bool → List EthernetFrame → List IPv4Datagram → List IPv4Datagram → List IPv4Datagram → Prop
  | idle (queue : List IPv4Datagram) : Change eth false [] [] queue queue
  | direct (frame : EthernetFrame) (dgram : IPv4Datagram) :
      Carries eth frame dgram → Change eth false [frame] [dgram] [] []
  | wait (dgram : IPv4Datagram) : Change eth false [] [dgram] [] [dgram]
  | drop (dgram : IPv4Datagram) (queue : List IPv4Datagram) : Change eth true [] [dgram] queue queue
  | flush (frames : List EthernetFrame) (queue : List IPv4Datagram) :
      List.Forall₂ (Carries eth) frames queue → Change eth false frames [] queue []

/-- The operation hands over a datagram for an unresolved next hop with a queue. -/
def Drops (i : NetworkInterface) (p : UInt32) : Op → Prop
  | .sendDatagram _ nextHopIP => nextHopIP = p ∧ i.Waiting p
  | _ => False

/-- The datagram an operation hands over for `p`. -/
def handed (p : UInt32) : Op → List IPv4Datagram
  | .sendDatagram dgram nextHopIP => if nextHopIP = p then [dgram] else []
  | _ => []

variable {eth : EthernetAddress} {op : Op}

theorem pending_of_none (absent : i.queuingListMap p = none) : i.pending p = [] := by
  simp [pending, absent]

theorem pending_update (i : NetworkInterface) (q p : UInt32) (queue : Option QueuingList) :
    ({ i with queuingListMap := Function.update i.queuingListMap q queue } : NetworkInterface).pending p =
      if p = q then (queue.map QueuingList.queuingDatagrams).getD [] else i.pending p := by
  unfold pending
  by_cases same : p = q
  · subst same
    simp
  · simp [same]

/-- One queue is replaced, by nothing if its address is known. -/
theorem Sound.requeue (sound : Sound eth i) {q : UInt32} {queue : Option QueuingList}
    (address : t.ethernetAddress = i.ethernetAddress)
    (queues : t.queuingListMap = Function.update i.queuingListMap q queue)
    (cache : ∀ p, p ≠ q → t.cache p = i.cache p) (settled : t.cache q ≠ none → queue = none)
    (wellFormed : ∀ dgram ∈ (queue.map QueuingList.queuingDatagrams).getD [], dgram.WellFormed) :
    Sound eth t := by
  refine ⟨address.trans sound.address, ?_, ?_⟩
  · intro p dgram member
    have same : t.pending p =
        ({ i with queuingListMap := Function.update i.queuingListMap q queue } : NetworkInterface).pending p := by
      rw [pending, pending, queues]
    rw [same, pending_update] at member
    split at member
    · exact wellFormed dgram member
    · exact sound.wellFormed p dgram member
  · intro p found
    rw [queues]
    by_cases same : p = q
    · subst same
      rw [Function.update_self, settled found]
    · rw [Function.update_of_ne same]
      exact sound.known p (cache p same ▸ found)

/-- After an operation that pushed `new`: the interface is still sound, and every
next hop has seen one of the five changes. -/
structure Moves (eth : EthernetAddress) (i : NetworkInterface) (op : Op) (t : NetworkInterface)
    (new : List EthernetFrame) : Prop where
  framesOut : t.framesOut = i.framesOut ++ new
  sound : Sound eth t
  change : ∀ p, ∃ flag, (flag = true ↔ i.Drops p op) ∧
    Change eth flag (if i.hop op = some p then new.filter isIPv4 else []) (handed p op)
      (i.pending p) (t.pending p)

theorem Sound.sendDatagram (sound : Sound eth i) (wellFormed : dgram.WellFormed) (q : UInt32) :
    ∃ t new, i.sendDatagram dgram q = .ok t ∧ Moves eth i (.sendDatagram dgram q) t new := by
  rcases i.sendDatagram_cases q wellFormed with ⟨entry, known, eq⟩ | ⟨⟨unknown, fresh⟩, frame, type, eq⟩ |
    ⟨waiting, arps, types, eq⟩
  · refine ⟨_, _, eq, rfl, ⟨sound.address, sound.wellFormed, sound.known⟩, fun p => ⟨false, ?_, ?_⟩⟩
    · simp only [Drops, Waiting, Bool.false_eq_true, false_iff]
      rintro ⟨rfl, missing, _⟩
      simp [known] at missing
    · change Change eth false _ _ (i.pending p) (i.pending p)
      by_cases same : q = p
      · subst same
        have frame : Carries eth (ipv4Frame i.ethernetAddress entry.macAddress dgram) dgram :=
          sound.address ▸ carries_ipv4Frame wellFormed _ _
        rw [pending_of_none (sound.known q (by simp [known]))]
        simpa [hop, handed, isIPv4, ipv4Frame] using Change.direct _ _ frame
      · simpa [hop, handed, same] using Change.idle (i.pending p)
  · refine ⟨_, _, eq, rfl, ?_, fun p => ⟨false, ?_, ?_⟩⟩
    · exact sound.requeue rfl rfl (fun _ _ => rfl) (fun found => absurd unknown found) (by simpa using wellFormed)
    · simp only [Drops, Waiting, Bool.false_eq_true, false_iff]
      rintro ⟨rfl, _, present⟩
      exact present fresh
    · change Change eth false _ _ (i.pending p) (pending { i with queuingListMap := _ } p)
      rw [pending_update]
      have none : [frame].filter isIPv4 = [] := filter_arps (by simpa using type)
      by_cases same : q = p
      · subst same
        rw [pending_of_none fresh]
        simpa [hop, handed, none] using Change.wait dgram
      · simpa [hop, handed, same, Ne.symm same, none] using Change.idle (i.pending p)
  · refine ⟨_, _, eq, rfl, ⟨sound.address, sound.wellFormed, sound.known⟩, fun p => ⟨decide (q = p), ?_, ?_⟩⟩
    · simp only [Drops, decide_eq_true_eq]
      constructor
      · rintro rfl
        exact ⟨rfl, waiting⟩
      · exact And.left
    · change Change eth _ _ _ (i.pending p) (i.pending p)
      have none := filter_arps types
      by_cases same : q = p
      · subst same
        simpa [hop, handed, none] using Change.drop dgram (i.pending q)
      · simpa [hop, handed, same, none] using Change.idle (i.pending p)

theorem Sound.recvARP (sound : Sound eth i) {frame : EthernetFrame} {arp : ARPMessage}
    (heard : i.accepted frame = some arp) :
    ∃ t new, i.recvARP arp = .ok t ∧ Moves eth i (.recvFrame frame) t new ∧
      t.pending arp.senderIPAddress = [] := by
  obtain ⟨arps, types, eq⟩ := recvARP_ok arp (sound.wellFormed arp.senderIPAddress)
  have queues : ∀ p, pending { i.learn arp with
      queuingListMap := Function.update i.queuingListMap arp.senderIPAddress none
      framesOut := i.framesOut ++ (i.pending arp.senderIPAddress).map
        (ipv4Frame i.ethernetAddress arp.senderEthernetAddress) ++ arps } p =
      if p = arp.senderIPAddress then [] else i.pending p :=
    fun p => i.pending_update arp.senderIPAddress p none
  refine ⟨_, (i.pending arp.senderIPAddress).map (ipv4Frame i.ethernetAddress arp.senderEthernetAddress) ++ arps,
    eq, ⟨by simp, ?_, fun p => ⟨false, by simp [Drops], ?_⟩⟩, (queues _).trans (if_pos rfl)⟩
  · exact sound.requeue rfl rfl (fun p other => Function.update_of_ne other _ _) (fun _ => rfl) (by simp)
  · rw [queues]
    by_cases same : p = arp.senderIPAddress
    · subst same
      have carried : List.Forall₂ (Carries eth) ((i.pending arp.senderIPAddress).map
          (ipv4Frame i.ethernetAddress arp.senderEthernetAddress)) (i.pending arp.senderIPAddress) := by
        rw [List.forall₂_map_left_iff, List.forall₂_same]
        exact fun dgram member =>
          sound.address ▸ carries_ipv4Frame (sound.wellFormed _ dgram member) _ _
      simpa [hop, heard, handed, List.filter_append, filter_arps types, filter_ipv4Frames]
        using Change.flush _ _ carried
    · simpa [hop, heard, handed, same, Ne.symm same] using Change.idle (i.pending p)

theorem Sound.tick (sound : Sound eth i) (ms : Nat) : Moves eth i (.tick ms) (i.tick ms) [] := by
  have queues : ∀ p, (i.tick ms).pending p = i.pending p := by
    intro p
    simp only [pending, NetworkInterface.tick]
    cases i.queuingListMap p <;> rfl
  refine ⟨by simp [NetworkInterface.tick], ⟨sound.address, ?_, ?_⟩, fun p => ⟨false, by simp [Drops], ?_⟩⟩
  · intro p dgram member
    rw [queues] at member
    exact sound.wellFormed p dgram member
  · intro p found
    have before : i.cache p ≠ none := by
      intro missing
      simp [NetworkInterface.tick, missing] at found
    simp [NetworkInterface.tick, sound.known p before]
  · rw [queues]
    simpa [handed] using Change.idle (i.pending p)

/-- Every operation throws without a change, or moves. -/
theorem Sound.apply (sound : Sound eth i) (wellFormed : op.WellFormed) :
    (∃ message, i.apply op = .error message ∧ ∀ p, handed p op = [] ∧ ¬ i.Drops p op) ∨
    ∃ t new, i.apply op = .ok t ∧ Moves eth i op t new := by
  cases op with
  | sendDatagram dgram q => exact Or.inr (sound.sendDatagram wellFormed q)
  | tick ms => exact Or.inr ⟨_, [], rfl, sound.tick ms⟩
  | recvFrame frame =>
    rcases i.recvFrame_cases frame with ⟨arp, heard, eq⟩ | ⟨deaf, ⟨message, eq⟩ | eq⟩
    · obtain ⟨t, new, ok, moves, _⟩ := sound.recvARP heard
      exact Or.inr ⟨t, new, eq.trans ok, moves⟩
    · exact Or.inl ⟨message, eq, fun p => ⟨rfl, id⟩⟩
    · refine Or.inr ⟨i, [], eq, by simp, sound, fun p => ⟨false, by simp [Drops], ?_⟩⟩
      simpa [handed] using Change.idle (i.pending p)

/-- A frame in one buffer is received; what it hands up was parsed from it. -/
theorem Sound.recvFrame (sound : Sound eth i) {frame : EthernetFrame} {data : Buffer}
    (whole : frame.payload = [data]) :
    ∃ dgram base, i.recvFrame frame = .ok (dgram, base) ∧ Sound eth base ∧
      ∀ d, dgram = some d → (frame.header.dst = eth ∨ frame.header.dst = .broadcast) ∧
        frame.header.type = EthernetHeader.typeIPv4 ∧
        (({} : IPv4Datagram).parse data).1 = .noError ∧ d = (({} : IPv4Datagram).parse data).2 := by
  have buffer : frame.payload.toBuffer = .ok data := by rw [whole, BufferList.toBuffer]
  by_cases foreign : frame.header.dst ≠ i.ethernetAddress ∧ frame.header.dst ≠ .broadcast
  · exact ⟨none, i, by rw [NetworkInterface.recvFrame, if_pos foreign], sound, fun d none => by cases none⟩
  have addressed : frame.header.dst = eth ∨ frame.header.dst = .broadcast := by
    rw [sound.address] at foreign
    tauto
  by_cases arpType : frame.header.type = EthernetHeader.typeARP
  · cases parsed : ({} : ARPMessage).parse data with
    | mk result arp =>
      by_cases fine : result = .noError
      · subst fine
        have heard : i.accepted frame = some arp := by
          rw [accepted, if_neg foreign, if_neg (not_not.mpr arpType)]
          simp only [buffer, parsed]
        obtain ⟨t, _, eq, moves, _⟩ := sound.recvARP heard
        refine ⟨none, t, ?_, moves.sound, fun d none => by cases none⟩
        rw [NetworkInterface.recvFrame, if_neg foreign, if_pos arpType]
        simp only [buffer, bind, Except.bind, parsed, eq, pure, Except.pure]
      · refine ⟨none, i, ?_, sound, fun d none => by cases none⟩
        rw [NetworkInterface.recvFrame, if_neg foreign, if_pos arpType]
        simp only [buffer, bind, Except.bind, parsed]
        cases result <;> first | exact absurd rfl fine | rfl
  by_cases ipType : frame.header.type = EthernetHeader.typeIPv4
  · cases parsed : ({} : IPv4Datagram).parse data with
    | mk result datagram =>
      by_cases fine : result = .noError
      · subst fine
        refine ⟨some datagram, i, ?_, sound, fun d same => ⟨addressed, ipType, rfl, by simpa using same.symm⟩⟩
        rw [NetworkInterface.recvFrame, if_neg foreign, if_neg arpType, if_pos ipType]
        simp only [buffer, bind, Except.bind, parsed, pure, Except.pure]
      · refine ⟨none, i, ?_, sound, fun d none => by cases none⟩
        rw [NetworkInterface.recvFrame, if_neg foreign, if_neg arpType, if_pos ipType]
        simp only [buffer, bind, Except.bind, parsed]
        cases result <;> first | exact absurd rfl fine | rfl
  · refine ⟨none, i, ?_, sound, fun d none => by cases none⟩
    rw [NetworkInterface.recvFrame, if_neg foreign, if_neg arpType, if_neg ipType]

end Sponge.NetworkInterface
