import Sponge.NetworkInterface.Cache
import Sponge.Wire.RoundTrip
import Sponge.Lib.Run

/-! ARP requests over whole runs, of any datagrams and frames. The first request for
an address starts the clock of its queue. Once five seconds have passed every
further datagram sends a request, because the clock is not started again. -/
namespace Sponge.NetworkInterface

/-- The address that a frame asks for. -/
def request (frame : EthernetFrame) : Option UInt32 :=
  if frame.header.type ≠ EthernetHeader.typeARP then none
  else
    match frame.payload with
    | [buffer] =>
      match ({} : ARPMessage).parse buffer with
      | (.noError, arp) => if arp.opcode = ARPMessage.opcodeRequest then some arp.targetIPAddress else none
      | _ => none
    | _ => none

variable {eth mac : EthernetAddress} {i t : NetworkInterface} {op : Op} {p : UInt32} {dgram : IPv4Datagram}

/-- Nothing is known of the address, and no request is under way. -/
def Fresh (i : NetworkInterface) (p : UInt32) : Prop := i.cache p = none ∧ i.queuingListMap p = none

/-- The address is not known, and the clock of its queue has passed five seconds. -/
def Overdue (i : NetworkInterface) (p : UInt32) : Prop :=
  i.cache p = none ∧ ∃ found, i.queuingListMap p = some found ∧ 5000 ≤ found.timeSinceLastARPReq

theorem request_ipv4 {frame : EthernetFrame} (type : frame.header.type = EthernetHeader.typeIPv4) :
    request frame = none := by
  rw [request, if_pos]
  rw [type]
  decide

/-- What `send_ARP` pushes is a request exactly if it is told so. -/
theorem sendARP_request (i : NetworkInterface) (arpType : ARPType) (mac : EthernetAddress) (p : UInt32) :
    ∃ frame, i.sendARP arpType mac p = .ok { i with framesOut := i.framesOut ++ [frame] } ∧
      request frame = if arpType = .request then some p else none := by
  have supported : (i.arpMessage arpType mac p).supported = true := by
    cases arpType <;> rfl
  rw [sendARP, ARPMessage.serialize, if_neg (by simp [supported])]
  refine ⟨_, rfl, ?_⟩
  simp only [request, ne_eq, not_true_eq_false, if_false, ARPMessage.parse_bytes supported]
  cases arpType <;> rfl

theorem sendDatagramHandler_of_ok (sent : i.sendDatagramHandler dgram mac = .ok t) :
    ∃ frame, t = { i with framesOut := i.framesOut ++ [frame] } ∧ request frame = none := by
  obtain ⟨payload, _, eq⟩ := Run.bind_eq_ok.mp sent
  cases eq
  exact ⟨_, rfl, request_ipv4 rfl⟩

theorem sendQueue_of_ok {queue : List IPv4Datagram} (sent : i.sendQueue mac queue = .ok t) :
    ∃ new, t = { i with framesOut := i.framesOut ++ new } ∧ ∀ frame ∈ new, request frame = none := by
  induction queue generalizing i with
  | nil =>
    cases sent
    exact ⟨[], by simp, by simp⟩
  | cons dgram rest ih =>
    obtain ⟨after, first, others⟩ := Run.bind_eq_ok.mp sent
    obtain ⟨frame, rfl, silent⟩ := sendDatagramHandler_of_ok first
    obtain ⟨new, rfl, quiet⟩ := ih others
    exact ⟨frame :: new, by simp, by simpa using ⟨silent, quiet⟩⟩

/-- An ARP message makes the interface forget its sender's queue, and ask nobody. -/
theorem recvARP_of_ok {arp : ARPMessage} (heard : i.recvARP arp = .ok t) :
    ∃ new, t = { i.learn arp with
      queuingListMap := Function.update i.queuingListMap arp.senderIPAddress none
      framesOut := i.framesOut ++ new } ∧ ∀ frame ∈ new, request frame = none := by
  obtain ⟨after, flushed, replied⟩ := Run.bind_eq_ok.mp heard
  have first : ∃ new, after = { i.learn arp with
      queuingListMap := Function.update i.queuingListMap arp.senderIPAddress none
      framesOut := i.framesOut ++ new } ∧ ∀ frame ∈ new, request frame = none := by
    unfold sendQueuing at flushed
    split at flushed
    · rename_i absent
      cases flushed
      have same : Function.update i.queuingListMap arp.senderIPAddress none = i.queuingListMap := by
        have none : i.queuingListMap arp.senderIPAddress = none := absent
        rw [← none, Function.update_eq_self]
      exact ⟨[], by simp [same, learn], by simp⟩
    · obtain ⟨sent, queue, eq⟩ := Run.bind_eq_ok.mp flushed
      cases eq
      obtain ⟨new, rfl, quiet⟩ := sendQueue_of_ok queue
      exact ⟨new, rfl, quiet⟩
  obtain ⟨new, rfl, quiet⟩ := first
  split at replied
  · obtain ⟨frame, eq, silent⟩ := sendARP_request _ .reply arp.senderEthernetAddress arp.senderIPAddress
    rw [eq] at replied
    cases replied
    refine ⟨new ++ [frame], by simp, ?_⟩
    intro other member
    rcases List.mem_append.mp member with earlier | last
    · exact quiet other earlier
    · rw [List.mem_singleton.mp last, silent]
      rfl
  · cases replied
    exact ⟨new, rfl, quiet⟩

/-- The four things a datagram can meet at its next hop. -/
theorem sendDatagram_of_ok (sent : i.sendDatagram dgram p = .ok t) :
    (i.cache p ≠ none ∧ ∃ frame, t = { i with framesOut := i.framesOut ++ [frame] } ∧ request frame = none) ∨
    (i.Fresh p ∧ ∃ frame, t = { i with
      queuingListMap := Function.update i.queuingListMap p (some { queuingDatagrams := [dgram] })
      framesOut := i.framesOut ++ [frame] } ∧ request frame = some p) ∨
    (i.Overdue p ∧ ∃ frame, t = { i with framesOut := i.framesOut ++ [frame] } ∧ request frame = some p) ∨
    (i.Waiting p ∧ ¬ i.Overdue p ∧ t = i) := by
  unfold sendDatagram at sent
  split at sent
  · rename_i entry known
    exact .inl ⟨by simp [known], sendDatagramHandler_of_ok sent⟩
  · rename_i unknown
    split at sent
    · rename_i found waiting
      simp only at sent
      split at sent
      · rename_i old
        obtain ⟨frame, eq, asks⟩ := sendARP_request i .request .broadcast p
        rw [eq] at sent
        cases sent
        exact .inr (.inr (.inl ⟨⟨unknown, found, waiting, old⟩, frame, rfl, asks⟩))
      · rename_i young
        cases sent
        refine .inr (.inr (.inr ⟨⟨unknown, by simp [waiting]⟩, ?_, rfl⟩))
        rintro ⟨_, other, same, old⟩
        obtain rfl := Option.some.inj (same.symm.trans waiting)
        exact young old
    · rename_i absent
      obtain ⟨frame, eq, asks⟩ := sendARP_request { i with
        queuingListMap := Function.update i.queuingListMap p (some { queuingDatagrams := [dgram] }) }
        .request .broadcast p
      rw [eq] at sent
      cases sent
      exact .inr (.inl ⟨⟨unknown, absent⟩, frame, rfl, asks⟩)

theorem sendDatagram_returns (unknown : i.cache p = none) (dgram : IPv4Datagram) :
    ∃ t, i.sendDatagram dgram p = .ok t := by
  cases queued : i.queuingListMap p with
  | some found =>
    simp only [sendDatagram, unknown, queued]
    split
    · obtain ⟨frame, eq, _⟩ := sendARP_request i .request .broadcast p
      exact ⟨_, eq⟩
    · exact ⟨i, rfl⟩
  | none =>
    simp only [sendDatagram, unknown, queued]
    obtain ⟨frame, eq, _⟩ := sendARP_request { i with
      queuingListMap := Function.update i.queuingListMap p (some { queuingDatagrams := [dgram] }) }
      .request .broadcast p
    exact ⟨_, eq⟩

/-- A received frame is an ARP message that is heard, or changes nothing. -/
theorem recvFrame_of_ok {frame : EthernetFrame} (received : i.apply (.recvFrame frame) = .ok t) :
    (∃ arp new, i.accepted frame = some arp ∧ t = { i.learn arp with
      queuingListMap := Function.update i.queuingListMap arp.senderIPAddress none
      framesOut := i.framesOut ++ new } ∧ ∀ frame ∈ new, request frame = none) ∨ t = i := by
  rcases i.recvFrame_cases frame with ⟨arp, heard, eq⟩ | ⟨_, ⟨message, eq⟩ | eq⟩
  · rw [eq] at received
    obtain ⟨new, same, quiet⟩ := recvARP_of_ok received
    exact .inl ⟨arp, new, heard, same, quiet⟩
  · simp [eq] at received
  · rw [eq] at received
    exact .inr (Except.ok.inj received).symm

/-- The operation emits an ARP request for `p`. -/
def Asks (i : NetworkInterface) (p : UInt32) (op : Op) : Prop :=
  ∃ t new, i.apply op = .ok t ∧ t.framesOut = i.framesOut ++ new ∧ ∃ frame ∈ new, request frame = some p

def Op.SendsTo (p : UInt32) : Op → Prop
  | .sendDatagram _ nextHopIP => nextHopIP = p
  | _ => False

/-- Requests come from datagrams that are the first or come too late. -/
theorem asks_iff : i.Asks p op ↔ op.SendsTo p ∧ (i.Fresh p ∨ i.Overdue p) := by
  constructor
  · rintro ⟨t, new, ok, pushed, frame, member, asks⟩
    have quiet : ∀ more : List EthernetFrame, t.framesOut = i.framesOut ++ more →
        (∀ other ∈ more, request other ≠ some p) → False := by
      intro more same none
      rw [List.append_cancel_left (pushed.symm.trans same)] at member
      exact none frame member asks
    cases op with
    | tick ms => exact (quiet [] (by cases ok; simp [NetworkInterface.tick]) (by simp)).elim
    | recvFrame received =>
      rcases recvFrame_of_ok ok with ⟨arp, more, _, rfl, silent⟩ | rfl
      · exact (quiet more rfl fun other member => by simp [silent other member]).elim
      · exact (quiet [] (by simp) (by simp)).elim
    | sendDatagram dgram q =>
      rcases sendDatagram_of_ok ok with ⟨_, out, rfl, silent⟩ | ⟨fresh, out, rfl, about⟩ |
        ⟨late, out, rfl, about⟩ | ⟨_, _, rfl⟩
      · exact (quiet [out] rfl (by simp [silent])).elim
      · by_cases same : q = p
        · exact ⟨same, .inl (same ▸ fresh)⟩
        · exact (quiet [out] rfl (by simp [about, same])).elim
      · by_cases same : q = p
        · exact ⟨same, .inr (same ▸ late)⟩
        · exact (quiet [out] rfl (by simp [about, same])).elim
      · exact (quiet [] (by simp) (by simp)).elim
  · rintro ⟨sends, state⟩
    cases op with
    | sendDatagram dgram q =>
      obtain rfl : q = p := sends
      have unknown : i.cache q = none := state.elim And.left And.left
      obtain ⟨t, ok⟩ := sendDatagram_returns unknown dgram
      rcases sendDatagram_of_ok ok with ⟨known, _⟩ | ⟨_, out, same, about⟩ | ⟨_, out, same, about⟩ |
        ⟨waiting, young, _⟩
      · exact absurd unknown known
      · exact ⟨t, [out], ok, by rw [same], out, by simp, about⟩
      · exact ⟨t, [out], ok, by rw [same], out, by simp, about⟩
      · exact absurd state (not_or.mpr ⟨fun fresh => waiting.2 fresh.2, young⟩)
    | _ => exact sends.elim

/-- A request leaves a queue behind, with a new clock if it is the first. -/
theorem asks_clock (sends : op.SendsTo p) (state : i.Fresh p ∨ i.Overdue p) (ok : i.apply op = .ok t) :
    ∃ found, t.queuingListMap p = some found ∧ (i.Fresh p → found.timeSinceLastARPReq = 0) := by
  cases op with
  | sendDatagram dgram q =>
    obtain rfl : q = p := sends
    rcases sendDatagram_of_ok ok with ⟨known, _⟩ | ⟨_, _, rfl, _⟩ | ⟨late, _, rfl, _⟩ | ⟨waiting, young, _⟩
    · exact absurd (state.elim And.left And.left) known
    · exact ⟨_, Function.update_self _ _ _, fun _ => rfl⟩
    · obtain ⟨_, found, queued, _⟩ := late
      exact ⟨found, queued, fun fresh => by simp [fresh.2] at queued⟩
    · exact absurd state (not_or.mpr ⟨fun fresh => waiting.2 fresh.2, young⟩)
  | _ => exact sends.elim

theorem apply_ethernetAddress (ok : i.apply op = .ok t) : t.ethernetAddress = i.ethernetAddress := by
  cases op with
  | tick ms =>
    cases ok
    rfl
  | recvFrame frame => rcases recvFrame_of_ok ok with ⟨arp, new, _, rfl, _⟩ | rfl <;> rfl
  | sendDatagram dgram q =>
    rcases sendDatagram_of_ok ok with ⟨_, out, rfl, _⟩ | ⟨_, out, rfl, _⟩ | ⟨_, out, rfl, _⟩ | ⟨_, _, rfl⟩ <;> rfl

/-- Without an announcement a queue stays, and its clock runs no faster than time. -/
theorem apply_clock {found : QueuingList} (ok : i.apply op = .ok t)
    (silent : ∀ mac, ¬ op.Announces i.ethernetAddress p mac) (queued : i.queuingListMap p = some found) :
    ∃ later, t.queuingListMap p = some later ∧
      later.timeSinceLastARPReq ≤ found.timeSinceLastARPReq + op.elapsed := by
  cases op with
  | tick ms =>
    cases ok
    refine ⟨_, by simp only [NetworkInterface.tick, queued]; rfl, ?_⟩
    exact Nat.mod_le _ _
  | recvFrame frame =>
    rcases recvFrame_of_ok ok with ⟨arp, new, heard, rfl, _⟩ | rfl
    · have other : p ≠ arp.senderIPAddress := by
        rintro rfl
        exact silent arp.senderEthernetAddress ⟨arp, heard, rfl, rfl⟩
      exact ⟨found, (Function.update_of_ne other _ _).trans queued, Nat.le_add_right _ _⟩
    · exact ⟨found, queued, Nat.le_add_right _ _⟩
  | sendDatagram dgram q =>
    have kept : t.queuingListMap p = some found := by
      rcases sendDatagram_of_ok ok with ⟨_, out, rfl, _⟩ | ⟨fresh, out, rfl, _⟩ | ⟨_, out, rfl, _⟩ | ⟨_, _, rfl⟩
      · exact queued
      · have other : p ≠ q := by
          rintro rfl
          simp [fresh.2] at queued
        exact (Function.update_of_ne other _ _).trans queued
      · exact queued
      · exact queued
    exact ⟨found, kept, Nat.le_add_right _ _⟩

/-- The same over any number of operations. -/
theorem foldlM_clock {ops : List Op} {found : QueuingList} (ran : ops.foldlM apply i = .ok t)
    (silent : ∀ op ∈ ops, ∀ mac, ¬ op.Announces i.ethernetAddress p mac)
    (queued : i.queuingListMap p = some found) :
    ∃ later, t.queuingListMap p = some later ∧
      later.timeSinceLastARPReq ≤ found.timeSinceLastARPReq + ticks ops := by
  induction ops generalizing i found with
  | nil =>
    cases ran
    exact ⟨found, queued, Nat.le_add_right _ _⟩
  | cons op rest ih =>
    rw [List.foldlM_cons] at ran
    obtain ⟨after, first, others⟩ := Run.bind_eq_ok.mp ran
    obtain ⟨next, here, bound⟩ := apply_clock first (silent op List.mem_cons_self) queued
    obtain ⟨later, there, total⟩ := ih others
      (by rw [apply_ethernetAddress first]; exact fun other member => silent other (List.mem_cons_of_mem _ member)) here
    refine ⟨later, there, total.trans ?_⟩
    simp only [ticks, List.map_cons, List.sum_cons]
    exact (Nat.add_le_add_right bound _).trans (Nat.le_of_eq (Nat.add_assoc _ _ _))

theorem foldlM_ethernetAddress {ops : List Op} (ran : ops.foldlM apply i = .ok t) :
    t.ethernetAddress = i.ethernetAddress := by
  induction ops generalizing i with
  | nil =>
    cases ran
    rfl
  | cons op rest ih =>
    rw [List.foldlM_cons] at ran
    obtain ⟨after, first, others⟩ := Run.bind_eq_ok.mp ran
    rw [ih others, apply_ethernetAddress first]

/-- Two events of one run, without an announcement of `p` in between, are at least
five seconds apart. -/
def Spaced (ethernetAddress : EthernetAddress) (ipAddress : UInt32) (ops : List Op) (p : UInt32)
    (event : NetworkInterface → Op → Prop) : Prop :=
  ∀ done first between second, done ++ first :: (between ++ [second]) <+: ops →
    (∃ i, run ethernetAddress ipAddress done = .ok i ∧ event i first) →
    (∃ i, run ethernetAddress ipAddress (done ++ first :: between) = .ok i ∧ event i second) →
    (∀ op ∈ between, ∀ mac, ¬ op.Announces ethernetAddress p mac) → 5000 ≤ ticks between

/-- Requests for `p` are spaced if and only if the datagrams are that are sent to
`p` while its queue is older than five seconds. -/
theorem requests_spaced_iff (ethernetAddress : EthernetAddress) (ipAddress : UInt32) (ops : List Op) (p : UInt32) :
    Spaced ethernetAddress ipAddress ops p (fun i op => i.Asks p op) ↔
      Spaced ethernetAddress ipAddress ops p (fun i op => op.SendsTo p ∧ i.Overdue p) := by
  constructor
  · rintro spaced done first between second start ⟨i, before, sends, late⟩ ⟨j, later, sends', late'⟩
    exact spaced done first between second start ⟨i, before, asks_iff.mpr ⟨sends, .inr late⟩⟩
      ⟨j, later, asks_iff.mpr ⟨sends', .inr late'⟩⟩
  · rintro spaced done first between second start ⟨i, before, asks⟩ ⟨j, later, asks'⟩ silent
    obtain ⟨sends, state⟩ := asks_iff.mp asks
    obtain ⟨sends', state'⟩ := asks_iff.mp asks'
    have whole : ∃ t, i.apply first = .ok t ∧ between.foldlM apply t = .ok j := by
      have parts := later
      rw [run, List.foldlM_append] at parts
      obtain ⟨i', same, rest⟩ := Run.bind_eq_ok.mp parts
      obtain rfl := Except.ok.inj (same.symm.trans before)
      exact Run.bind_eq_ok.mp rest
    obtain ⟨t, ok, ran⟩ := whole
    have address : t.ethernetAddress = ethernetAddress :=
      (apply_ethernetAddress ok).trans (foldlM_ethernetAddress before)
    -- The queue that the first request leaves is still there at the second.
    obtain ⟨found, queued, new⟩ := asks_clock sends state ok
    obtain ⟨old, there, bound⟩ := foldlM_clock ran (address ▸ silent) queued
    have late' : j.Overdue p := state'.resolve_left fun fresh => by simp [fresh.2] at there
    rcases state with fresh | late
    · obtain ⟨_, other, same, age⟩ := late'
      obtain rfl := Option.some.inj (same.symm.trans there)
      have := new fresh
      omega
    · exact spaced done first between second start ⟨i, before, sends, late⟩ ⟨j, later, sends', late'⟩ silent

/-- The clock passes five seconds, then two datagrams follow each other. -/
def twoLate : List Op :=
  [.sendDatagram {} 0x0a000001, .tick 5000, .sendDatagram {} 0x0a000001, .sendDatagram {} 0x0a000001]

theorem requests_are_not_spaced :
    ¬ ∀ (ethernetAddress : EthernetAddress) (ipAddress : UInt32) (ops : List Op) (p : UInt32),
      Spaced ethernetAddress ipAddress ops p (fun i op => i.Asks p op) := by
  intro law
  have late : ∀ ops, ((run (.repeated 2) 0x0a000002 ops).map fun i =>
      (i.cache 0x0a000001, i.queuingListMap 0x0a000001)).toOption = some (none, some ⟨5000, [{}]⟩) →
      ∃ i, run (.repeated 2) 0x0a000002 ops = .ok i ∧ i.Asks 0x0a000001 (.sendDatagram {} 0x0a000001) := by
    intro ops state
    cases eq : run (.repeated 2) 0x0a000002 ops with
    | error message => simp [eq, Except.map, Except.toOption] at state
    | ok i =>
      simp only [eq, Except.map, Except.toOption, Option.some.injEq, Prod.mk.injEq] at state
      exact ⟨i, rfl, asks_iff.mpr ⟨rfl, .inr ⟨state.1, _, state.2, by decide⟩⟩⟩
  have early := law (.repeated 2) 0x0a000002 twoLate 0x0a000001 (twoLate.take 2) (.sendDatagram {} 0x0a000001) []
    (.sendDatagram {} 0x0a000001) List.prefix_rfl (late _ (by decide +kernel)) (late _ (by decide +kernel)) (by simp)
  simp [ticks] at early

end Sponge.NetworkInterface
