import Sponge.NetworkInterface.Steps

/-! Whole runs of a network interface. For every next hop the datagrams handed
over are those emitted followed by those waiting, unless a datagram was sent to
it while it was unresolved and another one waited. -/
namespace Sponge.NetworkInterface

/-- A run: the interface, the datagrams handed over with their next hops, and
the IPv4 frames it has emitted with the next hop of the operation that did. -/
structure History where
  interface : NetworkInterface
  sent : List (UInt32 × IPv4Datagram)
  emitted : List (Option UInt32 × EthernetFrame)

namespace History

def start (ethernetAddress : EthernetAddress) (ipAddress : UInt32) : History :=
  ⟨.new ethernetAddress ipAddress, [], []⟩

/-- Operations that throw leave everything as it is: no modelled one throws
after its first change when the datagrams are well-formed. -/
def step (h : History) (op : Op) : History :=
  match h.interface.apply op with
  | .error _ => h
  | .ok after =>
    { interface := after
      sent := match op with
        | .sendDatagram dgram nextHopIP => h.sent ++ [(nextHopIP, dgram)]
        | _ => h.sent
      emitted := h.emitted ++ ((after.framesOut.drop h.interface.framesOut.length).filter isIPv4).map
        (fun frame => (h.interface.hop op, frame)) }

def run (ethernetAddress : EthernetAddress) (ipAddress : UInt32) (ops : List Op) : History :=
  ops.foldl step (start ethernetAddress ipAddress)

/-- The datagrams handed over for `p`, in order. -/
def sentTo (h : History) (p : UInt32) : List IPv4Datagram :=
  (h.sent.filter (fun entry => entry.1 == p)).map Prod.snd

/-- The IPv4 frames emitted for `p`, in order. -/
def framesFor (h : History) (p : UInt32) : List EthernetFrame :=
  (h.emitted.filter (fun entry => entry.1 == some p)).map Prod.snd

/-- The frames emitted for `p` carry, in order, the first datagrams handed over
for it; the rest is waiting. -/
def NothingLost (h : History) (p : UInt32) : Prop :=
  ∃ gone, List.Forall₂ (Carries h.interface.ethernetAddress) (h.framesFor p) gone ∧
    h.sentTo p = gone ++ h.interface.pending p

variable {h : History} {eth : EthernetAddress} {op : Op} {p : UInt32}

theorem step_sentTo_of_ok {t : NetworkInterface} (ok : h.interface.apply op = .ok t) (p : UInt32) :
    (h.step op).sentTo p = h.sentTo p ++ handed p op := by
  cases op with
  | sendDatagram dgram q =>
    simp only [step, ok, sentTo, handed, List.filter_append, List.map_append]
    congr 1
    by_cases same : q = p <;> simp [same]
  | recvFrame frame => simp [step, ok, sentTo, handed]
  | tick ms => simp [step, ok, sentTo, handed]

theorem step_framesFor_of_ok {t : NetworkInterface} {new : List EthernetFrame}
    (ok : h.interface.apply op = .ok t) (pushed : t.framesOut = h.interface.framesOut ++ new) (p : UInt32) :
    (h.step op).framesFor p =
      h.framesFor p ++ if h.interface.hop op = some p then new.filter isIPv4 else [] := by
  simp only [step, ok, framesFor, pushed, List.drop_left, List.filter_append, List.map_append,
    List.filter_map, List.map_map]
  congr 1
  split <;> rename_i same <;> simp [Function.comp_def, same]

/-- One step, seen from one next hop. -/
theorem step_change (sound : Sound eth h.interface) (wellFormed : op.WellFormed) (p : UInt32) :
    Sound eth (h.step op).interface ∧
    ∃ flag frames dgrams, (flag = true ↔ h.interface.Drops p op) ∧
      Change eth flag frames dgrams (h.interface.pending p) ((h.step op).interface.pending p) ∧
      (h.step op).sentTo p = h.sentTo p ++ dgrams ∧ (h.step op).framesFor p = h.framesFor p ++ frames := by
  rcases sound.apply wellFormed with ⟨message, failed, nothing⟩ | ⟨t, new, ok, moves⟩
  · have same : h.step op = h := by simp [step, failed]
    rw [same]
    exact ⟨sound, false, [], [], by simpa using (nothing p).2, .idle _, by simp, by simp⟩
  · have after : (h.step op).interface = t := by simp [step, ok]
    obtain ⟨flag, drops, change⟩ := moves.change p
    rw [after]
    exact ⟨moves.sound, flag, _, _, drops, change, step_sentTo_of_ok ok p,
      step_framesFor_of_ok ok moves.framesOut p⟩

/-- Fewer datagrams are on their way or waiting than were handed over. -/
def Short (h : History) (p : UInt32) : Prop :=
  (h.framesFor p).length + (h.interface.pending p).length < (h.sentTo p).length

theorem Short.lost (short : Short h p) : ¬ NothingLost h p := by
  rintro ⟨gone, carried, eq⟩
  have total := congrArg List.length eq
  rw [List.length_append] at total
  rw [Short, carried.length_eq] at short
  omega

/-- A next hop that misses nothing and sees no drop misses nothing afterwards. -/
theorem NothingLost.step (kept : NothingLost h p) (sound : Sound eth h.interface)
    (wellFormed : op.WellFormed) (safe : ¬ h.interface.Drops p op) : NothingLost (h.step op) p := by
  obtain ⟨after, flag, frames, dgrams, drops, change, sent, emitted⟩ := step_change sound wellFormed p
  obtain ⟨gone, carried, eq⟩ := kept
  rw [sound.address] at carried
  rw [NothingLost, after.address, sent, emitted, eq]
  generalize h.interface.pending p = before at *
  generalize (h.step op).interface.pending p = waiting at *
  cases change with
  | idle => exact ⟨gone, by simpa using carried, by simp⟩
  | direct frame dgram carries =>
    exact ⟨gone ++ [dgram], List.rel_append carried (.cons carries .nil), by simp⟩
  | wait dgram => exact ⟨gone, by simpa using carried, by simp⟩
  | drop => exact absurd (drops.mp rfl) safe
  | flush _ _ flushed => exact ⟨gone ++ before, List.rel_append carried flushed, by simp⟩

/-- A missing datagram never comes back, and a drop makes one missing. -/
theorem step_short (sound : Sound eth h.interface) (wellFormed : op.WellFormed)
    (start : Short h p ∨ (NothingLost h p ∧ h.interface.Drops p op)) : Short (h.step op) p := by
  obtain ⟨_, flag, frames, dgrams, drops, change, sent, emitted⟩ := step_change sound wellFormed p
  have level : (h.framesFor p).length + (h.interface.pending p).length ≤ (h.sentTo p).length := by
    rcases start with short | ⟨⟨gone, carried, eq⟩, _⟩
    · exact Nat.le_of_lt short
    · rw [eq, List.length_append, carried.length_eq]
  have gap : Short h p ∨ flag = true := start.imp_right (fun both => drops.mpr both.2)
  simp only [Short, sent, emitted, List.length_append] at gap ⊢
  generalize h.interface.pending p = before at *
  generalize (h.step op).interface.pending p = waiting at *
  cases change with
  | flush _ _ flushed =>
    have := flushed.length_eq
    simp at gap ⊢
    omega
  | _ =>
    simp at gap ⊢
    omega

theorem run_append (ethernetAddress : EthernetAddress) (ipAddress : UInt32) (ops : List Op) (op : Op) :
    run ethernetAddress ipAddress (ops ++ [op]) = (run ethernetAddress ipAddress ops).step op := by
  simp [run]

theorem start_sound (ethernetAddress : EthernetAddress) (ipAddress : UInt32) :
    Sound ethernetAddress (start ethernetAddress ipAddress).interface :=
  ⟨rfl, by simp [start, new, pending], by simp [start, new]⟩

/-- The state of one next hop after a run, by whether a step of it dropped. -/
theorem run_level (ethernetAddress : EthernetAddress) (ipAddress : UInt32) (ops : List Op)
    (wellFormed : ∀ op ∈ ops, op.WellFormed) (p : UInt32) :
    Sound ethernetAddress (run ethernetAddress ipAddress ops).interface ∧
    (((∀ done op, done ++ [op] <+: ops → ¬ (run ethernetAddress ipAddress done).interface.Drops p op) ∧
        NothingLost (run ethernetAddress ipAddress ops) p) ∨
      ((∃ done op, done ++ [op] <+: ops ∧ (run ethernetAddress ipAddress done).interface.Drops p op) ∧
        Short (run ethernetAddress ipAddress ops) p)) := by
  induction ops using List.reverseRecOn with
  | nil =>
    refine ⟨start_sound _ _, Or.inl ⟨?_, [], .nil, rfl⟩⟩
    intro done op first
    simpa using first.length_le
  | append_singleton ops op ih =>
    obtain ⟨sound, level⟩ := ih (fun other member => wellFormed other (List.mem_append_left _ member))
    have last := wellFormed op (by simp)
    rw [run_append]
    refine ⟨(step_change sound last p).1, ?_⟩
    by_cases drops : (run ethernetAddress ipAddress ops).interface.Drops p op
    · exact Or.inr ⟨⟨ops, op, List.prefix_rfl, drops⟩,
        step_short sound last (level.symm.imp (fun lost => lost.2) (fun kept => ⟨kept.2, drops⟩))⟩
    · rcases level with ⟨safe, kept⟩ | ⟨⟨done, other, first, dropped⟩, short⟩
      · refine Or.inl ⟨?_, kept.step sound last drops⟩
        intro done other first
        rcases List.prefix_concat_iff.mp first with whole | first
        · obtain ⟨rfl, rfl⟩ := List.concat_inj.mp (by simpa using whole)
          exact drops
        · exact safe done other first
      · exact Or.inr ⟨⟨done, other, first.trans (List.prefix_append _ _), dropped⟩,
          step_short sound last (Or.inl short)⟩

/-- Nothing is lost or duplicated for `p`, and an accepted ARP message of `p`
leaves nothing waiting. -/
def Delivers (h : History) (p : UInt32) : Prop :=
  NothingLost h p ∧ ∀ frame arp, h.interface.accepted frame = some arp → arp.senderIPAddress = p →
    (h.step (.recvFrame frame)).interface.pending p = []

theorem accepted_flushes (sound : Sound eth h.interface) {frame : EthernetFrame} {arp : ARPMessage}
    (heard : h.interface.accepted frame = some arp) :
    (h.step (.recvFrame frame)).interface.pending arp.senderIPAddress = [] := by
  rcases h.interface.recvFrame_cases frame with ⟨other, same, eq⟩ | ⟨deaf, _⟩
  · obtain rfl := Option.some.inj (same.symm.trans heard)
    obtain ⟨t, _, ok, _, empty⟩ := sound.recvARP heard
    have after : (h.step (.recvFrame frame)).interface = t := by simp [step, eq.trans ok]
    rw [after]
    exact empty
  · simp [deaf] at heard

/-- After every run of well-formed datagrams, a next hop has lost nothing if and
only if no datagram was sent to it while it was unresolved with one waiting. -/
theorem run_delivers_iff (ethernetAddress : EthernetAddress) (ipAddress : UInt32) (ops : List Op)
    (wellFormed : ∀ op ∈ ops, op.WellFormed) (p : UInt32) :
    Delivers (run ethernetAddress ipAddress ops) p ↔
      ∀ done dgram, done ++ [.sendDatagram dgram p] <+: ops →
        ¬ (run ethernetAddress ipAddress done).interface.Waiting p := by
  obtain ⟨sound, level⟩ := run_level ethernetAddress ipAddress ops wellFormed p
  constructor
  · rintro ⟨kept, _⟩ done dgram first waiting
    rcases level with ⟨safe, _⟩ | ⟨_, short⟩
    · exact safe done _ first ⟨rfl, waiting⟩
    · exact short.lost kept
  · intro safe
    refine ⟨?_, fun frame arp heard sender => sender ▸ accepted_flushes sound heard⟩
    rcases level with ⟨_, kept⟩ | ⟨⟨done, op, first, drops⟩, _⟩
    · exact kept
    · cases op with
      | sendDatagram dgram q =>
        obtain ⟨rfl, waiting⟩ := drops
        exact absurd waiting (safe done dgram first)
      | recvFrame frame => exact drops.elim
      | tick ms => exact drops.elim

/-- A datagram without payload. -/
def emptyDatagram (id : UInt16) : IPv4Datagram := { header := { len := 20, id := id } }

theorem emptyDatagram_wellFormed (id : UInt16) : (emptyDatagram id).WellFormed :=
  ⟨rfl, (by decide : 5 ≤ (5 : UInt8).toNat ∧ (5 : UInt8).toNat ≤ 15),
    (by decide : 0 = ((20 : UInt16) - 4 * UInt16.ofNat (5 : UInt8).toNat).toNat)⟩

/-- The answer of 10.0.0.1 to an interface with address 02:02:02:02:02:02. -/
def answerFrame : EthernetFrame where
  header := { dst := .repeated 2, src := .repeated 4, type := EthernetHeader.typeARP }
  payload := [ARPMessage.bytes {
    opcode := ARPMessage.opcodeReply
    senderEthernetAddress := .repeated 4
    senderIPAddress := 0x0a000001
    targetEthernetAddress := .repeated 2
    targetIPAddress := 0x0a000002 }]

/-- One datagram waits for the answer, one follows it. -/
def resolved : List Op :=
  [.sendDatagram (emptyDatagram 1) 0x0a000001, .recvFrame answerFrame,
    .sendDatagram (emptyDatagram 2) 0x0a000001]

theorem run_delivers_iff_resolved :
    (∀ op ∈ resolved, op.WellFormed) ∧
    ((run (.repeated 2) 0x0a000002 resolved).framesFor 0x0a000001).length = 2 ∧
    (Delivers (run (.repeated 2) 0x0a000002 resolved) 0x0a000001 ↔
      ∀ done dgram, done ++ [.sendDatagram dgram 0x0a000001] <+: resolved →
        ¬ (run (.repeated 2) 0x0a000002 done).interface.Waiting 0x0a000001) := by
  have wellFormed : ∀ op ∈ resolved, op.WellFormed := by
    simp only [resolved, List.forall_mem_cons, Op.WellFormed]
    exact ⟨emptyDatagram_wellFormed 1, trivial, emptyDatagram_wellFormed 2, by simp⟩
  exact ⟨wellFormed, by decide +kernel, run_delivers_iff (.repeated 2) 0x0a000002 resolved wellFormed 0x0a000001⟩

/-- The second datagram for an unresolved next hop is dropped. -/
theorem second_datagram_is_dropped :
    ¬ ∀ (ethernetAddress : EthernetAddress) (ipAddress : UInt32) (ops : List Op),
      (∀ op ∈ ops, op.WellFormed) → ∀ p, Delivers (run ethernetAddress ipAddress ops) p := by
  intro law
  have kept := (law (.repeated 2) 0x0a000002
    [.sendDatagram (emptyDatagram 1) 0x0a000001, .sendDatagram (emptyDatagram 2) 0x0a000001] (by
      simp only [List.forall_mem_cons, Op.WellFormed]
      exact ⟨emptyDatagram_wellFormed 1, emptyDatagram_wellFormed 2, by simp⟩) 0x0a000001).1
  refine Short.lost ?_ kept
  unfold Short
  decide +kernel

end History
end Sponge.NetworkInterface
