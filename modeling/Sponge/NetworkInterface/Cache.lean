import Sponge.NetworkInterface.Pending

/-! The ARP cache over whole runs. It holds for every address what the last ARP
message from it said, for thirty seconds, and datagrams go where it says. -/
namespace Sponge.NetworkInterface

/-- A run ends at the first operation that throws. -/
def run (ethernetAddress : EthernetAddress) (ipAddress : UInt32) (ops : List Op) :
    Except String NetworkInterface :=
  ops.foldlM apply (new ethernetAddress ipAddress)

def Op.OneBuffer : Op → Prop
  | .recvFrame frame => ∃ data, frame.payload = [data]
  | _ => True

/-- The time that passes with an operation, in milliseconds. -/
def Op.elapsed : Op → Nat
  | .tick ms => ms
  | _ => 0

def ticks (ops : List Op) : Nat := (ops.map Op.elapsed).sum

/-- The operation receives an ARP message from `p` that says its address is `mac`,
in a frame that an interface with address `eth` accepts. -/
def Op.Announces (eth : EthernetAddress) (p : UInt32) (mac : EthernetAddress) : Op → Prop
  | .recvFrame frame => ∃ arp, (new eth 0).accepted frame = some arp ∧
      arp.senderIPAddress = p ∧ arp.senderEthernetAddress = mac
  | _ => False

/-- The last accepted ARP message from `p` said `mac`, `elapsed` milliseconds ago. -/
def LastHeard (eth : EthernetAddress) (ops : List Op) (p : UInt32) (mac : EthernetAddress) (elapsed : Nat) : Prop :=
  ∃ before op after, ops = before ++ op :: after ∧ op.Announces eth p mac ∧
    (∀ other ∈ after, ∀ said, ¬ other.Announces eth p said) ∧ elapsed = ticks after

variable {eth : EthernetAddress} {i t : NetworkInterface} {ops : List Op} {op : Op} {p : UInt32}
  {mac : EthernetAddress} {elapsed : Nat}

theorem ticks_append (ops more : List Op) : ticks (ops ++ more) = ticks ops + ticks more := by
  simp [ticks]

theorem ticks_singleton (op : Op) : ticks [op] = op.elapsed := by simp [ticks]

theorem lastHeard_nil : ¬ LastHeard eth [] p mac elapsed := by
  rintro ⟨before, op, after, eq, _⟩
  simp at eq

theorem LastHeard.le_ticks (heard : LastHeard eth ops p mac elapsed) : elapsed ≤ ticks ops := by
  obtain ⟨before, op, after, rfl, _, _, rfl⟩ := heard
  have all := ticks_append (before ++ [op]) after
  rw [List.append_assoc, List.singleton_append] at all
  omega

theorem lastHeard_of_announces (announces : op.Announces eth p mac) :
    LastHeard eth (ops ++ [op]) p mac 0 := ⟨ops, op, [], rfl, announces, by simp, rfl⟩

/-- What was heard last, by the last operation. -/
theorem lastHeard_snoc : LastHeard eth (ops ++ [op]) p mac elapsed ↔
    (op.Announces eth p mac ∧ elapsed = 0) ∨
      ((∀ said, ¬ op.Announces eth p said) ∧ ∃ old, LastHeard eth ops p mac old ∧ elapsed = old + op.elapsed) := by
  constructor
  · rintro ⟨before, first, after, eq, announces, quiet, rfl⟩
    rcases List.eq_nil_or_concat after with rfl | ⟨rest, last, rfl⟩
    · obtain ⟨_, same⟩ := List.append_inj' eq rfl
      obtain rfl : op = first := by simpa using same
      exact .inl ⟨announces, rfl⟩
    · rw [List.concat_eq_append, ← List.cons_append, ← List.append_assoc] at eq
      obtain ⟨same, last'⟩ := List.append_inj' eq rfl
      obtain rfl : op = last := by simpa using last'
      refine .inr ⟨quiet op (by simp), ticks rest, ⟨before, first, rest, same, announces, ?_, rfl⟩, ?_⟩
      · exact fun other member => quiet other (by simp [member])
      · rw [List.concat_eq_append, ticks_append, ticks_singleton]
  · rintro (⟨announces, rfl⟩ | ⟨silent, old, ⟨before, first, after, rfl, announces, quiet, rfl⟩, rfl⟩)
    · exact lastHeard_of_announces announces
    · refine ⟨before, first, after ++ [op], by simp, announces, ?_, ?_⟩
      · intro other member
        rcases List.mem_append.mp member with earlier | last
        · exact quiet other earlier
        · rw [List.mem_singleton.mp last]
          exact silent
      · rw [ticks_append, ticks_singleton]

theorem Sound.accepted (sound : Sound eth i) (frame : EthernetFrame) :
    i.accepted frame = (new eth 0).accepted frame := by
  unfold NetworkInterface.accepted
  rw [sound.address]
  rfl

/-- The cache holds what was heard last, if that was less than thirty seconds ago. -/
def Current (eth : EthernetAddress) (ops : List Op) (i : NetworkInterface) : Prop :=
  ∀ p elapsed mac, i.cache p = some ⟨elapsed, mac⟩ ↔ LastHeard eth ops p mac elapsed ∧ elapsed < 30000

/-- An operation that announces nothing and takes no time. -/
theorem Current.idle (current : Current eth ops i) (silent : ∀ p said, ¬ op.Announces eth p said)
    (instant : op.elapsed = 0) (same : t.cache = i.cache) : Current eth (ops ++ [op]) t := by
  intro p elapsed mac
  rw [same, current, lastHeard_snoc]
  simp [silent, instant]

theorem Current.learn (current : Current eth ops i) {q : UInt32} {said : EthernetAddress}
    (announces : ∀ p mac, op.Announces eth p mac ↔ p = q ∧ mac = said) (instant : op.elapsed = 0)
    (learned : t.cache = Function.update i.cache q (some ⟨0, said⟩)) : Current eth (ops ++ [op]) t := by
  intro p elapsed mac
  rw [learned, lastHeard_snoc]
  by_cases same : p = q
  · subst same
    have here := (announces p said).mpr ⟨rfl, rfl⟩
    rw [Function.update_self]
    constructor
    · intro eq
      obtain ⟨rfl, rfl⟩ : 0 = elapsed ∧ said = mac := by simpa using eq
      exact ⟨.inl ⟨here, rfl⟩, by decide⟩
    · rintro ⟨⟨loud, rfl⟩ | ⟨quiet, _⟩, _⟩
      · rw [((announces p mac).mp loud).2]
      · exact absurd here (quiet said)
  · rw [Function.update_of_ne same, current]
    simp [announces, same, instant]

theorem Current.tick (current : Current eth ops i) {ms : Nat} (bounded : ticks ops + ms < 2 ^ 64) :
    Current eth (ops ++ [.tick ms]) (i.tick ms) := by
  intro p elapsed mac
  have silent : ∀ said, ¬ (Op.tick ms).Announces eth p said := fun _ => id
  have aged : (i.tick ms).cache p = some ⟨elapsed, mac⟩ ↔
      ∃ old, i.cache p = some ⟨old, mac⟩ ∧ elapsed = FixedWidth.add 64 old ms ∧ elapsed < 30000 := by
    simp only [NetworkInterface.tick, Option.bind_eq_some_iff, age]
    constructor
    · rintro ⟨⟨old, mac'⟩, found, kept⟩
      simp only at kept
      split at kept
      · cases kept
      · cases kept
        exact ⟨old, found, rfl, by omega⟩
    · rintro ⟨old, found, rfl, young⟩
      exact ⟨⟨old, mac⟩, found, by rw [if_neg (by simpa using young)]⟩
  have exact_sum : ∀ old, LastHeard eth ops p mac old → FixedWidth.add 64 old ms = old + ms := by
    intro old heard
    have := heard.le_ticks
    exact Nat.mod_eq_of_lt (by omega)
  simp only [aged, current p _ mac, lastHeard_snoc, silent, false_and, false_or, not_false_eq_true, implies_true,
    true_and, Op.elapsed]
  constructor
  · rintro ⟨old, ⟨heard, _⟩, rfl, young⟩
    exact ⟨⟨old, heard, exact_sum old heard⟩, young⟩
  · rintro ⟨⟨old, heard, rfl⟩, young⟩
    exact ⟨old, ⟨heard, by omega⟩, (exact_sum old heard).symm, young⟩

/-- The IPv4 frames among `new` go where the cache of `t` says. -/
def Addressed (eth : EthernetAddress) (nextHop : Option UInt32) (t : NetworkInterface)
    (new : List EthernetFrame) : Prop :=
  ∀ frame ∈ new, isIPv4 frame = true → ∃ p entry, nextHop = some p ∧ t.cache p = some entry ∧
    frame.header.src = eth ∧ frame.header.dst = entry.macAddress

theorem addressed_arps {nextHop : Option UInt32} {arps : List EthernetFrame}
    (types : ∀ frame ∈ arps, frame.header.type = EthernetHeader.typeARP) : Addressed eth nextHop t arps := by
  intro frame member ip
  have mem : frame ∈ arps.filter isIPv4 := List.mem_filter.mpr ⟨member, ip⟩
  rw [filter_arps types] at mem
  cases mem

/-- One operation on a current cache. -/
theorem Current.apply (current : Current eth ops i) (sound : Sound eth i) (wellFormed : op.WellFormed)
    (whole : op.OneBuffer) (bounded : ticks ops + op.elapsed < 2 ^ 64) :
    ∃ t new, i.apply op = .ok t ∧ t.framesOut = i.framesOut ++ new ∧ Sound eth t ∧
      Current eth (ops ++ [op]) t ∧ Addressed eth (i.hop op) t new := by
  cases op with
  | tick ms => exact ⟨i.tick ms, [], rfl, by simp [NetworkInterface.tick], (sound.tick ms).sound,
      current.tick bounded, addressed_arps (by simp)⟩
  | sendDatagram dgram q =>
    have idle : ∀ t : NetworkInterface, t.cache = i.cache → Current eth (ops ++ [.sendDatagram dgram q]) t :=
      fun t same => current.idle (fun _ _ => id) rfl same
    obtain ⟨t, _, ok, moves⟩ := sound.sendDatagram wellFormed q
    rcases i.sendDatagram_cases q wellFormed with ⟨entry, known, eq⟩ | ⟨_, frame, type, eq⟩ | ⟨_, arps, types, eq⟩
    all_goals obtain rfl := Except.ok.inj (ok.symm.trans eq)
    · refine ⟨_, _, eq, rfl, moves.sound, idle _ rfl, ?_⟩
      intro frame member _
      rw [List.mem_singleton.mp member]
      exact ⟨q, entry, rfl, known, sound.address, rfl⟩
    · exact ⟨_, _, eq, rfl, moves.sound, idle _ rfl, addressed_arps (by simpa using type)⟩
    · exact ⟨_, _, eq, rfl, moves.sound, idle _ rfl, addressed_arps types⟩
  | recvFrame frame =>
    obtain ⟨data, payload⟩ := whole
    rcases i.recvFrame_cases frame with ⟨arp, heard, eq⟩ | ⟨deaf, ⟨message, eq⟩ | eq⟩
    · obtain ⟨t, _, ok, moves, _⟩ := sound.recvARP heard
      obtain ⟨arps, types, ok'⟩ := recvARP_ok arp (sound.wellFormed arp.senderIPAddress)
      obtain rfl := Except.ok.inj (ok.symm.trans ok')
      refine ⟨_, _, eq.trans ok, List.append_assoc _ _ _, moves.sound, ?_, ?_⟩
      · have announces : ∀ p mac, (Op.recvFrame frame).Announces eth p mac ↔
            p = arp.senderIPAddress ∧ mac = arp.senderEthernetAddress := by
          intro p mac
          simp only [Op.Announces, ← sound.accepted, heard, Option.some.injEq, exists_eq_left']
          tauto
        exact current.learn announces rfl rfl
      · intro out member ip
        rcases List.mem_append.mp member with flushed | reply
        · obtain ⟨dgram, _, rfl⟩ := List.mem_map.mp flushed
          refine ⟨arp.senderIPAddress, ⟨0, arp.senderEthernetAddress⟩, by simp [hop, heard], ?_, sound.address, rfl⟩
          exact Function.update_self _ _ _
        · exact addressed_arps types out reply ip
    · obtain ⟨_, _, received, _⟩ := sound.recvFrame payload
      simp [NetworkInterface.apply, received, Except.map] at eq
    · have silent : ∀ p said, ¬ (Op.recvFrame frame).Announces eth p said := by
        rintro p said ⟨arp, heard, _⟩
        rw [← sound.accepted, deaf] at heard
        cases heard
      exact ⟨i, [], eq, by simp, sound, current.idle silent rfl rfl, addressed_arps (by simp)⟩

theorem run_snoc (ethernetAddress : EthernetAddress) (ipAddress : UInt32) (ops : List Op) (op : Op) :
    run ethernetAddress ipAddress (ops ++ [op]) = run ethernetAddress ipAddress ops >>= fun i => i.apply op := by
  simp [run]

theorem new_sound (ethernetAddress : EthernetAddress) (ipAddress : UInt32) :
    Sound ethernetAddress (new ethernetAddress ipAddress) :=
  ⟨rfl, by simp [new, pending], by simp [new]⟩

/-- A run of well-formed datagrams and frames in one buffer returns, with a cache
that is current. -/
theorem run_current (ethernetAddress : EthernetAddress) (ipAddress : UInt32) (ops : List Op)
    (wellFormed : ∀ op ∈ ops, op.WellFormed) (whole : ∀ op ∈ ops, op.OneBuffer) (bounded : ticks ops < 2 ^ 64) :
    ∃ i, run ethernetAddress ipAddress ops = .ok i ∧ Sound ethernetAddress i ∧
      Current ethernetAddress ops i := by
  induction ops using List.reverseRecOn with
  | nil =>
    refine ⟨_, rfl, new_sound _ _, fun p elapsed mac => ?_⟩
    simp [new, lastHeard_nil]
  | append_singleton ops op ih =>
    rw [ticks_append, ticks_singleton] at bounded
    obtain ⟨i, before, sound, current⟩ := ih (fun other member => wellFormed other (List.mem_append_left _ member))
      (fun other member => whole other (List.mem_append_left _ member)) (by omega)
    obtain ⟨t, _, eq, _, after, still, _⟩ :=
      current.apply sound (wellFormed op (by simp)) (whole op (by simp)) bounded
    exact ⟨t, by rw [run_snoc, before]; exact eq, after, still⟩

/-- In every run the cache maps an address to what the last accepted ARP message
from it said, if and only if that was less than thirty seconds ago; and every
IPv4 frame goes from the interface's own address to the one that is then current
for its next hop. -/
theorem cache_fresh_and_current (ethernetAddress : EthernetAddress) (ipAddress : UInt32) (ops : List Op)
    (wellFormed : ∀ op ∈ ops, op.WellFormed) (whole : ∀ op ∈ ops, op.OneBuffer) (bounded : ticks ops < 2 ^ 64) :
    ∃ i, run ethernetAddress ipAddress ops = .ok i ∧
      (∀ p mac, (∃ entry, i.cache p = some entry ∧ entry.macAddress = mac) ↔
        ∃ elapsed, LastHeard ethernetAddress ops p mac elapsed ∧ elapsed < 30000) ∧
      ∀ done op, done ++ [op] <+: ops → ∃ before after new,
        run ethernetAddress ipAddress done = .ok before ∧ before.apply op = .ok after ∧
        after.framesOut = before.framesOut ++ new ∧
        ∀ frame ∈ new, isIPv4 frame = true → ∃ p, before.hop op = some p ∧
          frame.header.src = ethernetAddress ∧
          ∃ elapsed, LastHeard ethernetAddress (done ++ [op]) p frame.header.dst elapsed ∧ elapsed < 30000 := by
  obtain ⟨i, returned, _, current⟩ := run_current ethernetAddress ipAddress ops wellFormed whole bounded
  refine ⟨i, returned, fun p mac => ?_, fun done op first => ?_⟩
  · constructor
    · rintro ⟨⟨elapsed, said⟩, found, rfl⟩
      exact ⟨elapsed, (current p elapsed said).mp found⟩
    · rintro ⟨elapsed, heard⟩
      exact ⟨⟨elapsed, mac⟩, (current p elapsed mac).mpr heard, rfl⟩
  · obtain ⟨rest, rfl⟩ := first
    rw [ticks_append, ticks_append, ticks_singleton] at bounded
    obtain ⟨before, reached, sound, current⟩ := run_current ethernetAddress ipAddress done
      (fun other member => wellFormed other (by simp [member]))
      (fun other member => whole other (by simp [member])) (by omega)
    obtain ⟨after, new, ok, pushed, _, still, addressed⟩ :=
      current.apply sound (wellFormed op (by simp)) (whole op (by simp)) (by omega)
    refine ⟨before, after, new, reached, ok, pushed, fun frame member ip => ?_⟩
    obtain ⟨p, ⟨elapsed, mac⟩, nextHop, found, src, dst⟩ := addressed frame member ip
    exact ⟨p, nextHop, src, elapsed, dst ▸ (still p elapsed mac).mp found⟩

/-- An address is learned and used, and known for as long as it can be. -/
def almostExpired : List Op := History.resolved ++ [.tick 29999]

theorem cache_fresh_and_current_almostExpired :
    ((run (.repeated 2) 0x0a000002 almostExpired).map fun i => i.cache 0x0a000001).toOption =
      some (some ⟨29999, .repeated 4⟩) ∧
    ∃ i, run (.repeated 2) 0x0a000002 almostExpired = .ok i ∧
      (∀ p mac, (∃ entry, i.cache p = some entry ∧ entry.macAddress = mac) ↔
        ∃ elapsed, LastHeard (.repeated 2) almostExpired p mac elapsed ∧ elapsed < 30000) ∧
      ∀ done op, done ++ [op] <+: almostExpired → ∃ before after new,
        run (.repeated 2) 0x0a000002 done = .ok before ∧ before.apply op = .ok after ∧
        after.framesOut = before.framesOut ++ new ∧
        ∀ frame ∈ new, isIPv4 frame = true → ∃ p, before.hop op = some p ∧
          frame.header.src = .repeated 2 ∧
          ∃ elapsed, LastHeard (.repeated 2) (done ++ [op]) p frame.header.dst elapsed ∧ elapsed < 30000 := by
  refine ⟨by decide +kernel, cache_fresh_and_current (.repeated 2) 0x0a000002 almostExpired ?_ ?_ (by decide)⟩
  · simp only [almostExpired, History.resolved, List.cons_append, List.nil_append, List.forall_mem_cons, Op.WellFormed]
    exact ⟨History.emptyDatagram_wellFormed 1, trivial, History.emptyDatagram_wellFormed 2, trivial, by simp⟩
  · simp [almostExpired, History.resolved, Op.OneBuffer, History.answerFrame]

end Sponge.NetworkInterface
