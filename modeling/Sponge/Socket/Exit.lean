import Sponge.Socket.Refinement
import Sponge.TCP.Resolved

/-! The life of one socket, whatever arrives from the network and whatever its
application does: its thread does not throw by itself, and when it returns by
itself, nothing that it has received is left undelivered. -/
namespace Sponge
open EventLoop TCPConnection

namespace TCPSpongeSocket

variable {α δ : Type} [FdAdapter α δ]

/-- A socket whose opening may still be going on. -/
def thenMain (turns : List (Turn δ)) (opened : Except String (Bool × Loop Key (TCPSpongeSocket α))) :
    Except String (Bool × Loop Key (TCPSpongeSocket α)) := do
  let (left, l) ← opened
  if left then tcpMain turns l else return (false, l)

section Quiet
variable {turns more : List (Turn δ)} {l : Loop Key (TCPSpongeSocket α)}

/-- Cancelling the reader cannot bring a connection back to life. -/
theorem settles : Settles (rule (α := α) (δ := δ)) rules := by
  have stays : ∀ c : TCPConnection, c.active = false → c.endInputStream.active = false :=
    fun c stopped => (Endpoint.step_flags ⟨c, [], [], false⟩ .endInputStream).1 stopped
  refine .cons ?_ (.cons ?_ (.cons ?_ (.cons ?_ .nil)))
  · intro k member s quiet
    cases k with
    | receive => simp at member
    | readData => exact ⟨stays s.tcp quiet.1, quiet.2⟩
    | writeData | transmit => exact quiet
  · intro k member s quiet
    cases k with
    | receive | readData => simp at member
    | writeData | transmit => exact quiet
  · intro k member s quiet
    cases k with
    | transmit => exact quiet
    | _ => simp at member
  · simp

/-- The owner lets the thread go on, and no signal comes. -/
def Turn.Undisturbed (turn : Turn δ) : Prop := turn.poll ≠ .interrupted ∧ turn.abort = false

theorem pass_quiet {turn : Turn δ} {next : Loop Key (TCPSpongeSocket α)} (undisturbed : turn.Undisturbed)
    (sub : l.rules.Sublist rules) (left : pass turn l = .ok (true, next)) :
    ∀ k ∈ next.rules, (rule (δ := δ) k).Quiet next.data := by
  obtain ⟨⟨ret, after⟩, turned, rest⟩ := Run.bind_eq_ok.mp left
  dsimp only at rest
  split at rest
  · rename_i why
    cases rest
    have exits : ret = .exit := why.resolve_right (by simp [undisturbed.2])
    rw [exits] at turned
    exact waitNextEvent_quiet (settles.sublist sub) undisturbed.1 turned
  split at rest
  · obtain ⟨_, _, none⟩ := Run.bind_eq_ok.mp rest
    cases none
  · cases rest

theorem pass_sublist {turn : Turn δ} {next : Loop Key (TCPSpongeSocket α)} {left : Bool}
    (eq : pass turn l = .ok (left, next)) : next.rules.Sublist l.rules := by
  obtain ⟨⟨ret, after⟩, turned, rest⟩ := Run.bind_eq_ok.mp eq
  have fewer := waitNextEvent_sublist turned
  dsimp only at rest fewer
  split at rest
  · cases rest
    exact fewer
  split at rest
  · obtain ⟨_, _, last⟩ := Run.bind_eq_ok.mp rest
    cases last
    exact fewer
  · cases rest
    exact fewer

/-- The main loop is left when no rule has anything to do. -/
theorem tcpMain_quiet (undisturbed : ∀ turn ∈ more, turn.Undisturbed)
    (sub : l.rules.Sublist rules) :
    Outcome (tcpMain more l) (fun out => out.1 = true → ∀ k ∈ out.2.rules, (rule (δ := δ) k).Quiet out.2.data)
      True := by
  induction more generalizing l with
  | nil => exact fun left => by cases left
  | cons turn rest ih =>
    change Outcome (pass turn l >>= _) _ _
    cases turned : pass turn l with
    | error message => trivial
    | ok out =>
      obtain ⟨left, next⟩ := out
      change Outcome (ite _ _ _) _ _
      split
      · rename_i stops
        rw [stops] at turned
        exact fun _ => pass_quiet (undisturbed turn List.mem_cons_self) sub turned
      · exact ih (fun other member => undisturbed other (List.mem_cons_of_mem _ member))
          ((pass_sublist turned).trans sub)

theorem tcpLoop_sublist {condition : TCPSpongeSocket α → Bool} : Outcome (tcpLoop condition turns l) (fun out => out.2.rules.Sublist l.rules) True := by
  induction turns generalizing l with
  | nil => exact List.Sublist.refl _
  | cons turn rest ih =>
    rw [tcpLoop]
    split
    · cases turned : pass turn l with
      | error message => trivial
      | ok out =>
        obtain ⟨left, next⟩ := out
        change Outcome (ite _ _ _) _ _
        split
        · exact pass_sublist turned
        · exact ih.weaken (fun _ fewer => fewer.trans (pass_sublist turned))
    · exact List.Sublist.refl _

theorem thenMain_quiet {condition : TCPSpongeSocket α → Bool} {next : Loop Key (TCPSpongeSocket α)}
    (undisturbed : ∀ turn ∈ more, turn.Undisturbed) (sub : l.rules.Sublist rules)
    (returned : thenMain more (tcpLoop condition turns l) = .ok (true, next)) :
    ∀ k ∈ next.rules, (rule (δ := δ) k).Quiet next.data := by
  obtain ⟨⟨left, middle⟩, first, rest⟩ := Run.bind_eq_ok.mp returned
  have fewer := (tcpLoop_sublist.of_ok first).trans sub
  dsimp only at rest
  split at rest
  · exact (tcpMain_quiet undisturbed fewer).of_ok rest rfl
  · cases rest

end Quiet

variable [Device δ] {cTcp : TCPConfig} {random : WrappingInt32}

/-- An orderly run with segments that fit a datagram. -/
structure Orderly (cTcp : TCPConfig) (random : WrappingInt32) (e : Endpoint) : Prop where
  runs : Endpoint.OrderlyRuns cTcp random e
  outbound : Outbound e.accepted e.conn
  sendable : e.conn.Sendable

theorem orderly_start (cTcp : TCPConfig) (random : WrappingInt32) : Orderly cTcp random (.new cTcp random) :=
  ⟨.refl _, new_outbound _ _, Endpoint.new_sendable _ _⟩

/-- Any segments at all. -/
theorem orderly_steady : Steady (fun _ => True) (Orderly cTcp random) where
  outbound orderly := orderly.outbound
  sendable orderly := orderly.sendable
  step {e} act orderly writes _ := by
    obtain ⟨_, _, effect⟩ := e.step_effect orderly.outbound act
    exact ⟨orderly.runs.snoc act writes, effect.outbound, Endpoint.step_sendable orderly.sendable act⟩

/-- The device takes whole datagrams. -/
structure Turn.Sane (turn : Turn δ) : Prop where
  poll : turn.poll.Fair (fun _ answers => Device.Whole answers.device)
  device : Device.Whole turn.device

theorem Turn.Sane.respects {hangs : Key → Prop} {turn : Turn δ} (sane : turn.Sane)
    (hups : ∀ key, turn.poll.OnlyHangsUp key → hangs key) : turn.Respects (α := α) hangs (fun _ => True) := by
  refine ⟨?_, hups, sane.device⟩
  have poll := sane.poll
  cases eq : turn.poll with
  | ready revents answers =>
    rw [eq] at poll
    exact fun key => ⟨poll key, fun _ _ _ seg _ => ⟨seg, trivial, _, _, _, rfl⟩⟩
  | _ => trivial

variable [LawfulFdAdapter α]

/-- The calls that open a socket, over a new adapter. -/
def Opening (cTcp : TCPConfig) (random : WrappingInt32) (turns : List (Turn δ))
    (opened : Except String (Bool × Loop Key (TCPSpongeSocket α))) : Prop :=
  ∃ cAd adapter, LawfulFdAdapter.Kept [] adapter ∧
    (opened = connect cTcp random cAd turns adapter ∨ opened = listenAndAccept cTcp random cAd turns adapter)

variable {turns more : List (Turn δ)} {opened : Except String (Bool × Loop Key (TCPSpongeSocket α))}

theorem Opening.loop (opening : Opening cTcp random turns opened) (hangs : Key → Prop) :
    ∃ condition l, opened = tcpLoop condition turns l ∧ l.rules = rules ∧
      Serving (Orderly cTcp random) hangs l.rules [] l.data := by
  obtain ⟨cAd, adapter, fresh, rfl | rfl⟩ := opening
  · have opens : Opens cTcp random adapter _ := ⟨cAd, Or.inl (dial_ok cTcp random cAd adapter)⟩
    refine ⟨fun s => s.tcp.state == TCPState.ofState .synSent, _, ?_, rfl,
      opens.serving orderly_steady hangs fresh (orderly_start cTcp random)⟩
    rw [connect, dial_ok]
    rfl
  · have opens : Opens cTcp random adapter _ := ⟨cAd, Or.inr rfl⟩
    exact ⟨_, _, rfl, rfl, opens.serving orderly_steady hangs fresh (orderly_start cTcp random)⟩

/-- The loop of the opening, and then the main loop. -/
theorem life_outcome (hangs : Key → Prop) (sane : ∀ turn ∈ turns ++ more, turn.Sane)
    (hups : ∀ turn ∈ turns ++ more, ∀ key, turn.poll.OnlyHangsUp key → hangs key)
    (opening : Opening cTcp random turns opened) :
    Outcome (thenMain more opened)
      (fun out => Serving (Orderly cTcp random) hangs out.2.rules [] out.2.data)
      (∃ turn ∈ turns ++ more, turn.Guilty) := by
  have respects : ∀ turn ∈ turns ++ more, turn.Respects (α := α) hangs (fun _ => True) :=
    fun turn member => (sane turn member).respects (hups turn member)
  obtain ⟨condition, l, rfl, _, serving⟩ := opening.loop hangs
  have first := tcpLoop_outcome orderly_steady condition turns
    (fun turn member => respects turn (List.mem_append_left _ member)) l serving
  refine (first.mono (fun _ => id) ?_).bind ?_
  · rintro ⟨turn, member, bad⟩
    exact ⟨turn, List.mem_append_left _ member, bad⟩
  rintro ⟨stops, next⟩ kept
  change Outcome (ite _ _ _) _ _
  split
  · have main := tcpLoop_outcome orderly_steady (fun _ => true) more
      (fun turn member => respects turn (List.mem_append_right _ member)) next kept
    refine main.mono (fun _ => id) ?_
    rintro ⟨turn, member, bad⟩
    exact ⟨turn, List.mem_append_right _ member, bad⟩
  · exact kept

/-- A socket throws only if `poll` or a system call fails: it never waits busily,
what it reads for the connection is accepted whole, and what the connection
sends can be serialised. And it never writes to the connection after it has
ended the outbound stream. -/
theorem socket_never_throws (cTcp : TCPConfig) (random : WrappingInt32) (turns more : List (Turn δ))
    (opened : Except String (Bool × Loop Key (TCPSpongeSocket α)))
    (opening : Opening cTcp random turns opened) (sane : ∀ turn ∈ turns ++ more, turn.Sane) :
    Outcome (thenMain more opened) (fun out => Endpoint.OrderlyRuns cTcp random out.2.data.endpoint)
      (∃ turn ∈ turns ++ more, turn.Guilty) :=
  (life_outcome (fun _ => True) sane (fun _ _ _ _ => trivial) opening).weaken (fun _ kept => kept.runs.runs)

/-- When the thread returns by itself, the application has been given every byte
that was received in order, and the end after it, unless the rule that writes to
it has been cancelled; the adapter has been given every segment, unless the rule
that transmits has been; and the connection was reset or, with an outbound stream
below 2^31 bytes, is closed in both directions, unless datagrams can no more be
received. Only a hangup cancels one of the two rules that write. -/
theorem socket_returns_finished (cTcp : TCPConfig) (random : WrappingInt32) (turns more : List (Turn δ))
    (opened : Except String (Bool × Loop Key (TCPSpongeSocket α))) (l : Loop Key (TCPSpongeSocket α))
    (opening : Opening cTcp random turns opened) (sane : ∀ turn ∈ turns ++ more, turn.Sane)
    (undisturbed : ∀ turn ∈ more, turn.Undisturbed) (returned : thenMain more opened = .ok (true, l)) :
    (.writeData ∉ l.rules ∨ l.data.threadData.bytesOut = l.data.endpoint.inbound ∧
      (l.data.tcp.inboundStream.eof = true ∨ l.data.tcp.inboundStream.error = true →
        l.data.inboundShutdown = true)) ∧
    (.transmit ∉ l.rules ∨ l.data.waiting = []) ∧
    (.receive ∉ l.rules ∨ l.data.tcp.active = false ∧
      (l.data.threadData.bytesIn.length < 2 ^ 31 - 2 →
        l.data.tcp.errors = (true, true) ∨ l.data.tcp.Closed)) ∧
    ∀ key, key = .writeData ∨ key = .transmit → key ∉ l.rules →
      ∃ turn ∈ turns ++ more, turn.poll.OnlyHangsUp key := by
  have serving := (life_outcome (fun key => ∃ turn ∈ turns ++ more, turn.poll.OnlyHangsUp key) sane
    (fun turn member key hup => ⟨turn, member, hup⟩) opening).of_ok returned
  have quiet : ∀ k ∈ l.rules, (rule (δ := δ) k).Quiet l.data := by
    obtain ⟨condition, start, rfl, all, _⟩ := opening.loop (fun _ => True)
    exact thenMain_quiet undisturbed (all ▸ .refl _) returned
  refine ⟨?_, ?_, ?_, ?_⟩
  · refine (Decidable.em (.writeData ∈ l.rules)).symm.imp_right (fun writer => ?_)
    have drained := (quiet _ writer).1
    simp only [rule, Bool.or_eq_false_iff, Bool.and_eq_false_iff, Bool.not_eq_false'] at drained
    refine ⟨?_, fun finished => ?_⟩
    · have empty := (l.data.tcp.inboundStream.bufferEmpty_iff).mp drained.1
      rw [Endpoint.inbound]
      change _ = l.data.threadData.bytesOut ++ l.data.tcp.inboundStream.buffer
      rw [empty, List.append_nil]
    · rcases drained.2 with going | told
      · simp [going] at finished
      · exact told
  · refine (Decidable.em (.transmit ∈ l.rules)).symm.imp_right (fun sender => ?_)
    have sent := (quiet _ sender).1
    simpa [rule] using sent
  · refine (Decidable.em (.receive ∈ l.rules)).symm.imp_right (fun receive => ?_)
    have stopped : l.data.tcp.active = false := (quiet _ receive).1
    exact ⟨stopped, fun short => serving.runs.runs.configured.resolved short stopped⟩
  · rintro key (rfl | rfl) absent
    · exact serving.ruled.writer absent
    · exact serving.ruled.sender absent

/-- A peer that answers, sends one byte and its FIN, and acknowledges ours. -/
def peerSent : List Buffer :=
  [Network.synAckSegment,
    { header := { seqno := ⟨1⟩, ack := true, ackno := ⟨1⟩, fin := true, win := 8 }, payload := [33] },
    { header := { seqno := ⟨3⟩, ack := true, ackno := ⟨2⟩, win := 8 } }].map
    (TCPOverUDPSocketAdapter.wire { config := ⟨SocketPair.hostB, SocketPair.hostA⟩ })

/-- The peer's `i`-th datagram is there to be read, and these descriptors hang up. -/
def peerTurn (i : Nat) (keys hups : List Key) : Turn DatagramKernel :=
  let turn := SocketPair.smallTurn SocketPair.hostB peerSent i keys []
  { turn with poll :=
      match turn.poll with
      | .ready revents answers => .ready (fun key => { revents key with hup := hups.contains key }) answers
      | poll => poll }

theorem peerTurn_sane (i : Nat) (keys hups : List Key) : (peerTurn i keys hups).Sane :=
  ⟨fun _ => trivial, trivial⟩

def openingTurns : List (Turn DatagramKernel) := [peerTurn 0 [.transmit] [], peerTurn 0 [.receive] []]

/-- The application has nothing to say and ends its stream at once. When both
directions of its descriptor are shut down, `poll` reports a hangup, and no rule
that is left has asked for it. -/
def closingTurns : List (Turn DatagramKernel) :=
  [peerTurn 1 [.transmit, .receive] [], peerTurn 1 [.readData, .writeData] [],
    peerTurn 1 [.transmit] [.readData, .writeData], peerTurn 2 [.receive] [.readData, .writeData], peerTurn 2 [] []]

/-- Only the kernel runs this. -/
@[irreducible] def connected : Except String (Bool × Loop Key (TCPSpongeSocket TCPOverUDPSocketAdapter)) :=
  connect Network.smallConfig ⟨0⟩ { source := SocketPair.hostA, destination := SocketPair.hostB } openingTurns {}

theorem connected_opening : Opening Network.smallConfig ⟨0⟩ openingTurns connected := by
  have fresh : LawfulFdAdapter.Kept [] ({} : TCPOverUDPSocketAdapter) := ⟨rfl, fun _ none => by cases none⟩
  unfold connected
  exact ⟨_, {}, fresh, Or.inl rfl⟩

theorem turns_sane : ∀ turn ∈ openingTurns ++ closingTurns, turn.Sane := by
  simp only [openingTurns, closingTurns, List.cons_append, List.nil_append, List.forall_mem_cons]
  exact ⟨peerTurn_sane _ _ _, peerTurn_sane _ _ _, peerTurn_sane _ _ _, peerTurn_sane _ _ _, peerTurn_sane _ _ _,
    peerTurn_sane _ _ _, peerTurn_sane _ _ _, by simp⟩

theorem socket_never_throws_connected :
    (thenMain closingTurns connected).isOk = true ∧
      Outcome (thenMain closingTurns connected)
        (fun out => Endpoint.OrderlyRuns Network.smallConfig ⟨0⟩ out.2.data.endpoint)
        (∃ turn ∈ openingTurns ++ closingTurns, turn.Guilty) := by
  have returns : (thenMain closingTurns connected).isOk = true := by decide +kernel
  exact ⟨returns, socket_never_throws Network.smallConfig ⟨0⟩ openingTurns closingTurns connected
    connected_opening turns_sane⟩

theorem socket_returns_finished_connected :
    ∃ l, thenMain closingTurns connected = .ok (true, l) ∧ l.rules = [.receive, .writeData, .transmit] ∧
      l.data.threadData.bytesOut = [33] ∧ l.data.threadData.bytesOut = l.data.endpoint.inbound ∧
      l.data.waiting = [] ∧ l.data.tcp.active = false ∧ (l.data.tcp.errors = (true, true) ∨ l.data.tcp.Closed) := by
  have facts : ((thenMain closingTurns connected).map (fun out => (out.1, out.2.rules,
      out.2.data.threadData.bytesOut, out.2.data.threadData.bytesIn))).toOption =
        some (true, [.receive, .writeData, .transmit], [33], []) := by
    decide +kernel
  rcases returned : thenMain closingTurns connected with message | ⟨left, l⟩
  · rw [returned] at facts
    cases facts
  · rw [returned] at facts
    simp only [Except.map, Except.toOption, Option.some.injEq, Prod.mk.injEq] at facts
    obtain ⟨rfl, live, bytes, none⟩ := facts
    have undisturbed : ∀ turn ∈ closingTurns, turn.Undisturbed := by
      simp [closingTurns, peerTurn, SocketPair.smallTurn, Turn.Undisturbed]
    obtain ⟨given, sent, stopped, _⟩ := socket_returns_finished Network.smallConfig ⟨0⟩ openingTurns closingTurns
      connected l connected_opening turns_sane undisturbed returned
    rw [live] at given sent stopped
    obtain ⟨inactive, finished⟩ := stopped.resolve_left (by simp)
    exact ⟨l, rfl, live, bytes, (given.resolve_left (by simp)).1, sent.resolve_left (by simp), inactive,
      finished (by rw [none]; decide)⟩

end TCPSpongeSocket
end Sponge
