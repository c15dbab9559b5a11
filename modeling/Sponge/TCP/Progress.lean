import Sponge.TCP.NoLoss
import Sponge.TCP.CleanClose

/-! The state of a connection never moves backwards. The summary is not stored:
it is computed from counters that every operation changes. Below it stands a
stage of the sender that is read off four quantities, each of which only grows. -/
namespace Sponge
open TCPConnection TCPReceiver TCPSender

/-- The order in which the sender passes through its summaries. -/
def TCPSenderStateSummary.rank : TCPSenderStateSummary → Nat
  | .closed => 0
  | .synSent => 1
  | .synAcked => 2
  | .finSent => 3
  | .finAcked => 4
  | .error => 5

/-- The order in which the receiver passes through its summaries. -/
def TCPReceiverStateSummary.rank : TCPReceiverStateSummary → Nat
  | .listen => 0
  | .synRecv => 1
  | .finRecv => 2
  | .error => 3

namespace TCPState

/-- Neither half goes back, an error is never left, and a connection that has
stopped stays stopped. -/
structure Forward (before after : TCPState) : Prop where
  sender : before.sender.rank ≤ after.sender.rank
  receiver : before.receiver.rank ≤ after.receiver.rank
  active : before.active = false → after.active = false

theorem Forward.refl (state : TCPState) : Forward state state := ⟨Nat.le_refl _, Nat.le_refl _, id⟩

theorem Forward.trans {first second third : TCPState} (earlier : Forward first second)
    (later : Forward second third) : Forward first third :=
  ⟨earlier.sender.trans later.sender, earlier.receiver.trans later.receiver,
    fun stopped => later.active (earlier.active stopped)⟩

end TCPState

namespace TCPReceiver

variable {r heard : TCPReceiver}

theorem segmentReceived_syn_of_syn (r : TCPReceiver) (seg : TCPSegment) (syn : r.syn = true) :
    (r.segmentReceived seg).syn = true := by
  rcases r.segmentReceived_syn seg with eq | known
  · rw [eq]
    exact syn
  · exact known

theorem segmentReceived_ended (r : TCPReceiver) (seg : TCPSegment)
    (ended : r.streamOut.inputEnded = true) : (r.segmentReceived seg).streamOut.inputEnded = true :=
  r.segmentReceived_output_rule (P := fun s => s.inputEnded = true) seg ended
    (fun _ _ ended => ended) (fun _ _ => rfl)

/-- The SYN and the end of the stream are never forgotten. -/
structure Onward (r heard : TCPReceiver) : Prop where
  syn : r.syn = true → heard.syn = true
  ended : r.streamOut.inputEnded = true → heard.streamOut.inputEnded = true

theorem Onward.of_hears {act : Act} (hears : Endpoint.Hears r act heard) : Onward r heard := by
  refine hears.rule (P := Onward r) (fun _ => ⟨id, id⟩) (fun len _ => ⟨id, id⟩) (fun seg _ => ?_)
  exact ⟨r.segmentReceived_syn_of_syn seg, r.segmentReceived_ended seg⟩

end TCPReceiver

namespace TCPSender

variable {s u v : TCPSender} {accepted : List UInt8} {sent : List TCPSegment}

/-- From `s` to `u` nothing is taken back: the SYN, what has been acknowledged,
the FIN, and after the FIN no more flight. -/
structure Advances (s u : TCPSender) : Prop where
  opened : s.synSent = true → u.synSent = true
  unacked : s.unackedFrom ≤ u.unackedFrom
  finished : s.finSent = true → u.finSent = true ∧ u.bytesInFlight ≤ s.bytesInFlight

theorem Advances.refl (s : TCPSender) : Advances s s := ⟨id, Nat.le_refl _, fun finished => ⟨finished, Nat.le_refl _⟩⟩

theorem Advances.trans (first : Advances s u) (second : Advances u v) : Advances s v := by
  refine ⟨fun opened => second.opened (first.opened opened), first.unacked.trans second.unacked, ?_⟩
  intro finished
  obtain ⟨middle, less⟩ := first.finished finished
  obtain ⟨last, fewer⟩ := second.finished middle
  exact ⟨last, fewer.trans less⟩

/-- Fields that the comparison does not read may change. -/
theorem Advances.same (opened : u.synSent = s.synSent) (finished : u.finSent = s.finSent)
    (next : u.nextSeqno = s.nextSeqno) (flight : u.bytesInFlight = s.bytesInFlight) : Advances s u := by
  refine ⟨fun set => opened.trans set, ?_, fun set => ⟨finished.trans set, flight.le⟩⟩
  rw [unackedFrom, unackedFrom, next, flight]

theorem Advances.frame (frame : Frame s u) : Advances s u := by
  obtain ⟨_, _, rfl⟩ := frame
  exact .same rfl rfl rfl rfl

/-- New segments are in flight, and after the FIN there are none. -/
theorem Encodes.fillWindow_advances (inv : Encodes s accepted sent) : Advances s s.fillWindow := by
  obtain ⟨new, pushes⟩ := s.fillWindow_pushes
  refine ⟨fun _ => s.fillWindow_synSent, ?_, ?_⟩
  · rw [unackedFrom, unackedFrom, pushes.next, pushes.flight]
    omega
  · intro finished
    rw [fillWindow_finSent (inv.synSent_of_finSent finished) finished]
    exact ⟨finished, Nat.le_refl _⟩

/-- Retired segments leave the flight from its front. -/
theorem Encodes.acknowledge_advances (inv : Encodes s accepted sent) (a : Nat) :
    Advances s (s.acknowledge a) := by
  obtain ⟨gone, split, flight, _⟩ := inv.popped_spec a
  obtain ⟨_, _, _, eq⟩ := s.acknowledge_eq a
  have before := inv.flight
  rw [split, seqLen_append] at before
  refine ⟨?_, ?_, ?_⟩
  · rw [eq]
    exact id
  · rw [inv.acknowledge_unackedFrom a split flight]
    omega
  · rw [eq]
    refine fun finished => ⟨finished, ?_⟩
    change (s.popped a).2.1 ≤ s.bytesInFlight
    omega

theorem Encodes.ackReceived_advances (inv : Encodes s accepted sent) (ackno : WrappingInt32)
    (window : UInt16) : Advances s (s.ackReceived ackno window) := by
  rcases s.ackReceived_cases ackno window with ⟨_, eq⟩ | ⟨_, eq⟩ | accepts
  · rw [eq]
    exact .refl s
  · rw [eq]
    exact .same rfl rfl rfl rfl
  · have windowed := inv.setWindow window
    have retired := windowed.acknowledge (unwrap ackno s.isn s.rcvBase)
    have taken : Advances s (s.setWindow window) := .same rfl rfl rfl rfl
    rw [ackReceived_of_accepts accepts]
    exact taken.trans ((windowed.acknowledge_advances _).trans retired.fillWindow_advances)

/-- What the summary stands for, in terms of what has been sent and acknowledged. -/
def stage (s : TCPSender) : TCPSenderStateSummary :=
  if s.stream.error then .error
  else if s.synSent = false then .closed
  else if s.unackedFrom = 0 then .synSent
  else if s.finSent = false then .synAcked
  else if s.bytesInFlight ≠ 0 then .finSent
  else .finAcked

/-- The summary is the stage, as long as the FIN was the last thing written. -/
theorem Encodes.senderSummary_eq_stage (inv : Encodes s accepted sent) (drained : Drained s) :
    TCPState.senderSummary s = s.stage := by
  have next := inv.next_eq
  have counted := s.stream.counted
  have written : s.stream.bytesWritten = s.stream.writeBytes := rfl
  obtain ⟨_, queued⟩ := inv.queue_laid
  have flight := inv.flight
  unfold TCPState.senderSummary stage
  cases opened : s.synSent with
  | false =>
    have idle : s.nextSeqno = 0 := by
      rw [inv.next, inv.closed opened]
      rfl
    simp [idle]
  | true =>
    rw [opened] at next
    have begun : s.nextSeqno ≠ 0 := by
      simp only [if_true] at next
      omega
    have pending : s.nextSeqno = s.bytesInFlight ↔ s.unackedFrom = 0 := by
      rw [flight]
      omega
    cases finished : s.finSent with
    | false =>
      -- Without the FIN, an ended stream is one sequence number short.
      have short : s.stream.eof = true → s.nextSeqno < s.stream.bytesWritten + 2 := by
        rw [finished] at next
        simp only [if_true, Bool.false_eq_true, if_false] at next
        omega
      simp only [begun, pending, if_false, if_true, Bool.true_eq_false]
      cases ended : s.stream.eof <;> simp [ended, short]
    | true =>
      have empty := drained finished
      have eof : s.stream.eof = true := (ByteStream.eof_iff _).mpr ⟨empty, inv.finEnded finished⟩
      have whole : ¬ s.nextSeqno < s.stream.bytesWritten + 2 := by
        rw [finished] at next
        rw [empty, List.length_nil] at counted
        simp only [if_true] at next
        omega
      simp [begun, pending, eof, whole]

/-- The stage follows the four quantities. -/
theorem Advances.stage_le (advances : Advances s u) (error : s.stream.error = true → u.stream.error = true) :
    s.stage.rank ≤ u.stage.rank := by
  obtain ⟨opened, unacked, finished⟩ := advances
  unfold stage
  split_ifs <;> simp_all [TCPSenderStateSummary.rank]

end TCPSender

theorem TCPReceiver.Onward.summary_le {r heard : TCPReceiver} (onward : Onward r heard)
    (error : r.streamOut.error = true → heard.streamOut.error = true) :
    (TCPState.receiverSummary r).rank ≤ (TCPState.receiverSummary heard).rank := by
  obtain ⟨syn, ended⟩ := onward
  have known := ackno_isNone r
  have later := ackno_isNone heard
  unfold TCPState.receiverSummary
  split_ifs <;> simp_all [TCPReceiverStateSummary.rank]

namespace Endpoint

variable {e : Endpoint} {act : Act}

/-- The sender's counters only advance. -/
theorem step_advances (outbound : Outbound e.accepted e.conn) (act : Act) :
    Advances e.conn.sender (e.step act).conn.sender := by
  obtain ⟨sent, settled⟩ := outbound.settled
  have inv := settled.toEncodes
  obtain ⟨u, speaks, frame⟩ := e.step_speaks act
  refine Advances.trans ?_ (.frame frame)
  refine speaks.rule (P := Advances e.conn.sender) (.refl _) inv.fillWindow_advances ?_ ?_ ?_ ?_
  · intro data _
    have wrote : Advances e.conn.sender (e.conn.sender.write data).2 := .same rfl rfl rfl rfl
    exact wrote.trans (inv.write data).fillWindow_advances
  · intro _
    have ended : Advances e.conn.sender e.conn.sender.endInput := .same rfl rfl rfl rfl
    exact ended.trans inv.endInput.fillWindow_advances
  · intro ms
    obtain ⟨_, _, _, _, _, eq⟩ := e.conn.sender.tick_eq ms
    rw [eq]
    exact .same rfl rfl rfl rfl
  · exact fun seg _ _ => inv.ackReceived_advances _ _

/-- An act never revives a connection and never clears an error. -/
theorem step_flags (e : Endpoint) (act : Act) :
    (e.conn.active = false → (e.step act).conn.active = false) ∧
    (e.conn.sender.stream.error = true → (e.step act).conn.sender.stream.error = true) ∧
    (e.conn.receiver.streamOut.error = true → (e.step act).conn.receiver.streamOut.error = true) := by
  obtain ⟨_, outcome, _⟩ := Session.step_outcome ⟨e, 0⟩ act
  have kept : ∀ errors : Bool × Bool, (e.step act).conn.errors = errors →
      (e.step act).conn.sender.stream.error = errors.1 ∧
        (e.step act).conn.receiver.streamOut.error = errors.2 :=
    fun errors eq => ⟨congrArg Prod.fst eq, congrArg Prod.snd eq⟩
  rcases outcome.how with ⟨active, errors⟩ | ⟨active, errors, _⟩ | ⟨active, errors⟩ <;>
    obtain ⟨sending, receiving⟩ := kept _ errors
  · exact ⟨fun stopped => active.trans stopped, fun set => sending.trans set, fun set => receiving.trans set⟩
  · exact ⟨fun _ => active, fun set => sending.trans set, fun set => receiving.trans set⟩
  · exact ⟨fun _ => active, fun _ => sending, fun _ => receiving⟩

theorem active_of_step {e : Endpoint} {act : Act} (active : (e.step act).conn.active = true) :
    e.conn.active = true := by
  by_contra stopped
  have still := (e.step_flags act).1 (by simpa using stopped)
  simp [active] at still

/-- What an orderly run keeps. -/
structure Kept (e : Endpoint) : Prop where
  outbound : Outbound e.accepted e.conn
  proper : Proper e

theorem new_kept (cfg : TCPConfig) (random : WrappingInt32) : Kept (new cfg random) :=
  ⟨new_outbound _ _, by simp [new, TCPConnection.new, TCPSender.new, ByteStream.new],
    by simp [new, TCPConnection.new, TCPSender.new, Drained]⟩

theorem Kept.step (kept : Kept e) (orderly : e.Orderly act) : Kept (e.step act) := by
  obtain ⟨_, _, effect⟩ := e.step_effect kept.outbound act
  exact ⟨effect.outbound, kept.proper.step kept.outbound orderly⟩

theorem Kept.summary_eq_stage (kept : Kept e) :
    TCPState.senderSummary e.conn.sender = e.conn.sender.stage := by
  obtain ⟨_, settled⟩ := kept.outbound.settled
  exact settled.toEncodes.senderSummary_eq_stage kept.proper.drained

/-- One act moves the state forward. -/
theorem Kept.forward (kept : Kept e) (orderly : e.Orderly act) :
    TCPState.Forward e.conn.state (e.step act).conn.state := by
  obtain ⟨active, sending, receiving⟩ := e.step_flags act
  refine ⟨?_, ?_, active⟩
  · change (TCPState.senderSummary _).rank ≤ (TCPState.senderSummary _).rank
    rw [kept.summary_eq_stage, (kept.step orderly).summary_eq_stage]
    exact (e.step_advances kept.outbound act).stage_le sending
  · obtain ⟨heard, hears, effect⟩ := e.step_effect kept.outbound act
    have onward := Onward.of_hears hears
    refine Onward.summary_le (r := e.conn.receiver) ?_ receiving
    rcases effect.receiver with eq | eq <;> rw [eq]
    · exact onward
    · exact ⟨onward.syn, onward.ended⟩

/-- Runs in which the application does not write after ending its stream, with
any incoming segments. -/
abbrev OrderlyRuns (cfg : TCPConfig) (random : WrappingInt32) : Endpoint → Prop :=
  Run.Reaches step Orderly (new cfg random)

/-- Between any two moments of an orderly run the state has only moved forward. -/
theorem run_state_forward (cfg : TCPConfig) (random : WrappingInt32) (e later : Endpoint)
    (run : OrderlyRuns cfg random e) (more : Run.Reaches step Orderly e later) :
    TCPState.Forward e.conn.state later.conn.state := by
  have kept : Kept e := run.invariant (new_kept cfg random) (fun _ _ kept orderly => kept.step orderly)
  have both : Kept later ∧ TCPState.Forward e.conn.state later.conn.state :=
    more.invariant (P := fun later => Kept later ∧ TCPState.Forward e.conn.state later.conn.state)
      ⟨kept, .refl _⟩ (fun _ _ now orderly =>
        ⟨now.1.step orderly, now.2.trans (now.1.forward orderly)⟩)
  exact both.2

/-- The passive close of a session: three states of its sender, two of its receiver. -/
def closing : Endpoint := Session.passiveClose.foldl step (new Network.smallConfig ⟨0⟩)

theorem run_state_forward_closing :
    let closed := closing.step (.deliver (Session.peerSegment 2 2 false false))
    (OrderlyRuns Network.smallConfig ⟨0⟩ closing ∧ Run.Reaches step Orderly closing closed ∧
      closing.conn.state = TCPState.ofState .lastAck) ∧
    TCPState.Forward closing.conn.state closed.conn.state := by
  have run : OrderlyRuns Network.smallConfig ⟨0⟩ closing :=
    Run.Permits.reaches (show Run.Permits step Orderly _ Session.passiveClose by decide +kernel)
  have more : Run.Reaches step Orderly closing
      (closing.step (.deliver (Session.peerSegment 2 2 false false))) := (Run.Reaches.refl closing).snoc _ trivial
  exact ⟨⟨run, more, by decide +kernel⟩, run_state_forward _ _ _ _ run more⟩

end Endpoint
end Sponge
