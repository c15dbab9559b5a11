import Sponge.TCP.Endpoints
import Sponge.TCP.State

/-! How a connection stops being active: reset, with both streams in error, or
closed, with both streams finished. `cleanShutdown` never asks whether a FIN was
sent; a sender with a finished stream and nothing in flight has always sent it. -/
namespace Sponge
open TCPConnection TCPReceiver

namespace TCPReceiver

theorem segmentReceived_error (r : TCPReceiver) (seg : TCPSegment) :
    (r.segmentReceived seg).streamOut.error = r.streamOut.error :=
  r.segmentReceived_output_rule (P := fun s => s.error = r.streamOut.error) seg rfl
    (fun _ _ same => same) (fun _ same => same)

theorem receive_syn (r : TCPReceiver) (seg : TCPSegment) : (r.receive seg).syn = r.syn := by
  rcases r.receive_cases seg with ⟨_, _, eq⟩ | ⟨_, eq⟩ <;> rw [eq]
  rfl

/-- A receiver that has changed has seen the SYN. -/
theorem segmentReceived_syn (r : TCPReceiver) (seg : TCPSegment) :
    r.segmentReceived seg = r ∨ (r.segmentReceived seg).syn = true := by
  rcases r.segmentReceived_cases seg with eq | ⟨_, _, eq⟩ | ⟨_, known, eq⟩
  · exact Or.inl eq
  · right
    rw [eq, receive_syn]
  · right
    rw [eq, receive_syn, known]

end TCPReceiver

namespace TCPSender

theorem ackReceived_error (s : TCPSender) (ackno : WrappingInt32) (window : UInt16) :
    (s.ackReceived ackno window).stream.error = s.stream.error := by
  obtain ⟨u, ⟨stream, _⟩, eq⟩ := s.ackReceived_fill ackno window
  rcases eq with eq | eq <;> rw [eq]
  · rw [stream]
  · rw [fillWindow_error, stream]

theorem tick_error (s : TCPSender) (ms : Nat) : (s.tick ms).stream.error = s.stream.error := by
  obtain ⟨_, _, _, _, _, eq⟩ := s.tick_eq ms
  rw [eq]

end TCPSender

namespace TCPConnection

variable {c d e : TCPConnection}

def errors (c : TCPConnection) : Bool × Bool := (c.sender.stream.error, c.receiver.streamOut.error)

/-- Still as active as before, with the error flags, the configuration and the
silence counted so far. -/
structure Calm (c d : TCPConnection) : Prop where
  active : d.active = c.active
  errors : d.errors = c.errors
  cfg : d.cfg = c.cfg
  time : d.timeSinceLastSegmentReceived = c.timeSinceLastSegmentReceived

/-- Everything `cleanShutdown` asks for before it closes. -/
structure Finished (c : TCPConnection) : Prop where
  sent : c.sender.stream.eof = true
  heard : c.receiver.streamOut.inputEnded = true
  landed : c.sender.bytesInFlight = 0
  waited : c.lingerAfterStreamsFinish = false ∨
    10 * c.cfg.rtTimeout.toNat ≤ c.timeSinceLastSegmentReceived

/-- The three outcomes of an operation: going on, closed, or reset. -/
structure Outcome (c d : TCPConnection) : Prop where
  cfg : d.cfg = c.cfg
  time : d.timeSinceLastSegmentReceived = c.timeSinceLastSegmentReceived
  how : (d.active = c.active ∧ d.errors = c.errors) ∨
    (d.active = false ∧ d.errors = c.errors ∧ Finished d) ∨
    (d.active = false ∧ d.errors = (true, true))

theorem Calm.outcome (calm : Calm c d) : Outcome c d :=
  ⟨calm.cfg, calm.time, Or.inl ⟨calm.active, calm.errors⟩⟩

theorem Calm.trans (first : Calm c d) (second : Calm d e) : Calm c e :=
  ⟨second.active.trans first.active, second.errors.trans first.errors, second.cfg.trans first.cfg,
    second.time.trans first.time⟩

theorem Calm.then (calm : Calm c d) (outcome : Outcome d e) : Outcome c e := by
  refine ⟨outcome.cfg.trans calm.cfg, outcome.time.trans calm.time, ?_⟩
  rw [← calm.active, ← calm.errors]
  exact outcome.how

/-- A reset connection stays reset. -/
theorem Outcome.reset (outcome : Outcome c d) (stopped : c.active = false)
    (failed : c.errors = (true, true)) : d.active = false ∧ d.errors = (true, true) := by
  rcases outcome.how with ⟨active, errors⟩ | ⟨active, errors, _⟩ | reset
  · exact ⟨active.trans stopped, errors.trans failed⟩
  · exact ⟨active, errors.trans failed⟩
  · exact reset

theorem Calm.sender (c : TCPConnection) (u : TCPSender) (error : u.stream.error = c.sender.stream.error) :
    Calm c { c with sender := u } :=
  ⟨rfl, by rw [TCPConnection.errors, error]; rfl, rfl, rfl⟩

theorem Calm.receiver (c : TCPConnection) (seg : TCPSegment) :
    Calm c { c with receiver := c.receiver.segmentReceived seg } :=
  ⟨rfl, by rw [TCPConnection.errors, segmentReceived_error]; rfl, rfl, rfl⟩

theorem cleanShutdown_outcome (c : TCPConnection) : Outcome c c.cleanShutdown := by
  have stop : Calm c c.stopLinger := by
    unfold stopLinger
    split_ifs <;> exact ⟨rfl, rfl, rfl, rfl⟩
  refine stop.then ?_
  unfold cleanShutdown
  dsimp only
  split_ifs with finished waited
  · exact ⟨rfl, rfl, Or.inr (Or.inl ⟨rfl, rfl, finished.1, finished.2.1, finished.2.2, waited⟩)⟩
  · exact Calm.outcome ⟨rfl, rfl, rfl, rfl⟩
  · exact Calm.outcome ⟨rfl, rfl, rfl, rfl⟩

theorem sendSegsFromSender_outcome (c : TCPConnection) : Outcome c c.sendSegsFromSender :=
  (show Calm c c.flush from ⟨rfl, rfl, rfl, rfl⟩).then c.flush.cleanShutdown_outcome

theorem kill_outcome (c : TCPConnection) : Outcome c c.kill :=
  ⟨rfl, rfl, Or.inr (Or.inr ⟨rfl, rfl⟩)⟩

theorem uncleanShutdown_reset (c : TCPConnection) :
    c.uncleanShutdown.active = false ∧ c.uncleanShutdown.errors = (true, true) ∧
      c.uncleanShutdown.cfg = c.cfg ∧
      c.uncleanShutdown.timeSinceLastSegmentReceived = c.timeSinceLastSegmentReceived := by
  unfold uncleanShutdown
  dsimp only
  split <;> exact ⟨rfl, rfl, rfl, rfl⟩

theorem uncleanShutdown_outcome (c : TCPConnection) : Outcome c c.uncleanShutdown := by
  obtain ⟨active, errors, cfg, time⟩ := c.uncleanShutdown_reset
  exact ⟨cfg, time, Or.inr (Or.inr ⟨active, errors⟩)⟩

/-- `fillWindow` and the flush, as three operations end. -/
theorem fill_outcome (c : TCPConnection) (u : TCPSender) (error : u.stream.error = c.sender.stream.error) :
    Outcome c { c with sender := u.fillWindow }.sendSegsFromSender :=
  (Calm.sender c u.fillWindow (u.fillWindow_error.trans error)).then (sendSegsFromSender_outcome _)

theorem connect_outcome (c : TCPConnection) : Outcome c c.connect := fill_outcome c c.sender rfl

theorem write_outcome (c : TCPConnection) (data : List UInt8) : Outcome c (c.write data).2 := by
  unfold write
  split
  · exact Calm.outcome ⟨rfl, rfl, rfl, rfl⟩
  · exact fill_outcome c (c.sender.write data).2 rfl

theorem endInputStream_outcome (c : TCPConnection) : Outcome c c.endInputStream :=
  fill_outcome c c.sender.endInput rfl

/-- The time counts first, then the operation has its outcome. -/
theorem tick_outcome (c : TCPConnection) (ms : Nat) (active : c.active = true) :
    Outcome { c with
      timeSinceLastSegmentReceived := FixedWidth.add 64 c.timeSinceLastSegmentReceived ms }
      (c.tick ms) := by
  have timed := Calm.sender { c with
    timeSinceLastSegmentReceived := FixedWidth.add 64 c.timeSinceLastSegmentReceived ms }
    (c.sender.tick ms) (c.sender.tick_error ms)
  unfold tick
  rw [if_neg (by simp [active])]
  refine timed.then ?_
  dsimp only
  split
  · -- Reset first; the flush that follows cannot undo it.
    obtain ⟨stopped, errors, cfg, time⟩ := uncleanShutdown_reset { c with
      timeSinceLastSegmentReceived := FixedWidth.add 64 c.timeSinceLastSegmentReceived ms
      sender := c.sender.tick ms }
    have sent := sendSegsFromSender_outcome (uncleanShutdown { c with
      timeSinceLastSegmentReceived := FixedWidth.add 64 c.timeSinceLastSegmentReceived ms
      sender := c.sender.tick ms })
    exact ⟨sent.cfg.trans cfg, sent.time.trans time, Or.inr (Or.inr (sent.reset stopped errors))⟩
  · exact sendSegsFromSender_outcome _

theorem answer_calm (c : TCPConnection) (seg : TCPSegment) : Calm c (c.answer seg) := by
  unfold answer
  split_ifs <;> exact ⟨rfl, rfl, rfl, rfl⟩

theorem established_outcome (c : TCPConnection) (seg : TCPSegment) : Outcome c (c.established seg) := by
  have delivered : Calm c (c.deliver seg) :=
    (Calm.receiver c seg).trans (Calm.sender _ _ (c.sender.ackReceived_error _ _))
  unfold established
  dsimp only
  split
  · exact (delivered.trans (Calm.sender _ (c.deliver seg).sender.sendEmptySegment rfl)).then (uncleanShutdown_outcome _)
  · exact (delivered.trans (answer_calm _ seg)).then (sendSegsFromSender_outcome _)

theorem dispatch_outcome (c : TCPConnection) (seg : TCPSegment) : Outcome c (c.dispatch seg) := by
  have stay : Outcome c c := Calm.outcome ⟨rfl, rfl, rfl, rfl⟩
  unfold dispatch
  split
  · split
    · exact stay
    · exact (Calm.receiver c seg).then (connect_outcome _)
  · split
    · split
      · split
        · exact ((Calm.receiver c seg).trans (Calm.sender _ c.sender.sendEmptySegment rfl)).outcome
        · exact stay
      · split
        · exact kill_outcome c
        · exact established_outcome c seg
    · exact established_outcome c seg

theorem segmentReceived_outcome (c : TCPConnection) (seg : TCPSegment) (active : c.active = true) :
    Outcome { c with timeSinceLastSegmentReceived := 0 } (c.segmentReceived seg) := by
  unfold segmentReceived
  rw [if_neg (by simp [active])]
  exact dispatch_outcome _ seg

variable {accepted : List UInt8}

/-- Below 2^31 sequence numbers, finished streams mean that the FIN is out. -/
theorem Finished.finSent (finished : Finished c) (outbound : Outbound accepted c)
    (short : accepted.length < 2 ^ 31 - 2) :
    c.sender.finSent = true ∧ c.sender.nextSeqno = c.sender.stream.bytesWritten + 2 := by
  obtain ⟨sent, settled⟩ := outbound.settled
  have written := settled.toEncodes.bytesWritten
  have counted := c.sender.stream.counted
  have drained := ((ByteStream.eof_iff _).mp finished.sent).1
  have next := settled.toEncodes.next_eq
  have small : c.sender.nextSeqno < 2 ^ 31 := by
    split at next <;> split at next <;> omega
  have fin := settled.finished small finished.sent finished.landed
  rw [settled.toEncodes.synSent_of_finSent fin, fin] at next
  rw [drained, List.length_nil] at counted
  refine ⟨fin, ?_⟩
  change c.sender.nextSeqno = c.sender.stream.writeBytes + 2
  rw [next, counted]
  rfl

/-- A connection that closed is in the state CLOSED. -/
theorem Finished.state_closed (finished : Finished c) (outbound : Outbound accepted c)
    (short : accepted.length < 2 ^ 31 - 2) (stopped : c.active = false)
    (clean : c.errors = (false, false))
    (began : c.receiver.streamOut.inputEnded = true → c.receiver.syn = true) :
    c.state = TCPState.ofState .closed := by
  obtain ⟨_, next⟩ := finished.finSent outbound short
  have sending : c.sender.stream.error = false := congrArg Prod.fst clean
  have receiving : c.receiver.streamOut.error = false := congrArg Prod.snd clean
  have syn := began finished.heard
  have heard := finished.heard
  simp [state, TCPState.of, TCPState.ofState, TCPState.senderSummary, TCPState.receiverSummary,
    TCPReceiver.ackno, sending, receiving, syn, heard, stopped, next, finished.sent, finished.landed]

end TCPConnection

/-- An endpoint with the milliseconds of ticks since the last incoming segment. -/
structure Session where
  endpoint : Endpoint
  silence : Nat

namespace Session

def start (cfg : TCPConfig) (random : WrappingInt32) : Session := ⟨.new cfg random, 0⟩

def step (s : Session) (act : Act) : Session where
  endpoint := s.endpoint.step act
  silence := match act with
    | .tick ms => s.silence + ms
    | .deliver _ => 0
    | _ => s.silence

/-- Any operations and any incoming segments. -/
abbrev Runs (cfg : TCPConfig) (random : WrappingInt32) : Session → Prop :=
  Run.Reaches step (fun _ _ => True) (start cfg random)

variable {s : Session} {cfg : TCPConfig} {random : WrappingInt32}

/-- Every operation has an outcome, once its time is counted. -/
theorem step_outcome (s : Session) (act : Act) : ∃ time,
    Outcome { s.endpoint.conn with timeSinceLastSegmentReceived := time } (s.step act).endpoint.conn ∧
      (s.endpoint.conn.active = true → s.endpoint.conn.timeSinceLastSegmentReceived ≤ s.silence →
        time ≤ (s.step act).silence) := by
  cases act with
  | connect => exact ⟨_, connect_outcome _, fun _ counted => counted⟩
  | write data => exact ⟨_, write_outcome _ data, fun _ counted => counted⟩
  | endInputStream => exact ⟨_, endInputStream_outcome _, fun _ counted => counted⟩
  | read len => exact ⟨_, Calm.outcome ⟨rfl, rfl, rfl, rfl⟩, fun _ counted => counted⟩
  | tick ms =>
    cases active : s.endpoint.conn.active
    case false =>
      refine ⟨s.endpoint.conn.timeSinceLastSegmentReceived, ?_, by simp⟩
      rw [show (s.step (.tick ms)).endpoint.conn = s.endpoint.conn from if_pos active]
      exact Calm.outcome ⟨rfl, rfl, rfl, rfl⟩
    case true =>
      refine ⟨_, tick_outcome _ ms active, fun _ counted => ?_⟩
      have wrapped := Nat.mod_le (s.endpoint.conn.timeSinceLastSegmentReceived + ms) (2 ^ 64)
      simp only [FixedWidth.add, step]
      omega
  | deliver seg =>
    cases active : s.endpoint.conn.active
    case false =>
      refine ⟨s.endpoint.conn.timeSinceLastSegmentReceived, ?_, by simp⟩
      rw [show (s.step (.deliver seg)).endpoint.conn = s.endpoint.conn from if_pos active]
      exact Calm.outcome ⟨rfl, rfl, rfl, rfl⟩
    case true => exact ⟨0, segmentReceived_outcome _ seg active, fun _ _ => Nat.zero_le _⟩

/-- What holds at any time; the rest while the connection is active. -/
structure Sound (cfg : TCPConfig) (s : Session) : Prop where
  outbound : Outbound s.endpoint.accepted s.endpoint.conn
  began : s.endpoint.conn.receiver.streamOut.inputEnded = true → s.endpoint.conn.receiver.syn = true
  clean : s.endpoint.conn.active = true → s.endpoint.conn.errors = (false, false)
  counted : s.endpoint.conn.active = true → s.endpoint.conn.timeSinceLastSegmentReceived ≤ s.silence
  cfg : s.endpoint.conn.cfg = cfg

theorem start_sound (cfg : TCPConfig) (random : WrappingInt32) : Sound cfg (start cfg random) :=
  ⟨new_outbound _ _, by simp [start, Endpoint.new, TCPConnection.new, TCPReceiver.new, streamOut,
    StreamReassembler.new, ByteStream.new, ByteStream.inputEnded], fun _ => rfl, fun _ => Nat.le_refl _, rfl⟩

/-- Only a receiver that has seen the SYN can end its stream. -/
theorem step_began (outbound : Outbound s.endpoint.accepted s.endpoint.conn)
    (began : s.endpoint.conn.receiver.streamOut.inputEnded = true → s.endpoint.conn.receiver.syn = true)
    (act : Act) : (s.step act).endpoint.conn.receiver.streamOut.inputEnded = true →
      (s.step act).endpoint.conn.receiver.syn = true := by
  obtain ⟨heard, hears, effect⟩ := s.endpoint.step_effect outbound act
  suffices after : heard.streamOut.inputEnded = true → heard.syn = true by
    rcases effect.receiver with eq | eq <;>
      simp only [step, eq] <;> exact after
  refine hears.rule (P := fun r => r.streamOut.inputEnded = true → r.syn = true) (fun _ => began)
    (fun len _ => began) (fun seg _ => ?_)
  rcases segmentReceived_syn s.endpoint.conn.receiver seg with same | syn
  · rw [same]
    exact began
  · exact fun _ => syn

theorem Sound.step (sound : Sound cfg s) (act : Act) : Sound cfg (s.step act) := by
  obtain ⟨_, _, effect⟩ := s.endpoint.step_effect sound.outbound act
  obtain ⟨time, outcome, counted⟩ := s.step_outcome act
  refine ⟨effect.outbound, step_began sound.outbound sound.began act, ?_, ?_,
    outcome.cfg.trans sound.cfg⟩
  all_goals
    intro active
    rcases outcome.how with ⟨same, errors⟩ | ⟨stopped, _⟩ | ⟨stopped, _⟩
  · exact errors.trans (sound.clean (same.symm.trans active))
  · simp [active] at stopped
  · simp [active] at stopped
  · have before := same.symm.trans active
    rw [outcome.time]
    exact counted before (sound.counted before)
  · simp [active] at stopped
  · simp [active] at stopped

theorem Runs.sound (run : Runs cfg random s) : Sound cfg s :=
  run.invariant (start_sound cfg random) (fun _ act sound _ => sound.step act)

/-- A connection that stops being active without an error is in CLOSED: the FIN
is out, everything is acknowledged and the inbound stream has ended; and it
need not linger, or has been silent for ten timeouts. -/
theorem run_clean_close (cfg : TCPConfig) (random : WrappingInt32) (s : Session) (run : Runs cfg random s)
    (act : Act) (short : (s.step act).endpoint.accepted.length < 2 ^ 31 - 2)
    (active : s.endpoint.conn.active = true) (stopped : (s.step act).endpoint.conn.active = false)
    (clean : (s.step act).endpoint.conn.errors ≠ (true, true)) :
    (s.step act).endpoint.conn.state = TCPState.ofState .closed ∧
      ((s.step act).endpoint.conn.sender.finSent = true ∧
        (s.step act).endpoint.conn.sender.bytesInFlight = 0 ∧
        (s.step act).endpoint.conn.receiver.streamOut.inputEnded = true) ∧
      ((s.step act).endpoint.conn.lingerAfterStreamsFinish = false ∨
        10 * cfg.rtTimeout.toNat ≤ (s.step act).silence) := by
  have before := run.sound
  have after := before.step act
  obtain ⟨time, outcome, counted⟩ := s.step_outcome act
  rcases outcome.how with ⟨same, _⟩ | ⟨_, errors, finished⟩ | ⟨_, failed⟩
  · rw [same] at stopped
    simp [active] at stopped
  · have waited := finished.waited
    rw [after.cfg, outcome.time] at waited
    exact ⟨finished.state_closed after.outbound short stopped (errors.trans (before.clean active))
      after.began, ⟨(finished.finSent after.outbound short).1, finished.landed, finished.heard⟩,
      waited.imp_right (fun long => long.trans (counted active (before.counted active)))⟩
  · exact absurd failed clean

/-- A segment of the peer of a passive connection. -/
def peerSegment (seqno ackno : UInt32) (syn fin : Bool) : TCPSegment where
  header := { seqno := ⟨seqno⟩, ack := !syn, ackno := ⟨ackno⟩, syn := syn, fin := fin, win := 8 }

/-- The peer opens and closes; then the stream is ended and the FIN goes out. -/
def passiveClose : List Act :=
  [.deliver (peerSegment 0 0 true false), .deliver (peerSegment 1 1 false false),
    .deliver (peerSegment 1 1 false true), .endInputStream]

def lastAck : Session := passiveClose.foldl step (start Network.smallConfig ⟨0⟩)

theorem run_clean_close_lastAck :
    let closed := lastAck.step (.deliver (peerSegment 2 2 false false))
    (Runs Network.smallConfig ⟨0⟩ lastAck ∧ lastAck.endpoint.conn.active = true ∧
      closed.endpoint.conn.active = false ∧ closed.endpoint.conn.errors ≠ (true, true)) ∧
    closed.endpoint.conn.state = TCPState.ofState .closed ∧
      (closed.endpoint.conn.sender.finSent = true ∧ closed.endpoint.conn.sender.bytesInFlight = 0 ∧
        closed.endpoint.conn.receiver.streamOut.inputEnded = true) ∧
      (closed.endpoint.conn.lingerAfterStreamsFinish = false ∨
        10 * Network.smallConfig.rtTimeout.toNat ≤ closed.silence) := by
  have run : Runs Network.smallConfig ⟨0⟩ lastAck :=
    Run.Permits.reaches (show Run.Permits step (fun _ _ => True) _ passiveClose by decide +kernel)
  exact ⟨⟨run, by decide +kernel, by decide +kernel, by decide +kernel⟩,
    run_clean_close Network.smallConfig ⟨0⟩ lastAck run _ (by decide +kernel) (by decide +kernel)
      (by decide +kernel) (by decide +kernel)⟩

end Session
end Sponge
