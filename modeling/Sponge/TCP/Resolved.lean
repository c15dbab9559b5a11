import Sponge.TCP.CleanClose
import Sponge.TCP.Progress

/-! How a connection ends. One that is not active any more was reset, or has
finished both directions: its FIN is acknowledged and its inbound stream has
ended. An application that does not write after the end cannot change that. -/
namespace Sponge
open TCPConnection TCPSender

namespace TCPConnection

/-- Both directions are finished, without an error. -/
structure Closed (c : TCPConnection) : Prop where
  errors : c.errors = (false, false)
  finSent : c.sender.finSent = true
  landed : c.sender.bytesInFlight = 0
  heard : c.receiver.streamOut.inputEnded = true

variable {c : TCPConnection}

/-- Only the two flags of the connection and its queues change. -/
theorem Closed.sendSegsFromSender (closed : Closed c) : Closed c.sendSegsFromSender := by
  obtain ⟨linger, active, eq⟩ := c.flush.cleanShutdown_eq
  rw [TCPConnection.sendSegsFromSender, eq]
  exact ⟨closed.errors, closed.finSent, closed.landed, closed.heard⟩

end TCPConnection

namespace Endpoint

variable {e : Endpoint} {act : Act} {cfg : TCPConfig} {random : WrappingInt32}

def Resolved (e : Endpoint) : Prop := e.conn.active = false → e.conn.errors = (true, true) ∨ e.conn.Closed

theorem Kept.synSent (kept : Kept e) (finished : e.conn.sender.finSent = true) : e.conn.sender.synSent = true := by
  obtain ⟨_, settled⟩ := kept.outbound.settled
  exact settled.toEncodes.synSent_of_finSent finished

/-- A closed connection stays closed. -/
theorem Kept.closed_step (kept : Kept e) (stopped : e.conn.active = false) (closed : e.conn.Closed)
    (orderly : e.Orderly act) : (e.step act).conn.Closed := by
  have finished := closed.finSent
  have opened := kept.synSent finished
  cases act with
  | connect =>
    have same := fillWindow_finSent opened finished
    have filled : Closed { e.conn with sender := e.conn.sender.fillWindow } := by
      rw [same]
      exact ⟨closed.errors, closed.finSent, closed.landed, closed.heard⟩
    exact filled.sendSegsFromSender
  | write data =>
    have ended := (kept.proper.finished kept.outbound finished).1
    simp [show e.ended = false from orderly] at ended
  | endInputStream =>
    have same := fillWindow_finSent (s := e.conn.sender.endInput) opened finished
    have filled : Closed { e.conn with sender := e.conn.sender.endInput.fillWindow } := by
      rw [same]
      exact ⟨closed.errors, closed.finSent, closed.landed, closed.heard⟩
    exact filled.sendSegsFromSender
  | tick ms =>
    rw [show e.step (.tick ms) = e by simp [Endpoint.step, TCPConnection.tick, stopped]]
    exact closed
  | read len => exact ⟨closed.errors, closed.finSent, closed.landed, closed.heard⟩
  | deliver seg =>
    rw [show e.step (.deliver seg) = e by simp [Endpoint.step, TCPConnection.segmentReceived, stopped]]
    exact closed

/-- An endpoint that is also a session, whose error flags are known. -/
structure Configured (cfg : TCPConfig) (e : Endpoint) : Prop where
  kept : Kept e
  session : ∃ silence, Session.Sound cfg ⟨e, silence⟩
  resolved : e.accepted.length < 2 ^ 31 - 2 → Resolved e

theorem Configured.step (configured : Configured cfg e) (orderly : e.Orderly act) : Configured cfg (e.step act) := by
  obtain ⟨silence, sound⟩ := configured.session
  obtain ⟨_, _, effect⟩ := e.step_effect configured.kept.outbound act
  refine ⟨configured.kept.step orderly, ⟨_, sound.step act⟩, fun short stopped => ?_⟩
  obtain ⟨time, outcome, _⟩ := Session.step_outcome ⟨e, silence⟩ act
  cases active : e.conn.active with
  | true =>
    rcases outcome.how with ⟨same, _⟩ | ⟨_, errors, finished⟩ | ⟨_, failed⟩
    · have stays : (e.step act).conn.active = true := same.trans active
      simp [stopped] at stays
    · exact Or.inr ⟨errors.trans (sound.clean active), (finished.finSent effect.outbound short).1,
        finished.landed, finished.heard⟩
    · exact Or.inl failed
  | false =>
    have before := effect.grown.length_le.trans_lt short
    rcases configured.resolved before active with failed | closed
    · exact Or.inl (outcome.reset active failed).2
    · exact Or.inr (configured.kept.closed_step active closed orderly)

theorem OrderlyRuns.configured (run : OrderlyRuns cfg random e) : Configured cfg e :=
  run.invariant ⟨new_kept cfg random, ⟨0, Session.start_sound cfg random⟩, fun _ active => by cases active⟩
    (fun _ _ watched orderly => watched.step orderly)

end Endpoint
end Sponge
