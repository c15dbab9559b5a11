import Sponge.TCP.Sender.Filled
import Sponge.TCP.Progress
import Sponge.TCP.Replies

/-! What a connection does after it has stopped. Incoming segments and ticks are
refused; the application's own calls are not, and still fill the window and
flush whatever was left on the sender's queue. -/
namespace Sponge
open TCPConnection TCPSender

namespace TCPConnection

/-- `fillWindow` and a flush, as the application's calls end. -/
theorem fill_quiet_iff (c : TCPConnection) (u : TCPSender) (queue : u.segmentsOut = c.sender.segmentsOut) :
    { c with sender := u.fillWindow }.sendSegsFromSender.segmentsOut = c.segmentsOut ↔
      c.sender.segmentsOut = [] ∧ u.Stalled := by
  obtain ⟨new, pushes⟩ := u.fillWindow_pushes
  rw [sendSegsFromSender_out, ← u.fillWindow_quiet_iff, ← queue]
  change c.segmentsOut ++ u.fillWindow.segmentsOut.map _ = c.segmentsOut ↔ _
  rw [eq_comm, List.self_eq_append_right, List.map_eq_nil_iff, pushes.out, List.append_eq_nil_iff]
  refine and_congr_right (fun empty => ?_)
  rw [empty, List.nil_append]

end TCPConnection

namespace Endpoint

variable {e : Endpoint} {cfg : TCPConfig} {random : WrappingInt32}

/-- A call to a stopped connection that sends nothing: an incoming segment, a
tick or a read, an empty write, or a call that finds the sender's queue empty
and `fillWindow` with nothing to send. -/
def Quiet (e : Endpoint) : Act → Prop
  | .connect => e.conn.sender.segmentsOut = [] ∧ e.conn.sender.Stalled
  | .write data => data = [] ∨
      (e.conn.sender.segmentsOut = [] ∧ (e.conn.sender.write data).2.Stalled)
  | .endInputStream => e.conn.sender.segmentsOut = [] ∧ e.conn.sender.endInput.Stalled
  | .tick _ => True
  | .read _ => True
  | .deliver _ => True

instance (e : Endpoint) (act : Act) : Decidable (e.Quiet act) :=
  match act with
  | .connect => inferInstanceAs (Decidable (_ ∧ _))
  | .write data => inferInstanceAs (Decidable (data = [] ∨ (_ ∧ _)))
  | .endInputStream => inferInstanceAs (Decidable (_ ∧ _))
  | .tick _ => isTrue trivial
  | .read _ => isTrue trivial
  | .deliver _ => isTrue trivial

/-- One call after the connection has stopped. -/
theorem step_quiet_iff (stopped : e.conn.active = false) (act : Act) :
    (e.step act).conn.segmentsOut = e.conn.segmentsOut ↔ e.Quiet act := by
  cases act with
  | connect => exact fill_quiet_iff e.conn e.conn.sender rfl
  | write data =>
    by_cases empty : data = []
    · subst empty
      exact iff_of_true rfl (Or.inl rfl)
    · have call : (e.step (.write data)).conn =
          { e.conn with sender := (e.conn.sender.write data).2.fillWindow }.sendSegsFromSender := by
        rw [step, TCPConnection.write, if_neg (by simpa using empty)]
      rw [call, fill_quiet_iff e.conn (e.conn.sender.write data).2 rfl, Quiet]
      simp [empty]
  | endInputStream => exact fill_quiet_iff e.conn e.conn.sender.endInput rfl
  | tick ms =>
    have refused : e.conn.tick ms = e.conn := if_pos stopped
    exact iff_of_true (by rw [step, refused]) trivial
  | read len => exact iff_of_true rfl trivial
  | deliver seg =>
    have refused : e.conn.segmentReceived seg = e.conn := if_pos stopped
    exact iff_of_true (by rw [step, refused]) trivial

theorem Runs.foldl_out (run : Runs cfg random e) (acts : List Act) :
    e.conn.segmentsOut <+: (acts.foldl Endpoint.step e).conn.segmentsOut := by
  induction acts generalizing e with
  | nil => exact List.prefix_rfl
  | cons act rest ih =>
    obtain ⟨new, sends⟩ := e.step_sends run.outbound act
    exact (sends.out ▸ List.prefix_append _ _).trans (ih (run.step act))

/-- A stopped connection stays silent through any further calls exactly if each
of them is quiet where it is made. -/
theorem run_silent_iff (cfg : TCPConfig) (random : WrappingInt32) (e : Endpoint) (run : Runs cfg random e)
    (stopped : e.conn.active = false) (acts : List Act) :
    (acts.foldl step e).conn.segmentsOut = e.conn.segmentsOut ↔ Run.Permits step Quiet e acts := by
  induction acts generalizing e with
  | nil => exact iff_of_true rfl trivial
  | cons act rest ih =>
    have later := ih (e.step act) (run.step act) ((e.step_flags act).1 stopped)
    have one := step_quiet_iff stopped act
    rw [List.foldl_cons, Run.Permits, ← one, ← later]
    constructor
    · intro same
      -- The queue only grows, so it has not grown in between.
      have before := run.foldl_out [act]
      have after := (run.step act).foldl_out rest
      rw [same] at after
      have middle : (e.step act).conn.segmentsOut = e.conn.segmentsOut :=
        after.eq_of_length_le before.length_le
      exact ⟨middle, same.trans middle.symm⟩
    · rintro ⟨first, others⟩
      exact others.trans first

/-- The connection attempt is refused: the SYN stays unacknowledged for ever. -/
def refused : Endpoint := opening.step (.deliver resetSegment)

theorem run_silent_iff_refused :
    (Runs Network.smallConfig ⟨0⟩ refused ∧ refused.conn.active = false ∧
      Run.Permits step Quiet refused [.write [1], .endInputStream, .tick 5]) ∧
    (([.write [1], .endInputStream, .tick 5].foldl step refused).conn.segmentsOut = refused.conn.segmentsOut ↔
      Run.Permits step Quiet refused [.write [1], .endInputStream, .tick 5]) := by
  have run : Runs Network.smallConfig ⟨0⟩ refused :=
    ((new_runs _ _).step .connect).step (.deliver resetSegment)
  exact ⟨⟨run, by decide +kernel, by decide +kernel⟩, run_silent_iff _ _ _ run (by decide +kernel) _⟩

/-- The peer has reset an established connection. -/
def reset : Endpoint := opened.step (.deliver resetSegment)

/-- The stream of a dead connection is ended, and its FIN goes out. -/
theorem reset_sends_fin :
    Runs Network.smallConfig ⟨0⟩ reset ∧ reset.conn.active = false ∧
      (reset.step .endInputStream).conn.segmentsOut ≠ reset.conn.segmentsOut := by
  have run : Runs Network.smallConfig ⟨0⟩ reset :=
    (((new_runs _ _).step .connect).step (.deliver Network.synAckSegment)).step (.deliver resetSegment)
  exact ⟨run, by decide +kernel, by decide +kernel⟩

end Endpoint
end Sponge
