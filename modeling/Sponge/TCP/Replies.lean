import Sponge.TCP.Emission

/-! What a connection says when it is spoken to: an acknowledgement of every
segment that occupies sequence space, nothing after a reset, and a window that
the receiver can stand by. The source departs from each of the three: the answer
of a simultaneous open is left on the sender's queue, a reset is answered with a
reset, and a window of more than sixteen bits is cut. -/
namespace Sponge
open TCPConnection TCPReceiver TCPSender

theorem TCPReceiver.Stamps.acks {r : TCPReceiver} {seg : TCPSegment} (stamps : r.Stamps seg)
    (known : r.ackno.isSome = true) :
    seg.header.ack = true ∧ r.ackno = some seg.header.ackno ∧
      seg.header.win = UInt16.ofNat r.windowSize := by
  unfold Stamps at stamps
  cases ackno : r.ackno with
  | none => simp [ackno] at known
  | some value =>
    simp only [ackno] at stamps
    exact ⟨stamps.1, by rw [stamps.2.1], stamps.2.2⟩

namespace TCPReceiver

/-- Both capacities are the configured one. -/
def Sized (capacity : Nat) (r : TCPReceiver) : Prop :=
  r.capacity = capacity ∧ r.streamOut.capacity = capacity

theorem Sized.segmentReceived {capacity : Nat} {r : TCPReceiver} (sized : Sized capacity r)
    (seg : TCPSegment) : Sized capacity (r.segmentReceived seg) := by
  refine ⟨?_, r.segmentReceived_output_rule (P := fun s => s.capacity = capacity) seg sized.2
    (fun _ _ same => same) (fun _ same => same)⟩
  have receive : ∀ r : TCPReceiver, (r.receive seg).capacity = r.capacity := by
    intro r
    rcases r.receive_cases seg with ⟨_, _, eq⟩ | ⟨_, eq⟩ <;> rw [eq]
    rfl
  rcases r.segmentReceived_cases seg with eq | ⟨_, _, eq⟩ | ⟨_, _, eq⟩ <;> rw [eq]
  · exact sized.1
  · rw [receive]
    exact sized.1
  · rw [receive]
    exact sized.1

theorem Sized.windowSize_eq {capacity : Nat} {r : TCPReceiver} (sized : Sized capacity r)
    (narrow : capacity < 2 ^ 64) : r.windowSize = capacity - r.streamOut.bufferSize := by
  have fits := r.streamOut.fits
  rw [sized.2] at fits
  rw [windowSize, sized.1]
  exact FixedWidth.sub_of_le fits narrow

/-- The SYN of a peer that sends data with it. -/
def synWith (payload : List UInt8) : TCPSegment := { header := { syn := true }, payload := payload }

/-- A payload that fits takes its own length off the first window. -/
theorem new_windowSize {capacity : Nat} (payload : List UInt8) (narrow : capacity < 2 ^ 64)
    (fits : payload.length ≤ capacity) :
    ((new capacity).segmentReceived (synWith payload)).windowSize = capacity - payload.length := by
  have sized : Sized capacity ((new capacity).segmentReceived (synWith payload)) :=
    Sized.segmentReceived ⟨rfl, rfl⟩ _
  have limit : (StreamReassembler.new capacity).limit = capacity := Nat.zero_add _
  have pushed : StreamReassembler.Pushed (.new capacity) payload 0
      ((StreamReassembler.new capacity).pushSubstring payload 0 false) :=
    StreamReassembler.pushSubstring_spec (StreamReassembler.new_valid capacity) (by rwa [limit]) (by omega) false
  have assembled := pushed.valid.cur_eq (k := payload.length)
    (by
      intro i below
      rw [pushed.held, limit]
      exact Finset.mem_union_right _ (Finset.mem_Ico.mpr ⟨Nat.zero_le _, by omega⟩))
    (by
      rw [pushed.held, limit]
      simp [StreamReassembler.held, StreamReassembler.new])
  have written := pushed.valid.written
  rw [assembled, ByteStream.counted, pushed.readBytes] at written
  rw [sized.windowSize_eq narrow]
  congr 1
  change (StreamReassembler.pushSubstring _ payload 0 false).output.buffer.length = payload.length
  rw [written]
  exact (Nat.zero_add _).symm

end TCPReceiver

namespace TCPConnection

variable {c : TCPConnection} {accepted : List UInt8} {seg : TCPSegment}

theorem Outbound.unopened (outbound : Outbound accepted c) (idle : c.listening = true) :
    c.sender.synSent = false := by
  obtain ⟨sent, settled⟩ := outbound.settled
  have next := settled.toEncodes.next_eq
  have zero : c.sender.nextSeqno = 0 := by
    simpa using (Bool.and_eq_true_iff.mp idle).2
  by_contra opened
  rw [Bool.not_eq_false] at opened
  rw [zero, opened] at next
  simp only [if_true] at next
  omega

theorem segmentReceived_of_active (active : c.active = true) (seg : TCPSegment) :
    c.segmentReceived seg = { c with timeSinceLastSegmentReceived := 0 }.dispatch seg :=
  if_neg (by simp [active])

theorem dispatch_listening (idle : c.listening = true) (syn : seg.header.syn = true) :
    c.dispatch seg = { c with receiver := c.receiver.segmentReceived seg }.connect := by
  rw [dispatch, if_pos idle, if_neg (by simp [syn])]

theorem dispatch_unheard (idle : c.listening = true) (silent : seg.header.syn = false) :
    c.dispatch seg = c := by
  rw [dispatch, if_pos idle, if_pos silent]

/-- What a connection attempt does not accept and does not open with. -/
theorem dispatch_refused (begun : c.listening = false) (sent : c.synSent = true)
    (refused : seg.payload.length > 0 ∨ seg.header.ack = false)
    (other : ¬ (seg.header.ack = false ∧ seg.header.syn = true)) : c.dispatch seg = c := by
  rw [dispatch, if_neg (by simp [begun]), if_pos sent, if_pos refused, if_neg other]

/-- Past the two opening states. -/
theorem dispatch_past (begun : c.listening = false) (past : c.synSent = false) (seg : TCPSegment) :
    c.dispatch seg = c.established seg := by
  rw [dispatch, if_neg (by simp [begun]), if_neg (by simp [past])]

/-- A reset of a connection attempt. -/
theorem dispatch_reset (begun : c.listening = false) (sent : c.synSent = true)
    (plain : seg.header.ack = true ∧ seg.payload = []) (reset : seg.header.rst = true) :
    c.dispatch seg = c.kill := by
  have accepted : ¬ (seg.payload.length > 0 ∨ seg.header.ack = false) := by simp [plain]
  rw [dispatch, if_neg (by simp [begun]), if_pos sent, if_neg accepted, if_pos reset]

/-- The answer to a SYN in the listening state. -/
theorem Outbound.listening_sends (outbound : Outbound accepted c) (idle : c.listening = true)
    (syn : seg.header.syn = true) : ∃ new, Sends c.segmentsOut (c.dispatch seg) new ∧ new ≠ [] := by
  obtain ⟨sent, settled⟩ := outbound.settled
  have received := outbound.receive settled.advance_fillWindow (fillWindow_synSent _)
    (c.receiver.segmentReceived seg)
  rw [dispatch_listening idle syn]
  refine ⟨_, received.outbound.sendSegsFromSender_sends, ?_⟩
  rw [ne_eq, List.map_eq_nil_iff]
  change c.sender.fillWindow.segmentsOut ≠ []
  rw [fillWindow, if_pos (outbound.unopened idle)]
  simp [sendSyn, segmentHandler]

/-- The branch of a simultaneous open. -/
def SimultaneousOpen (c : TCPConnection) (seg : TCPSegment) : Prop :=
  c.synSent = true ∧ seg.header.ack = false ∧ seg.header.syn = true

instance (c : TCPConnection) (seg : TCPSegment) : Decidable (c.SimultaneousOpen seg) :=
  inferInstanceAs (Decidable (_ ∧ _ ∧ _))

theorem SimultaneousOpen.dispatch_eq (opening : c.SimultaneousOpen seg) :
    c.dispatch seg = { c with
      receiver := c.receiver.segmentReceived seg
      sender := c.sender.sendEmptySegment } := by
  obtain ⟨sent, plain, syn⟩ := opening
  have begun : c.listening = false := by
    simp only [synSent, Bool.and_eq_true, decide_eq_true_eq] at sent
    simp only [listening, Bool.and_eq_false_iff]
    exact Or.inr (by simpa using Nat.pos_iff_ne_zero.mp sent.1.1)
  rw [dispatch, if_neg (by simp [begun]), if_pos sent, if_pos (Or.inr plain), if_pos ⟨plain, syn⟩]

/-- Outside that branch every segment that occupies sequence space is answered. -/
theorem Outbound.dispatch_answers (outbound : Outbound accepted c) (plain : seg.header.rst = false)
    (occupies : seg.lengthInSequenceSpace ≠ 0) (other : ¬ c.SimultaneousOpen seg)
    (known : (c.dispatch seg).receiver.ackno.isSome = true) :
    ∃ new, Sends c.segmentsOut (c.dispatch seg) new ∧ new ≠ [] := by
  by_cases idle : c.listening = true
  · refine outbound.listening_sends idle ?_
    by_contra quiet
    have silent := (Bool.and_eq_true_iff.mp idle).1
    rw [dispatch_unheard idle (by simpa using quiet)] at known
    simp [Option.isNone_iff_eq_none.mp silent] at known
  have opened := outbound.opened (by simpa using idle)
  have established : c.dispatch seg = c.established seg →
      ∃ new, Sends c.segmentsOut (c.dispatch seg) new ∧ new ≠ [] := by
    intro eq
    obtain ⟨new, sends, _, answers⟩ := outbound.established_sends opened seg
    rw [eq] at known ⊢
    refine ⟨new, sends, answers plain occupies ?_⟩
    rcases (outbound.established opened seg).receiver with same | same <;> rw [same] at known
    · exact known
    · exact known
  by_cases sent : c.synSent = true
  · have silent : c.receiver.ackno.isNone = true := (Bool.and_eq_true_iff.mp sent).2
    by_cases refused : seg.payload.length > 0 ∨ seg.header.ack = false
    · -- The segment is dropped, and the SYN of the peer is still unknown.
      rw [dispatch_refused (by simpa using idle) sent refused (fun opening => other ⟨sent, opening⟩)] at known
      simp [Option.isNone_iff_eq_none.mp silent] at known
    · apply established
      rw [TCPConnection.dispatch, if_neg idle, if_pos sent, if_neg refused, if_neg (by simp [plain])]
  · exact established (dispatch_past (by simpa using idle) (by simpa using sent) seg)

/-- The call appends a segment, and all it appends acknowledge what the receiver
has reached. -/
def Answers (c : TCPConnection) (seg : TCPSegment) : Prop :=
  ∃ new, (c.segmentReceived seg).segmentsOut = c.segmentsOut ++ new ∧ new ≠ [] ∧
    ∀ answer ∈ new, answer.header.ack = true ∧
      (c.segmentReceived seg).receiver.ackno = some answer.header.ackno

/-- A simultaneous open leaves the outbound queue as it was. -/
theorem SimultaneousOpen.unanswered (opening : c.SimultaneousOpen seg) (active : c.active = true) :
    ¬ c.Answers seg := by
  rintro ⟨new, out, some, _⟩
  rw [segmentReceived_of_active active,
    dispatch_eq (c := { c with timeSinceLastSegmentReceived := 0 }) opening] at out
  exact some (List.self_eq_append_right.mp out)

/-- The segment stops the connection with both streams in error, and nothing is
sent. -/
def DiesQuietly (c : TCPConnection) (seg : TCPSegment) : Prop :=
  (c.segmentReceived seg).active = false ∧
  (c.segmentReceived seg).sender.stream.error = true ∧
  (c.segmentReceived seg).receiver.streamOut.error = true ∧
  (c.segmentReceived seg).segmentsOut = c.segmentsOut

/-- Past SYN_SENT a reset is given to the receiver and the sender, and answered. -/
theorem Outbound.reset_answered (outbound : Outbound accepted c) (active : c.active = true)
    (begun : c.listening = false) (reset : seg.header.rst = true) (past : c.synSent = false) :
    (c.segmentReceived seg).segmentsOut ≠ c.segmentsOut := by
  obtain ⟨new, sends, one, _⟩ := (outbound.flags c.lingerAfterStreamsFinish c.active 0).outbound.established_sends
    (outbound.opened begun) seg
  have out : (c.segmentReceived seg).segmentsOut = c.segmentsOut ++ new := by
    rw [segmentReceived_of_active active, dispatch_past (c := { c with timeSinceLastSegmentReceived := 0 })
      begun past]
    exact sends.out
  intro same
  have nothing := List.self_eq_append_right.mp (same.symm.trans out)
  simpa [nothing] using one reset

end TCPConnection

namespace Endpoint

variable {e : Endpoint} {cfg : TCPConfig} {random : WrappingInt32}

/-- A segment that occupies sequence space is acknowledged at once, except by a
connection that is opening at the same time as its peer. -/
theorem run_answers_iff (cfg : TCPConfig) (random : WrappingInt32) (e : Endpoint) (run : Runs cfg random e)
    (active : e.conn.active = true) (seg : TCPSegment) (plain : seg.header.rst = false)
    (occupies : 0 < seg.lengthInSequenceSpace)
    (known : (e.conn.segmentReceived seg).receiver.ackno.isSome = true) :
    e.conn.Answers seg ↔ ¬ e.conn.SimultaneousOpen seg := by
  constructor
  · exact fun answers opening => opening.unanswered active answers
  · intro other
    have eq := segmentReceived_of_active active seg
    rw [eq] at known
    obtain ⟨new, sends, some⟩ := (run.outbound.flags e.conn.lingerAfterStreamsFinish e.conn.active 0).outbound
      |>.dispatch_answers plain (Nat.pos_iff_ne_zero.mp occupies) other known
    rw [Answers, eq]
    refine ⟨new, sends.out, some, fun answer member => ?_⟩
    obtain ⟨flag, ackno, _⟩ := (sends.stamped answer member).acks known
    exact ⟨flag, ackno⟩

/-- The SYN of a peer, as it comes to a listening connection. -/
theorem run_answers_iff_listening :
    let e := new Network.smallConfig ⟨0⟩
    (Runs Network.smallConfig ⟨0⟩ e ∧ ¬ e.conn.SimultaneousOpen Network.synSegment) ∧
      (e.conn.Answers Network.synSegment ↔ ¬ e.conn.SimultaneousOpen Network.synSegment) := by
  have run : Runs Network.smallConfig ⟨0⟩ (new Network.smallConfig ⟨0⟩) := new_runs _ _
  exact ⟨⟨run, by decide +kernel⟩, run_answers_iff _ _ _ run rfl _ rfl (by decide) (by decide +kernel)⟩

/-- Its SYN is out and nothing has come back. -/
def opening : Endpoint := (new Network.smallConfig ⟨0⟩).step .connect

/-- Both sides connect at once: the answer to the peer's SYN stays behind. -/
theorem opening_unanswered :
    Runs Network.smallConfig ⟨0⟩ opening ∧ opening.conn.active = true ∧
      Network.synSegment.header.rst = false ∧ 0 < Network.synSegment.lengthInSequenceSpace ∧
      (opening.conn.segmentReceived Network.synSegment).receiver.ackno.isSome = true ∧
      ¬ opening.conn.Answers Network.synSegment := by
  have run : Runs Network.smallConfig ⟨0⟩ opening := (new_runs _ _).step .connect
  have simultaneous : opening.conn.SimultaneousOpen Network.synSegment := by decide +kernel
  exact ⟨run, by decide +kernel, rfl, by decide, by decide +kernel, simultaneous.unanswered (by decide +kernel)⟩

/-- A reset stops the connection without an answer exactly in SYN_SENT. -/
theorem run_reset_quiet_iff (cfg : TCPConfig) (random : WrappingInt32) (e : Endpoint) (run : Runs cfg random e)
    (active : e.conn.active = true) (begun : e.conn.listening = false) (seg : TCPSegment)
    (reset : seg.header.rst = true)
    (plain : e.conn.synSent = true → seg.header.ack = true ∧ seg.payload = []) :
    e.conn.DiesQuietly seg ↔ e.conn.synSent = true := by
  constructor
  · rintro ⟨_, _, _, silent⟩
    by_contra past
    exact run.outbound.reset_answered active begun reset (by simpa using past) silent
  · intro sent
    rw [DiesQuietly, segmentReceived_of_active active,
      dispatch_reset (c := { e.conn with timeSinceLastSegmentReceived := 0 }) begun sent (plain sent) reset]
    exact ⟨rfl, rfl, rfl, rfl⟩

/-- A reset of the connection attempt. -/
def resetSegment : TCPSegment := { header := { ack := true, ackno := ⟨1⟩, rst := true } }

theorem run_reset_quiet_iff_opening :
    (Runs Network.smallConfig ⟨0⟩ opening ∧ opening.conn.synSent = true) ∧
      (opening.conn.DiesQuietly resetSegment ↔ opening.conn.synSent = true) := by
  have run : Runs Network.smallConfig ⟨0⟩ opening := (new_runs _ _).step .connect
  exact ⟨⟨run, by decide +kernel⟩, run_reset_quiet_iff _ _ _ run (by decide +kernel) (by decide +kernel) _ rfl
    (fun _ => ⟨rfl, rfl⟩)⟩

/-- The handshake is done. -/
def opened : Endpoint := opening.step (.deliver Network.synAckSegment)

/-- The peer resets an established connection and is sent a segment with RST. -/
theorem opened_reset_answered :
    (Runs Network.smallConfig ⟨0⟩ opened ∧ opened.conn.active = true ∧ opened.conn.listening = false ∧
      resetSegment.header.rst = true) ∧ ¬ opened.conn.DiesQuietly resetSegment := by
  have run : Runs Network.smallConfig ⟨0⟩ opened :=
    ((new_runs _ _).step .connect).step (.deliver Network.synAckSegment)
  refine ⟨⟨run, by decide +kernel, by decide +kernel, rfl⟩, fun quiet => ?_⟩
  have answered : (opened.conn.segmentReceived resetSegment).segmentsOut ≠ opened.conn.segmentsOut := by
    decide +kernel
  exact answered quiet.2.2.2

theorem Runs.sized (run : Runs cfg random e) : Sized cfg.recvCapacity e.conn.receiver := by
  have kept : Outbound e.accepted e.conn ∧ Sized cfg.recvCapacity e.conn.receiver := by
    refine run.invariant (P := fun e => Outbound e.accepted e.conn ∧ Sized cfg.recvCapacity e.conn.receiver)
      ⟨new_outbound cfg random, rfl, rfl⟩ ?_
    rintro e act ⟨outbound, sized⟩ _
    obtain ⟨heard, hears, effect⟩ := e.step_effect outbound act
    have after : Sized cfg.recvCapacity heard :=
      hears.rule (fun _ => sized) (fun _ _ => sized) (fun seg _ => sized.segmentReceived seg)
    refine ⟨effect.outbound, ?_⟩
    rcases effect.receiver with eq | eq <;> rw [eq] <;> exact after
  exact kept.2

/-- Every acknowledging segment that the act puts out states the window of the
receiver, as far as sixteen bits go. -/
def Advertises (e : Endpoint) (act : Act) : Prop :=
  ∀ new, (e.step act).conn.segmentsOut = e.conn.segmentsOut ++ new →
    ∀ seg ∈ new, seg.header.ack = true →
      seg.header.win.toNat = min (e.step act).conn.receiver.windowSize 65535

/-- What is stated is the low half of the window. -/
theorem step_win (outbound : Outbound e.accepted e.conn) {act : Act} {new : List TCPSegment}
    (out : (e.step act).conn.segmentsOut = e.conn.segmentsOut ++ new) {seg : TCPSegment} (member : seg ∈ new)
    (flag : seg.header.ack = true) :
    seg.header.win.toNat = (e.step act).conn.receiver.windowSize % 65536 := by
  obtain ⟨sent, sends⟩ := e.step_sends outbound act
  have same : new = sent := List.append_cancel_left (out.symm.trans sends.out)
  have stamps := sends.stamped seg (same ▸ member)
  cases known : (e.step act).conn.receiver.ackno with
  | none =>
    simp only [Stamps, known] at stamps
    simp [stamps] at flag
  | some ackno =>
    obtain ⟨_, _, win⟩ := stamps.acks (by rw [known]; rfl)
    rw [win, UInt16.toNat_ofNat']

/-- The first answer of a listening connection, to a SYN with data. -/
theorem new_advertises (payload : List UInt8) (narrow : cfg.recvCapacity < 2 ^ 64)
    (fits : payload.length ≤ cfg.recvCapacity)
    (advertises : (new cfg random).Advertises (.deliver (synWith payload))) :
    (cfg.recvCapacity - payload.length) % 65536 = min (cfg.recvCapacity - payload.length) 65535 := by
  have outbound := (new_runs cfg random).outbound
  have idle : (new cfg random).conn.listening = true := rfl
  have syn : (synWith payload).header.syn = true := rfl
  obtain ⟨answers, sends, some⟩ := outbound.listening_sends idle syn
  obtain ⟨answer, member⟩ := List.exists_mem_of_ne_nil _ some
  have receiver : ((new cfg random).step (.deliver (synWith payload))).conn.receiver =
      (TCPReceiver.new cfg.recvCapacity).segmentReceived (synWith payload) := sendSegsFromSender_receiver _
  have window := new_windowSize payload narrow fits
  have known : (((new cfg random).step (.deliver (synWith payload))).conn.receiver.ackno).isSome = true := by
    rw [receiver]
    rfl
  have flag := ((sends.stamped answer member).acks known).1
  have out : ((new cfg random).step (.deliver (synWith payload))).conn.segmentsOut =
      (new cfg random).conn.segmentsOut ++ answers := sends.out
  have stated := step_win outbound out member flag
  rw [advertises answers out answer member flag, receiver, window] at stated
  exact stated.symm

/-- The window is stated as it is in every run exactly if it fits sixteen bits
from the start. -/
theorem run_advertises_iff (cfg : TCPConfig) (random : WrappingInt32) (narrow : cfg.recvCapacity < 2 ^ 64) :
    (∀ e, Runs cfg random e → ∀ act, e.Advertises act) ↔ cfg.recvCapacity ≤ 65535 := by
  constructor
  · intro advertises
    by_contra wide
    have empty := new_advertises [] narrow (by simp) (advertises _ (new_runs cfg random) _)
    have byte := new_advertises [0] narrow (by simp; omega) (advertises _ (new_runs cfg random) _)
    simp only [List.length_nil, List.length_cons] at empty byte
    omega
  · intro small e run act new out seg member flag
    have window := (run.step act).sized.windowSize_eq narrow
    rw [step_win run.outbound out member flag]
    omega

theorem run_advertises_iff_small :
    Network.smallConfig.recvCapacity < 2 ^ 64 ∧
      ((∀ e, Runs Network.smallConfig ⟨0⟩ e → ∀ act, e.Advertises act) ↔
        Network.smallConfig.recvCapacity ≤ 65535) :=
  ⟨by decide, run_advertises_iff Network.smallConfig ⟨0⟩ (by decide)⟩

/-- A capacity whose low sixteen bits are zero. -/
def wideConfig : TCPConfig := { recvCapacity := 65536, fixedIsn := some ⟨0⟩ }

/-- The window of 65536 bytes is advertised as 0 in the answer to the first SYN. -/
theorem wide_window_misstated :
    Runs wideConfig ⟨0⟩ (new wideConfig ⟨0⟩) ∧
      ¬ (new wideConfig ⟨0⟩).Advertises (.deliver (synWith [])) := by
  refine ⟨new_runs _ _, fun advertises => ?_⟩
  have stated := new_advertises [] (by decide) (by decide) advertises
  revert stated
  decide

end Endpoint
end Sponge
