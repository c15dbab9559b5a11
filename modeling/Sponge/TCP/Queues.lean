import Sponge.TCP.Backoff

/-! The connection with its queues read as the source reads them: `front()` and
`pop()` of an empty `std::queue` are errors. The calls under a guard are errors
in no state. Two are not guarded: the tick relies on its timer flag, and
`uncleanShutdown` on the segment its caller has just queued. -/
namespace Sponge
open TCPConnection TCPSender

namespace Queue

variable {α : Type}

/-- `std::queue::front`, undefined on an empty queue. -/
def front : List α → Except String α
  | [] => .error "front of an empty queue"
  | first :: _ => .ok first

/-- `std::queue::pop`, undefined on an empty queue. -/
def pop : List α → Except String (List α)
  | [] => .error "pop of an empty queue"
  | _ :: rest => .ok rest

end Queue

namespace TCPSender

variable {s : TCPSender}

def synOutstandingChecked (s : TCPSender) : Except String Bool :=
  if s.outstandingSegments.isEmpty then .ok false
  else do
    let front ← Queue.front s.outstandingSegments
    return front.header.syn

def fillWindowChecked (s : TCPSender) : Except String TCPSender :=
  if s.synSent = false then .ok s.sendSyn
  else do
    if (← s.synOutstandingChecked) = true then return s
    else if s.finSent = true then return s
    else return s.fillOpen

/-- The pop loop. Every iteration pops, so the length of the queue bounds them. -/
def popAckedChecked (isn : WrappingInt32) (rcvBase seqnoAbs : Nat) :
    Nat → List TCPSegment → Nat → Bool → Except String (List TCPSegment × Nat × Bool)
  | 0, queue, inFlight, newData => .ok (queue, inFlight, newData)
  | fuel + 1, queue, inFlight, newData =>
    if queue.isEmpty then .ok (queue, inFlight, newData)
    else do
      let front ← Queue.front queue
      if seqnoAbs ≥ endOfFront isn rcvBase front then
        let rest ← Queue.pop queue
        popAckedChecked isn rcvBase seqnoAbs fuel rest (inFlight - front.lengthInSequenceSpace) true
      else return (queue, inFlight, newData)

def acknowledgeChecked (s : TCPSender) (seqnoAbs : Nat) : Except String TCPSender := do
  let s := { s with rcvBase := FixedWidth.trunc 32 seqnoAbs }
  let (outstanding, inFlight, newDataRcv) ← popAckedChecked s.isn s.rcvBase seqnoAbs
    s.outstandingSegments.length s.outstandingSegments s.bytesInFlight false
  let s := { s with outstandingSegments := outstanding, bytesInFlight := inFlight }
  let s := if newDataRcv then
      { s with
        rto := s.initialRetransmissionTimeout
        timeElipsed := if s.outstandingSegments.isEmpty then s.timeElipsed else 0
        consecutiveRetransmission := 0 }
    else s
  return if s.outstandingSegments.isEmpty then { s with timerRunning := false, timeElipsed := 0 } else s

def ackReceivedChecked (s : TCPSender) (ackno : WrappingInt32) (windowSize : UInt16) :
    Except String TCPSender :=
  let seqnoAbs := unwrap ackno s.isn s.rcvBase
  if seqnoAbs > s.nextSeqno then .ok s
  else
    let s := s.setWindow windowSize
    if seqnoAbs ≤ s.rcvBase then .ok s
    else do
      let s ← s.acknowledgeChecked seqnoAbs
      s.fillWindowChecked

def tickChecked (s : TCPSender) (msSinceLastTick : Nat) : Except String TCPSender :=
  if s.timerRunning then
    let s := { s with timeElipsed := FixedWidth.add 32 s.timeElipsed msSinceLastTick }
    if s.timeElipsed ≥ s.rto then do
      let front ← Queue.front s.outstandingSegments
      return { s with
        segmentsOut := s.segmentsOut ++ [front]
        rto := if s.backOff then FixedWidth.trunc 32 (s.rto * 2) else s.rto
        consecutiveRetransmission :=
          if s.backOff then FixedWidth.add 32 s.consecutiveRetransmission 1
          else s.consecutiveRetransmission
        timeElipsed := 0 }
    else .ok s
  else .ok s

theorem synOutstandingChecked_eq (s : TCPSender) : s.synOutstandingChecked = .ok s.synOutstanding := by
  unfold synOutstandingChecked synOutstanding
  cases s.outstandingSegments with
  | nil => rfl
  | cons front rest => rfl

theorem fillWindowChecked_eq (s : TCPSender) : s.fillWindowChecked = .ok s.fillWindow := by
  unfold fillWindowChecked fillWindow
  rw [synOutstandingChecked_eq]
  cases s.synSent with
  | false => rfl
  | true =>
    cases s.synOutstanding with
    | true => rfl
    | false =>
      cases s.finSent with
      | true => rfl
      | false => rfl

theorem popAckedChecked_eq (isn : WrappingInt32) (base a : Nat) {fuel : Nat} {queue : List TCPSegment}
    (enough : queue.length ≤ fuel) (inFlight : Nat) (newData : Bool) :
    popAckedChecked isn base a fuel queue inFlight newData = .ok (popAcked isn base a queue inFlight newData) := by
  induction fuel generalizing queue inFlight newData with
  | zero =>
    obtain rfl : queue = [] := List.eq_nil_of_length_eq_zero (by omega)
    rfl
  | succ fuel ih =>
    cases queue with
    | nil => rfl
    | cons front rest =>
      have fewer : rest.length ≤ fuel := by
        rw [List.length_cons] at enough
        omega
      unfold popAckedChecked popAcked
      by_cases reached : a ≥ endOfFront isn base front
      · rw [if_pos reached, ← ih fewer]
        simp [Queue.front, Queue.pop, reached, bind, Except.bind]
      · rw [if_neg reached]
        simp [Queue.front, reached, bind, Except.bind, pure, Except.pure]

theorem acknowledgeChecked_eq (s : TCPSender) (a : Nat) : s.acknowledgeChecked a = .ok (s.acknowledge a) := by
  unfold acknowledgeChecked acknowledge
  dsimp only
  rw [popAckedChecked_eq _ _ _ (Nat.le_refl _)]
  rfl

theorem ackReceivedChecked_eq (s : TCPSender) (ackno : WrappingInt32) (window : UInt16) :
    s.ackReceivedChecked ackno window = .ok (s.ackReceived ackno window) := by
  unfold ackReceivedChecked ackReceived
  dsimp only
  split
  · rfl
  split
  · rfl
  · rw [acknowledgeChecked_eq]
    exact fillWindowChecked_eq _

/-- The front is there whenever the timer runs. -/
theorem tickChecked_eq (timer : s.timerRunning = true → s.outstandingSegments ≠ []) (ms : Nat) :
    s.tickChecked ms = .ok (s.tick ms) := by
  unfold tickChecked tick
  dsimp only
  split
  · rename_i running
    split
    · obtain ⟨front, rest, queue⟩ := List.exists_cons_of_ne_nil (timer running)
      rw [queue]
      rfl
    · rfl
  · rfl

/-- A tick that counts a retransmission has queued one. -/
theorem tick_queued (timer : s.timerRunning = true → s.outstandingSegments ≠ []) (ms : Nat)
    (counted : (s.tick ms).consecutiveRetransmission ≠ s.consecutiveRetransmission) :
    (s.tick ms).segmentsOut ≠ [] := by
  unfold tick at counted ⊢
  dsimp only at counted ⊢
  split at counted
  · rename_i running
    obtain ⟨front, rest, queue⟩ := List.exists_cons_of_ne_nil (timer running)
    rw [if_pos running]
    split at counted
    · rename_i expired
      rw [if_pos expired, queue]
      simp
    · exact absurd rfl counted
  · exact absurd rfl counted

end TCPSender

namespace TCPConnection

variable {c : TCPConnection} {timeout : Nat}

/-- The loop that moves the sender's segments to the connection's queue. -/
def flushLoop : Nat → TCPConnection → Except String TCPConnection
  | 0, c => .ok c
  | fuel + 1, c =>
    if c.sender.segmentsOut.isEmpty then .ok c
    else do
      let seg ← Queue.front c.sender.segmentsOut
      let rest ← Queue.pop c.sender.segmentsOut
      flushLoop fuel { c with
        sender := { c.sender with segmentsOut := rest }
        segmentsOut := c.segmentsOut ++ [c.setSeg seg] }

def sendSegsFromSenderChecked (c : TCPConnection) : Except String TCPConnection := do
  let c ← flushLoop c.sender.segmentsOut.length c
  return c.cleanShutdown

def uncleanShutdownChecked (c : TCPConnection) : Except String TCPConnection := do
  let c := c.kill
  let seg ← Queue.front c.sender.segmentsOut
  let rest ← Queue.pop c.sender.segmentsOut
  let seg := c.setSeg seg
  return { c with
    sender := { c.sender with segmentsOut := rest }
    segmentsOut := c.segmentsOut ++ [{ seg with header := { seg.header with rst := true } }] }

def connectChecked (c : TCPConnection) : Except String TCPConnection := do
  let sender ← c.sender.fillWindowChecked
  { c with sender := sender }.sendSegsFromSenderChecked

def writeChecked (c : TCPConnection) (data : List UInt8) : Except String (Nat × TCPConnection) :=
  if data.length = 0 then .ok (0, c)
  else do
    let (writtenSize, sender) := c.sender.write data
    let sender ← sender.fillWindowChecked
    let c ← { c with sender := sender }.sendSegsFromSenderChecked
    return (writtenSize, c)

def endInputStreamChecked (c : TCPConnection) : Except String TCPConnection := do
  let sender ← c.sender.endInput.fillWindowChecked
  { c with sender := sender }.sendSegsFromSenderChecked

def tickChecked (c : TCPConnection) (msSinceLastTick : Nat) : Except String TCPConnection :=
  if c.active = false then .ok c
  else do
    let sender ← c.sender.tickChecked msSinceLastTick
    let c := { c with
      timeSinceLastSegmentReceived := FixedWidth.add 64 c.timeSinceLastSegmentReceived msSinceLastTick
      sender := sender }
    let c ← if c.sender.consecutiveRetransmission > TCPConfig.maxRetxAttempts
      then c.uncleanShutdownChecked else .ok c
    c.sendSegsFromSenderChecked

def establishedChecked (c : TCPConnection) (seg : TCPSegment) : Except String TCPConnection := do
  let sender ← c.sender.ackReceivedChecked seg.header.ackno seg.header.win
  let c := { c with receiver := c.receiver.segmentReceived seg, sender := sender }
  if seg.header.rst then
    let c := { c with sender := c.sender.sendEmptySegment }
    c.uncleanShutdownChecked
  else (c.answer seg).sendSegsFromSenderChecked

def dispatchChecked (c : TCPConnection) (seg : TCPSegment) : Except String TCPConnection :=
  if c.listening then
    if seg.header.syn = false then .ok c
    else { c with receiver := c.receiver.segmentReceived seg }.connectChecked
  else if c.synSent then
    if seg.payload.length > 0 ∨ seg.header.ack = false then
      if seg.header.ack = false ∧ seg.header.syn = true then
        .ok { c with
          receiver := c.receiver.segmentReceived seg
          sender := c.sender.sendEmptySegment }
      else .ok c
    else if seg.header.rst then .ok c.kill
    else c.establishedChecked seg
  else c.establishedChecked seg

def segmentReceivedChecked (c : TCPConnection) (seg : TCPSegment) : Except String TCPConnection :=
  if c.active = false then .ok c
  else { c with timeSinceLastSegmentReceived := 0 }.dispatchChecked seg

/-- The destructor: an active connection sends a RST. -/
def destroyChecked (c : TCPConnection) : Except String TCPConnection :=
  if c.active then { c with sender := c.sender.sendEmptySegment }.uncleanShutdownChecked
  else .ok c

theorem flush_of_empty (empty : c.sender.segmentsOut = []) : c.flush = c := by
  have sender : { c.sender with segmentsOut := [] } = c.sender := by rw [← empty]
  rw [flush, sender, empty, List.map_nil, List.append_nil]

/-- One segment on its way from the sender's queue to the connection's. -/
def forward (c : TCPConnection) (seg : TCPSegment) (rest : List TCPSegment) : TCPConnection :=
  { c with
    sender := { c.sender with segmentsOut := rest }
    segmentsOut := c.segmentsOut ++ [c.setSeg seg] }

theorem flush_forward {seg : TCPSegment} {rest : List TCPSegment} (queue : c.sender.segmentsOut = seg :: rest) :
    (c.forward seg rest).flush = c.flush := by
  have stamps : (c.forward seg rest).setSeg = c.setSeg := rfl
  rw [flush, flush, stamps, queue, forward, List.map_cons, List.append_assoc]
  rfl

theorem flushLoop_eq {fuel : Nat} (enough : c.sender.segmentsOut.length ≤ fuel) :
    flushLoop fuel c = .ok c.flush := by
  induction fuel generalizing c with
  | zero =>
    rw [flush_of_empty (List.eq_nil_of_length_eq_zero (by omega))]
    rfl
  | succ fuel ih =>
    unfold flushLoop
    cases queue : c.sender.segmentsOut with
    | nil =>
      rw [flush_of_empty queue]
      rfl
    | cons seg rest =>
      rw [queue, List.length_cons] at enough
      have moved := ih (c := c.forward seg rest) (Nat.le_of_succ_le_succ enough)
      rw [flush_forward queue] at moved
      exact moved

theorem sendSegsFromSenderChecked_eq (c : TCPConnection) :
    c.sendSegsFromSenderChecked = .ok c.sendSegsFromSender := by
  unfold sendSegsFromSenderChecked
  rw [flushLoop_eq (Nat.le_refl _)]
  rfl

/-- Exactly with a segment to take. -/
theorem uncleanShutdownChecked_ok_iff :
    (∃ d, c.uncleanShutdownChecked = .ok d) ↔ c.sender.segmentsOut ≠ [] := by
  have killed : c.kill.sender.segmentsOut = c.sender.segmentsOut := rfl
  unfold uncleanShutdownChecked
  dsimp only
  rw [killed]
  cases c.sender.segmentsOut with
  | nil => simp [Queue.front, bind, Except.bind]
  | cons seg rest => exact iff_of_true ⟨_, rfl⟩ (by simp)

theorem uncleanShutdownChecked_eq (queued : c.sender.segmentsOut ≠ []) :
    c.uncleanShutdownChecked = .ok c.uncleanShutdown := by
  obtain ⟨seg, rest, queue⟩ := List.exists_cons_of_ne_nil queued
  have killed : c.kill.sender.segmentsOut = seg :: rest := queue
  unfold uncleanShutdownChecked uncleanShutdown
  dsimp only
  rw [killed]
  rfl

theorem connectChecked_eq (c : TCPConnection) : c.connectChecked = .ok c.connect := by
  unfold connectChecked connect
  rw [fillWindowChecked_eq]
  exact sendSegsFromSenderChecked_eq _

theorem writeChecked_eq (c : TCPConnection) (data : List UInt8) : c.writeChecked data = .ok (c.write data) := by
  unfold writeChecked write
  split
  · rfl
  · dsimp only
    rw [fillWindowChecked_eq]
    change (sendSegsFromSenderChecked _ >>= _) = _
    rw [sendSegsFromSenderChecked_eq]
    rfl

theorem endInputStreamChecked_eq (c : TCPConnection) : c.endInputStreamChecked = .ok c.endInputStream := by
  unfold endInputStreamChecked endInputStream
  rw [fillWindowChecked_eq]
  exact sendSegsFromSenderChecked_eq _

/-- Past the limit for the first time, the tick has just queued a retransmission. -/
theorem tickChecked_eq (timer : c.sender.timerRunning = true → c.sender.outstandingSegments ≠ [])
    (patient : Patient timeout c) (ms : Nat) : c.tickChecked ms = .ok (c.tick ms) := by
  unfold tickChecked tick
  split
  · rfl
  rename_i alive
  have few := patient.tolerant (by simpa using alive)
  rw [c.sender.tickChecked_eq timer]
  dsimp only [bind, Except.bind]
  split
  · rename_i passed
    have queued := tick_queued timer ms (by omega)
    rw [uncleanShutdownChecked_eq queued]
    exact sendSegsFromSenderChecked_eq _
  · exact sendSegsFromSenderChecked_eq _

theorem sendEmptySegment_queued (s : TCPSender) : s.sendEmptySegment.segmentsOut ≠ [] := by
  simp [sendEmptySegment]

theorem establishedChecked_eq (c : TCPConnection) (seg : TCPSegment) :
    c.establishedChecked seg = .ok (c.established seg) := by
  unfold establishedChecked established
  rw [ackReceivedChecked_eq]
  dsimp only [bind, Except.bind]
  split
  · exact uncleanShutdownChecked_eq (c := { c.deliver seg with
      sender := (c.deliver seg).sender.sendEmptySegment }) (sendEmptySegment_queued _)
  · exact sendSegsFromSenderChecked_eq _

theorem dispatchChecked_eq (c : TCPConnection) (seg : TCPSegment) :
    c.dispatchChecked seg = .ok (c.dispatch seg) := by
  unfold dispatchChecked dispatch
  split
  · split
    · rfl
    · exact connectChecked_eq _
  split
  · split
    · split
      · rfl
      · rfl
    split
    · rfl
    · exact c.establishedChecked_eq seg
  · exact c.establishedChecked_eq seg

theorem segmentReceivedChecked_eq (c : TCPConnection) (seg : TCPSegment) :
    c.segmentReceivedChecked seg = .ok (c.segmentReceived seg) := by
  unfold segmentReceivedChecked segmentReceived
  split
  · rfl
  · exact dispatchChecked_eq _ seg

theorem destroyChecked_ok (c : TCPConnection) : ∃ d, c.destroyChecked = .ok d := by
  unfold destroyChecked
  split
  · exact uncleanShutdownChecked_ok_iff.mpr (sendEmptySegment_queued _)
  · exact ⟨c, rfl⟩

end TCPConnection

namespace Endpoint

variable {e : Endpoint} {cfg : TCPConfig} {random : WrappingInt32}

def stepChecked (e : Endpoint) : Act → Except String Endpoint
  | .connect => do
    let conn ← e.conn.connectChecked
    return { e with conn := conn }
  | .write data => do
    let (written, conn) ← e.conn.writeChecked data
    return { e with conn := conn, accepted := e.accepted ++ data.take written }
  | .endInputStream => do
    let conn ← e.conn.endInputStreamChecked
    return { e with conn := conn, ended := true }
  | .tick ms => do
    let conn ← e.conn.tickChecked ms
    return { e with conn := conn }
  | .read len =>
    .ok { e with conn := (e.conn.readInbound len).2, taken := e.taken ++ (e.conn.readInbound len).1 }
  | .deliver seg => do
    let conn ← e.conn.segmentReceivedChecked seg
    return { e with conn := conn }

theorem Runs.timer (run : Runs cfg random e) :
    e.conn.sender.timerRunning = true ↔ e.conn.sender.outstandingSegments ≠ [] := by
  obtain ⟨_, settled⟩ := run.outbound.settled
  exact settled.toEncodes.timer

theorem Runs.stepChecked_eq (run : Runs cfg random e) (act : Act) : e.stepChecked act = .ok (e.step act) := by
  cases act with
  | connect =>
    rw [stepChecked, connectChecked_eq]
    rfl
  | write data =>
    rw [stepChecked, writeChecked_eq]
    rfl
  | endInputStream =>
    rw [stepChecked, endInputStreamChecked_eq]
    rfl
  | tick ms =>
    rw [stepChecked, tickChecked_eq run.timer.mp run.patient]
    rfl
  | read len => rfl
  | deliver seg =>
    rw [stepChecked, segmentReceivedChecked_eq]
    rfl

/-- No queue is read while it is empty: a run of any calls and segments goes
through as without the checks, the destructor does too, and the timer is always
running for a nonempty queue and for no other. -/
theorem run_queues_checked (cfg : TCPConfig) (random : WrappingInt32) (acts : List Act) :
    acts.foldlM stepChecked (new cfg random) = .ok (acts.foldl step (new cfg random)) ∧
    (∃ gone, (acts.foldl step (new cfg random)).conn.destroyChecked = .ok gone) ∧
    ((acts.foldl step (new cfg random)).conn.sender.timerRunning = true ↔
      (acts.foldl step (new cfg random)).conn.sender.outstandingSegments ≠ []) := by
  obtain ⟨whole, run⟩ : acts.foldlM stepChecked (new cfg random) = .ok (acts.foldl step (new cfg random)) ∧
      Runs cfg random (acts.foldl step (new cfg random)) :=
    Run.foldlM_eq (fun _ act run => run.stepChecked_eq act) (fun _ act run => run.step act) (new_runs cfg random)
  exact ⟨whole, destroyChecked_ok _, run.timer⟩

end Endpoint
end Sponge
