import Sponge.TCP.Sender.Acks
import Sponge.Lib.Run

/-! No unacknowledged data is discarded, over runs of any length whose
acknowledgements are absolute numbers near the highest accepted one, as long as
none of them straddles a multiple of 2^32. The counterexample crosses the first
such multiple. -/
namespace Sponge.TCPSender

/-- A run together with the highest accepted acknowledgement. -/
structure Tracked where
  history : History
  highest : Nat

namespace Tracked

def call (t : Tracked) (op : Op Nat) : Call := op.map (wrap · t.history.sender.isn)

def step (t : Tracked) (op : Op Nat) : Tracked where
  history := t.history.step (t.call op)
  highest := match op with
    | .ackReceived a _ => nextHighest t.highest t.history.sender a
    | _ => t.highest

def start (capacity : Nat) (timeout : UInt16) (isn : WrappingInt32) : Tracked :=
  ⟨.start capacity timeout isn, 0⟩

/-- Acknowledgements are absolute numbers up to the next sequence number and
near the highest accepted one. -/
def Honest (t : Tracked) : Op Nat → Prop
  | .ackReceived a _ =>
    a ≤ t.history.sender.nextSeqno ∧ a ≤ t.highest + 2 ^ 31 ∧ t.highest ≤ a + 2 ^ 31
  | _ => True

def Safe (t : Tracked) : Op Nat → Prop
  | .ackReceived a _ => AckSafe t.highest t.history.sender a
  | _ => True

/-- A run of honest and safe operations from a new sender. -/
abbrev SafeRun (capacity : Nat) (timeout : UInt16) (isn : WrappingInt32) : Tracked → Prop :=
  Run.Reaches step (fun t op => t.Honest op ∧ t.Safe op) (start capacity timeout isn)

abbrev HonestRun (capacity : Nat) (timeout : UInt16) (isn : WrappingInt32) : Tracked → Prop :=
  Run.Reaches step Honest (start capacity timeout isn)

/-- An occurrence of a segment in the history that is still outstanding. -/
def Held (h : History) (before : List TCPSegment) (seg : TCPSegment) (after : List TCPSegment) : Prop :=
  h.sent = before ++ seg :: after ∧ seg :: after <:+ h.sender.outstandingSegments

/-- Every sequence number not yet acknowledged is covered by an outstanding segment. -/
def Covered (t : Tracked) : Prop :=
  ∀ n, t.highest ≤ n → n < t.history.sender.nextSeqno →
    ∃ before seg after, Held t.history before seg after ∧
      seqLen before ≤ n ∧ n < seqLen before + seg.lengthInSequenceSpace

/-- A segment leaves the queue only by an acknowledgement of its whole extent. -/
def RemovesAcked (t : Tracked) (op : Op Nat) : Prop :=
  ∀ before seg after, Held t.history before seg after →
    Held (t.step op).history before seg (after ++ t.history.transmitted (t.call op)) ∨
    ∃ a window, op = .ackReceived a window ∧ seqLen before + seg.lengthInSequenceSpace ≤ a

structure Consistent (isn : WrappingInt32) (t : Tracked) : Prop where
  faithful : t.history.Faithful isn
  acked : Acked t.highest t.history.sender

variable {t : Tracked} {isn : WrappingInt32}

theorem Consistent.encodes (inv : Consistent isn t) :
    Encodes t.history.sender t.history.accepted t.history.sent := inv.faithful.encodes

theorem Consistent.covered (inv : Consistent isn t) : Covered t := by
  intro n lower upper
  obtain ⟨gone, eq⟩ := inv.encodes.outstanding
  obtain ⟨_, next⟩ := inv.encodes.queue_laid
  have first : t.history.sender.unackedFrom = seqLen gone := by
    have total := inv.encodes.next
    rw [← eq, seqLen_append] at total
    omega
  obtain ⟨before, seg, after, split, low, high⟩ :=
    exists_covering (inv.acked.first.trans lower) (next ▸ upper)
  refine ⟨gone ++ before, seg, after, ⟨by rw [← eq, split]; simp, ?_⟩, ?_, ?_⟩
  · rw [split]
    exact List.suffix_append _ _
  · rwa [seqLen_append, ← first]
  · rwa [seqLen_append, ← first]

theorem Held.pushes {h : History} {op : Call} {before after : List TCPSegment} {seg : TCPSegment}
    (held : Held h before seg after)
    (queue : (h.sender.apply op).outstandingSegments = h.sender.outstandingSegments ++ h.transmitted op) :
    Held (h.step op) before seg (after ++ h.transmitted op) := by
  refine ⟨?_, ?_⟩
  · simp [History.step, held.1]
  · obtain ⟨earlier, eq⟩ := held.2
    exact ⟨earlier, by simp [History.step, queue, ← eq]⟩

theorem transmitted_of_out {h : History} (op : Call) {new : List TCPSegment}
    (transmits : h.transmitted op = h.pushed op)
    (out : (h.sender.apply op).segmentsOut = h.sender.segmentsOut ++ new) :
    h.transmitted op = new := by
  rw [transmits, History.pushed, out, List.drop_left]

/-- An occurrence held in a queue either stays when a first part is popped, or
ends within that part. -/
theorem Held.split {h : History} {before after gone rest : List TCPSegment} {seg : TCPSegment}
    (held : Held h before seg after) (inv : Encodes h.sender h.accepted h.sent)
    (split : h.sender.outstandingSegments = gone ++ rest) :
    seg :: after <:+ rest ∨
      seqLen before + seg.lengthInSequenceSpace ≤ h.sender.unackedFrom + seqLen gone := by
  have suffix : rest <:+ h.sender.outstandingSegments := split ▸ List.suffix_append gone rest
  rcases List.suffix_or_suffix_of_suffix held.2 suffix with kept | ⟨popped, eq⟩
  · exact Or.inl kept
  · cases popped with
    | nil => exact Or.inl (by rw [← eq]; exact List.suffix_rfl)
    | cons first popped =>
      right
      rw [List.cons_append] at eq
      obtain ⟨rfl, tail⟩ := List.cons.inj eq
      have total := inv.next
      have next := inv.queue_laid.2
      rw [held.1, ← tail] at total
      rw [split] at next
      simp only [seqLen_append, seqLen_cons] at total next
      omega

/-- A safe acknowledgement removes only what it covers. -/
theorem Consistent.ack_removes (inv : Consistent isn t) {a : Nat} {window : UInt16}
    (honest : t.Honest (.ackReceived a window)) (safe : t.Safe (.ackReceived a window)) :
    t.RemovesAcked (.ackReceived a window) := by
  intro before seg after held
  obtain ⟨bound, near⟩ := honest
  by_cases accepts : t.history.sender.Accepts (wrap a t.history.sender.isn)
  · obtain ⟨gone, rest, new, queue, later, out, _, covered, _⟩ :=
      inv.acked.accept inv.encodes bound near safe accepts window
    rcases held.split inv.encodes queue with ⟨earlier, kept⟩ | ended
    · refine Or.inl ⟨by simp [step, History.step, held.1], earlier, ?_⟩
      rw [transmitted_of_out (t.call (.ackReceived a window)) rfl out]
      change _ = (t.history.sender.ackReceived _ window).outstandingSegments
      rw [later, ← kept]
      simp
    · exact Or.inr ⟨a, window, rfl, ended.trans covered⟩
  · refine Or.inl (held.pushes ?_)
    rcases t.history.sender.ackReceived_cases (wrap a t.history.sender.isn) window with
      ⟨_, eq⟩ | ⟨_, eq⟩ | taken
    · rw [transmitted_of_out (t.call (.ackReceived a window)) rfl
        ((congrArg segmentsOut eq).trans (List.append_nil _).symm)]
      exact (congrArg outstandingSegments eq).trans (by simp)
    · rw [transmitted_of_out (t.call (.ackReceived a window)) rfl
        ((congrArg segmentsOut eq).trans (List.append_nil _).symm)]
      exact (congrArg outstandingSegments eq).trans (by simp [setWindow])
    · exact absurd taken accepts

/-- One honest and safe operation keeps the invariant and discards nothing. -/
theorem Consistent.step (inv : Consistent isn t) (op : Op Nat) (honest : t.Honest op)
    (safe : t.Safe op) : Consistent isn (t.step op) ∧ t.RemovesAcked op := by
  have faithful := (inv.faithful.step (t.call op)).1
  have acked := inv.acked
  cases op with
  | write data =>
    exact ⟨⟨faithful, acked.same rfl rfl rfl rfl⟩, fun _ _ _ held =>
      Or.inl (held.pushes (List.append_nil _).symm)⟩
  | endInput =>
    exact ⟨⟨faithful, acked.same rfl rfl rfl rfl⟩, fun _ _ _ held =>
      Or.inl (held.pushes (List.append_nil _).symm)⟩
  | fillWindow =>
    obtain ⟨new, pushes⟩ := t.history.sender.fillWindow_pushes
    refine ⟨⟨faithful, acked.pushes inv.encodes pushes⟩, fun _ _ _ held => Or.inl (held.pushes ?_)⟩
    rw [transmitted_of_out (t.call .fillWindow) rfl pushes.out]
    exact pushes.queue
  | ackReceived a window =>
    exact ⟨⟨faithful, acked.ackReceived inv.encodes honest.1 honest.2 safe window⟩,
      inv.ack_removes honest safe⟩
  | tick ms =>
    refine ⟨⟨faithful, acked.tick ms⟩, fun _ _ _ held => Or.inl (held.pushes ?_)⟩
    obtain ⟨_, _, _, _, _, eq⟩ := t.history.sender.tick_eq ms
    change (t.history.sender.tick ms).outstandingSegments = t.history.sender.outstandingSegments ++ []
    rw [eq, List.append_nil]
  | sendEmptySegment =>
    exact ⟨⟨faithful, acked.same rfl rfl rfl rfl⟩, fun _ _ _ held =>
      Or.inl (held.pushes (List.append_nil _).symm)⟩

theorem start_consistent (capacity : Nat) (timeout : UInt16) (isn : WrappingInt32) :
    Consistent isn (start capacity timeout isn) :=
  ⟨History.run_faithful capacity timeout isn [], new_acked capacity timeout isn⟩

theorem SafeRun.consistent {capacity : Nat} {timeout : UInt16}
    (run : SafeRun capacity timeout isn t) : Consistent isn t :=
  run.invariant (start_consistent capacity timeout isn) (fun _ _ inv ok => (inv.step _ ok.1 ok.2).1)

/-- In every run whose acknowledgements are honest and safe, whatever has not
been acknowledged stays outstanding, and a segment is removed only by an
acknowledgement at or past its end. -/
theorem run_retains_unacknowledged (capacity : Nat) (timeout : UInt16) (isn : WrappingInt32)
    (t : Tracked) (run : SafeRun capacity timeout isn t) :
    t.Covered ∧ ∀ op, t.Honest op → t.Safe op → t.RemovesAcked op := by
  have inv := SafeRun.consistent run
  exact ⟨inv.covered, fun op honest safe => (inv.step op honest safe).2⟩

theorem run_retains_unacknowledged_handshake :
    let t := ((start 10 1000 ⟨7⟩).step .fillWindow).step (.ackReceived 1 10)
    SafeRun 10 1000 ⟨7⟩ t ∧ (t.Covered ∧ ∀ op, t.Honest op → t.Safe op → t.RemovesAcked op) := by
  intro t
  have opened : SafeRun 10 1000 ⟨7⟩ ((start 10 1000 ⟨7⟩).step .fillWindow) :=
    (show SafeRun 10 1000 ⟨7⟩ (start 10 1000 ⟨7⟩) from .refl _).snoc .fillWindow ⟨trivial, trivial⟩
  have run : SafeRun 10 1000 ⟨7⟩ t := opened.snoc (.ackReceived 1 10)
    ⟨⟨by decide, by decide, by decide⟩, Or.inr ⟨by decide, Or.inl (by decide)⟩⟩
  exact ⟨run, run_retains_unacknowledged 10 1000 ⟨7⟩ t run⟩

section Wraparound

/-- A buffer that fits the free space and one segment is sent whole. -/
theorem fillWindow_flush {s : TCPSender} (filling : s.Filling) (unended : s.stream.inputEnd = false)
    (window : 0 < s.receiverWindowSize) (buffered : s.stream.buffer ≠ [])
    (small : s.stream.buffer.length ≤ TCPConfig.maxPayloadSize)
    (free : s.stream.buffer.length ≤ s.freeBytes s.winRightEdge) :
    s.nextPayload s.winRightEdge = s.stream.buffer ∧ s.nextFin s.winRightEdge = false ∧
      s.fillWindow = s.sendData s.winRightEdge ∧ s.fillWindow.stream.buffer = [] := by
  have positive : 0 < s.stream.buffer.length := List.length_pos_of_ne_nil buffered
  have normal := normalizeWindow_of_pos window
  have sending : s.Sending s.winRightEdge :=
    ⟨by omega, filling.2.2, (ByteStream.bufferEmpty_eq_false_iff _).mpr buffered⟩
  have whole : s.nextPayload s.winRightEdge = s.stream.buffer := by
    rw [nextPayload, List.take_of_length_le (by omega)]
  have drained : (s.sendData s.winRightEdge).stream.buffer = [] := by
    rw [sendData_stream, ByteStream.read_buffer, List.drop_eq_nil_of_le (by omega)]
  have result : s.fillWindow = s.sendData s.winRightEdge := by
    rcases s.fillWindow_cases with ⟨unsent, _⟩ | ⟨_, closed, _⟩ | ⟨_, eq⟩
    · simp [filling.1] at unsent
    · simp [filling.2.1, filling.2.2] at closed
    · rw [eq, fillOpen, normal]
      rw [if_neg (by simp [ByteStream.eof_iff, unended])]
      obtain ⟨fuel, size⟩ : ∃ fuel, s.stream.bufferSize = fuel + 1 := ⟨s.stream.bufferSize - 1, by
        have : s.stream.bufferSize = s.stream.buffer.length := rfl
        omega⟩
      rw [size, fillLoop_succ fuel sending, fillLoop_done]
      exact fun more => more.buffered drained
  refine ⟨whole, ?_, result, by rw [result]; exact drained⟩
  rw [nextFin, Bool.and_eq_false_iff]
  exact Or.inl (by simp [ByteStream.eof, ByteStream.inputEnded, unended])

theorem fillWindow_idle {s : TCPSender} (opened : s.synSent = true)
    (unended : s.stream.inputEnd = false) (window : 0 < s.receiverWindowSize)
    (empty : s.stream.buffer = []) : s.fillWindow = s := by
  have normal := normalizeWindow_of_pos window
  rcases s.fillWindow_cases with ⟨unsent, _⟩ | ⟨_, _, eq⟩ | ⟨_, eq⟩
  · simp [opened] at unsent
  · exact eq
  · rw [eq, fillOpen, normal]
    rw [if_neg (by simp [ByteStream.eof_iff, unended]), fillLoop_done]
    exact fun more => more.buffered empty

/-- An open sender with a ten-byte window, everything written sent, and
everything up to the front of the queue acknowledged. -/
structure Ready (isn : WrappingInt32) (t : Tracked) (queue : List TCPSegment) : Prop where
  consistent : Consistent isn t
  noSyn : ∀ seg ∈ queue, seg.header.syn = false
  waiting : t.history.sender.outstandingSegments = queue
  first : t.history.sender.unackedFrom = t.highest
  opened : t.history.sender.synSent = true
  unfinished : t.history.sender.finSent = false
  empty : t.history.sender.stream.buffer = []
  unended : t.history.sender.stream.inputEnd = false
  capacity : t.history.sender.stream.capacity = 10
  window : t.history.sender.receiverWindowSize = 10

theorem Ready.next {queue : List TCPSegment} (ready : Ready isn t queue) :
    t.history.sender.nextSeqno = t.highest + seqLen queue := by
  rw [ready.consistent.encodes.queue_laid.2, ready.first, ready.waiting]

theorem Ready.filling {queue : List TCPSegment} (ready : Ready isn t queue) : t.history.sender.Filling := by
  refine ⟨ready.opened, ?_, ready.unfinished⟩
  have noSyn := ready.noSyn
  simp only [synOutstanding, ready.waiting]
  cases queue with
  | nil => rfl
  | cons front rest => exact noSyn front List.mem_cons_self

/-- The room in the window is what the queue leaves of it. -/
theorem Ready.free {queue : List TCPSegment} (ready : Ready isn t queue) (fits : seqLen queue ≤ 10) :
    t.history.sender.freeBytes t.history.sender.winRightEdge = 10 - seqLen queue := by
  rw [freeBytes, winRightEdge, ready.next, ready.consistent.acked.base, ready.window, FixedWidth.sub,
    FixedWidth.ofInt, FixedWidth.add]
  push_cast
  omega

theorem Ready.written {queue : List TCPSegment} (ready : Ready isn t queue) {data : List UInt8}
    (fits : data.length ≤ 10) : (t.history.sender.write data).2.stream.buffer = data := by
  have accepted : t.history.sender.stream.writeLen data = data.length := by
    apply ByteStream.writeLen_of_fits
    rw [ready.empty, ready.capacity]
    simpa using fits
  simp [TCPSender.write, ByteStream.write, ready.empty, accepted]

/-- The window filled after a write carries the data and leaves an empty stream. -/
theorem Ready.flushed {queue : List TCPSegment} (ready : Ready isn t queue) (data : List UInt8)
    (nonempty : data ≠ []) (fits : seqLen queue + data.length ≤ 10) :
    ∃ stream, (t.history.sender.write data).2.fillWindow =
        { (t.history.sender.write data).2 with stream := stream }.segmentHandler { payload := data } ∧
      stream.buffer = [] ∧ stream.inputEnd = false ∧ stream.capacity = 10 := by
  have buffer := ready.written (by omega : data.length ≤ 10)
  have free : (t.history.sender.write data).2.freeBytes (t.history.sender.write data).2.winRightEdge =
      10 - seqLen queue := ready.free (by omega)
  have size : TCPConfig.maxPayloadSize = 1452 := rfl
  have filling : (t.history.sender.write data).2.Filling := ready.filling
  obtain ⟨payload, fin, result, drained⟩ := fillWindow_flush filling ready.unended
    (ready.window ▸ by decide : 0 < t.history.sender.receiverWindowSize) (by rw [buffer]; exact nonempty)
    (by rw [buffer]; omega) (by rw [buffer, free]; omega)
  rw [result, sendData_eq, payload, fin, buffer] at drained ⊢
  refine ⟨_, ?_, drained, ready.unended, ready.capacity⟩
  rw [Bool.or_false]
  rfl

/-- What is written goes out in one segment. -/
theorem Ready.send {queue : List TCPSegment} (ready : Ready isn t queue) (data : List UInt8)
    (nonempty : data ≠ []) (fits : seqLen queue + data.length ≤ 10) :
    ∃ seg, seg.lengthInSequenceSpace = data.length ∧
      Ready isn ((t.step (.write data)).step .fillWindow) (queue ++ [seg]) ∧
      ((t.step (.write data)).step .fillWindow).highest = t.highest := by
  have wrote := (ready.consistent.step (.write data) trivial trivial).1
  have filled := (wrote.step .fillWindow trivial trivial).1
  obtain ⟨stream, result, empty, unended, capacity⟩ := ready.flushed data nonempty fits
  have sent : ((t.step (.write data)).step .fillWindow).history.sender =
      { (t.history.sender.write data).2 with stream := stream }.segmentHandler { payload := data } := result
  refine ⟨({ payload := data } : TCPSegment).withSeqno
    (wrap t.history.sender.nextSeqno t.history.sender.isn), rfl,
    ⟨filled, ?_, ?_, ?_, ?_, ?_, ?_, ?_, ?_, ?_⟩, rfl⟩
  · intro seg member
    rcases List.mem_append.mp member with member | member
    · exact ready.noSyn seg member
    · rw [List.mem_singleton.mp member]
      rfl
  · rw [sent, ← ready.waiting]
    rfl
  · change ((t.step (.write data)).step .fillWindow).history.sender.unackedFrom = t.highest
    rw [sent, ← ready.first]
    exact Nat.add_sub_add_right _ _ _
  · rw [sent]
    exact ready.opened
  · rw [sent]
    exact ready.unfinished
  · rwa [sent]
  · rwa [sent]
  · rwa [sent]
  · rw [sent]
    exact ready.window

/-- What an acknowledgement does to a ready sender that takes it as new. -/
theorem Ready.acknowledged {queue : List TCPSegment} (ready : Ready isn t queue) {a : Nat}
    (near : t.highest < a ∧ a ≤ t.history.sender.nextSeqno ∧ a < t.highest + 2 ^ 31) :
    t.history.sender.Accepts (wrap a t.history.sender.isn) ∧
      (t.step (.ackReceived a 10)).history.sender = (t.history.sender.setWindow 10).acknowledge
        (unwrap (wrap a t.history.sender.isn) t.history.sender.isn t.history.sender.rcvBase) := by
  have base := ready.consistent.acked.base
  have accepts : t.history.sender.Accepts (wrap a t.history.sender.isn) := by
    rw [Accepts, unwrap_wrap_eq a _ _ (by omega), base]
    split_ifs <;> omega
  refine ⟨accepts, ?_⟩
  obtain ⟨_, _, _, ackEq⟩ := (t.history.sender.setWindow 10).acknowledge_eq
    (unwrap (wrap a t.history.sender.isn) t.history.sender.isn t.history.sender.rcvBase)
  refine (ackReceived_of_accepts accepts 10).trans (fillWindow_idle ?_ ?_ ?_ ?_) <;> rw [ackEq]
  · exact ready.opened
  · exact ready.unended
  · exact (by decide : 0 < (10 : UInt16).toNat)
  · exact ready.empty

/-- An acknowledgement of everything sent empties the queue. -/
theorem Ready.ackAll {queue : List TCPSegment} (ready : Ready isn t queue)
    (short : seqLen queue ≤ 10) (nonempty : 0 < seqLen queue) :
    t.Honest (.ackReceived t.history.sender.nextSeqno 10) ∧
      Ready isn (t.step (.ackReceived t.history.sender.nextSeqno 10)) [] ∧
      (t.step (.ackReceived t.history.sender.nextSeqno 10)).highest = t.history.sender.nextSeqno := by
  have next := ready.next
  have honest : t.Honest (.ackReceived t.history.sender.nextSeqno 10) := by
    refine ⟨Nat.le_refl _, ?_, ?_⟩ <;> omega
  have after := (ready.consistent.step _ honest (Or.inr ⟨by omega, Or.inl rfl⟩)).1
  obtain ⟨accepts, eq⟩ := ready.acknowledged (a := t.history.sender.nextSeqno) (by omega)
  have highest : (t.step (.ackReceived t.history.sender.nextSeqno 10)).highest =
      t.history.sender.nextSeqno := by
    change nextHighest t.highest t.history.sender _ = _
    rw [nextHighest, if_pos accepts]
    omega
  obtain ⟨_, _, _, ackEq⟩ := (t.history.sender.setWindow 10).acknowledge_eq
    (unwrap (wrap t.history.sender.nextSeqno t.history.sender.isn) t.history.sender.isn
      t.history.sender.rcvBase)
  have nextAfter : (t.step (.ackReceived t.history.sender.nextSeqno 10)).history.sender.nextSeqno =
      t.history.sender.nextSeqno := by rw [eq, ackEq]; rfl
  obtain ⟨_, total⟩ := after.encodes.queue_laid
  have drained : (t.step (.ackReceived t.history.sender.nextSeqno 10)).history.sender.outstandingSegments
      = [] := by
    by_contra waiting
    have := after.acked.lt_ends _ (seqLen_mem_ends waiting)
    omega
  rw [drained, seqLen_nil, Nat.add_zero] at total
  refine ⟨honest, ⟨after, by simp, drained, by omega, ?_, ?_, ?_, ?_, ?_, ?_⟩, highest⟩ <;>
    rw [eq, ackEq]
  · exact ready.opened
  · exact ready.unfinished
  · exact ready.empty
  · exact ready.unended
  · exact ready.capacity
  · rfl

/-- One-byte round trips reach every position of the stream. -/
theorem honestRun_ready (k : Nat) : ∃ t, HonestRun 10 1000 ⟨0⟩ t ∧
    Ready ⟨0⟩ t [] ∧ t.highest = k + 1 := by
  induction k with
  | zero =>
    have opened := ((start_consistent 10 1000 ⟨0⟩).step .fillWindow trivial trivial).1
    have run : HonestRun 10 1000 ⟨0⟩ ((start 10 1000 ⟨0⟩).step .fillWindow) :=
      (show HonestRun 10 1000 ⟨0⟩ (start 10 1000 ⟨0⟩) from .refl _).snoc .fillWindow trivial
    have honest : ((start 10 1000 ⟨0⟩).step .fillWindow).Honest (.ackReceived 1 10) :=
      ⟨by decide, by decide, by decide⟩
    refine ⟨((start 10 1000 ⟨0⟩).step .fillWindow).step (.ackReceived 1 10),
      run.snoc _ honest,
      ⟨(opened.step _ honest (Or.inr ⟨by decide, Or.inl (by decide)⟩)).1, by simp, by decide, by decide,
        by decide, by decide, by decide, by decide, by decide, by decide⟩, by decide⟩
  | succ k ih =>
    obtain ⟨t, reach, ready, highest⟩ := ih
    obtain ⟨seg, length, sent, same⟩ := ready.send [0] (by simp) (by simp)
    have size : seqLen ([] ++ [seg]) = 1 := by simp [length]
    have next := sent.next
    obtain ⟨honest, ready, highest⟩ := sent.ackAll (by omega) (by omega)
    refine ⟨_, ((reach.snoc (.write [0]) trivial).snoc .fillWindow trivial).snoc _ honest,
      ready, ?_⟩
    rw [highest, next, same, size]
    omega

/-- With the second of two segments across 2^32, its stored end is small, and
the acknowledgement of the first retires both. -/
theorem Ready.discards {front back : TCPSegment} (ready : Ready isn t [front, back])
    (base : t.highest = 2 ^ 32 - 5) (frontLen : front.lengthInSequenceSpace = 3)
    (backLen : back.lengthInSequenceSpace = 5) :
    (t.step (.ackReceived (2 ^ 32 - 2) 10)).history.sender.outstandingSegments = [] := by
  have next := ready.next
  simp only [seqLen_cons, seqLen_nil, frontLen, backLen] at next
  obtain ⟨_, after⟩ := ready.acknowledged (a := 2 ^ 32 - 2) (by omega)
  have low := ready.consistent.acked.base
  rw [base] at low
  rw [unwrap_wrap_near _ _ _ (by omega) (by omega) (by omega)] at after
  obtain ⟨_, _, _, ackEq⟩ := (t.history.sender.setWindow 10).acknowledge_eq (2 ^ 32 - 2)
  obtain ⟨popped, split, _, _, stopped⟩ :=
    (ready.consistent.encodes.setWindow 10).popped_spec (2 ^ 32 - 2)
  have first : (t.history.sender.setWindow 10).unackedFrom = 2 ^ 32 - 5 := ready.first.trans base
  rw [show (t.history.sender.setWindow 10).outstandingSegments = [front, back] from ready.waiting] at split
  rw [first] at stopped
  rw [after, ackEq]
  change ((t.history.sender.setWindow 10).popped (2 ^ 32 - 2)).1 = []
  generalize ((t.history.sender.setWindow 10).popped (2 ^ 32 - 2)).1 = rest at *
  cases rest with
  | nil => rfl
  | cons seg rest =>
    have stop := stopped seg rfl
    rcases popped with _ | ⟨popped, _ | ⟨other, more⟩⟩
    · simp only [List.nil_append, List.cons.injEq] at split
      rw [seqLen_nil, ← split.1, frontLen] at stop
      omega
    · simp only [List.cons_append, List.nil_append, List.cons.injEq] at split
      rw [seqLen_cons, seqLen_nil, ← split.1, ← split.2.1, frontLen, backLen] at stop
      omega
    · have := congrArg List.length split
      simp at this

/-- A run of one-byte round trips up to 2^32 - 5, then three and five bytes: the
acknowledgement of the three removes the five as well. -/
theorem partial_ack_discards_across_boundary :
    ¬ ∀ (capacity : Nat) (timeout : UInt16) (isn : WrappingInt32) (t : Tracked),
      HonestRun capacity timeout isn t →
        t.Covered ∧ ∀ op, t.Honest op → t.RemovesAcked op := by
  intro law
  obtain ⟨t, reach, ready, highest⟩ := honestRun_ready (2 ^ 32 - 6)
  obtain ⟨front, frontLen, sent, same⟩ := ready.send [1, 2, 3] (by simp) (by simp)
  obtain ⟨back, backLen, ready, again⟩ := sent.send [4, 5, 6, 7, 8] (by simp) (by simp [frontLen])
  have reach := ((((reach.snoc (.write [1, 2, 3]) trivial).snoc .fillWindow trivial).snoc
    (.write [4, 5, 6, 7, 8]) trivial).snoc .fillWindow trivial)
  generalize ((((t.step (.write [1, 2, 3])).step .fillWindow).step (.write [4, 5, 6, 7, 8])).step
    .fillWindow) = u at *
  change front.lengthInSequenceSpace = 3 at frontLen
  change back.lengthInSequenceSpace = 5 at backLen
  have base : u.highest = 2 ^ 32 - 5 := by omega
  have next := ready.next
  obtain ⟨gone, eq⟩ := ready.consistent.encodes.outstanding
  have total := ready.consistent.encodes.next
  rw [← eq, ready.waiting] at total
  simp only [List.nil_append, List.cons_append, seqLen_append, seqLen_cons, seqLen_nil, frontLen,
    backLen] at total next
  have held : Held u.history (gone ++ [front]) back [] :=
    ⟨by rw [← eq, ready.waiting]; simp, [front], by rw [ready.waiting]; rfl⟩
  have removes := (law 10 1000 ⟨0⟩ u reach).2 (.ackReceived (2 ^ 32 - 2) 10)
    ⟨by omega, by omega, by omega⟩
  rcases removes _ _ _ held with ⟨_, kept⟩ | ⟨a, window, same, covered⟩
  · rw [ready.discards base frontLen backLen] at kept
    simp at kept
  · cases same
    rw [seqLen_append, seqLen_cons, seqLen_nil, frontLen, backLen] at covered
    omega

end Wraparound

end Tracked
end Sponge.TCPSender
