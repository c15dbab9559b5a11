import Sponge.TCP.Sender.Fill

/-! The sender's first transmissions encode its byte stream, whatever the
acknowledgements and windows are. The invariant relates the sender to two
histories that the code does not keep: the bytes its stream has accepted and the
segments that `segmentHandler` has pushed. -/
namespace Sponge.TCPSender

def payloads (segs : List TCPSegment) : List UInt8 := segs.flatMap TCPSegment.payload

/-- Nonempty segments laid out back to back from absolute sequence number `a`. -/
def Laid (isn : WrappingInt32) : Nat → List TCPSegment → Prop
  | _, [] => True
  | a, seg :: rest => seg.header.seqno = wrap a isn ∧ 0 < seg.lengthInSequenceSpace ∧
      Laid isn (a + seg.lengthInSequenceSpace) rest

def bareSyn (isn : WrappingInt32) : TCPSegment := { header := { seqno := isn, syn := true } }

/-- A segment of the data loop or a lone FIN: only the sequence number and the
FIN flag of its header are set. -/
structure DataSegment (seg : TCPSegment) : Prop where
  header : seg.header = { seqno := seg.header.seqno, fin := seg.header.fin }
  small : seg.payload.length ≤ TCPConfig.maxPayloadSize

@[simp] theorem payloads_append (left right : List TCPSegment) :
    payloads (left ++ right) = payloads left ++ payloads right := by simp [payloads]

@[simp] theorem payloads_cons (seg : TCPSegment) (rest : List TCPSegment) :
    payloads (seg :: rest) = seg.payload ++ payloads rest := rfl

@[simp] theorem payloads_nil : payloads [] = [] := rfl

theorem laid_append {isn : WrappingInt32} {a : Nat} {left right : List TCPSegment} :
    Laid isn a (left ++ right) ↔ Laid isn a left ∧ Laid isn (a + seqLen left) right := by
  induction left generalizing a with
  | nil => simp [Laid]
  | cons seg rest ih => simp [Laid, ih, and_assoc, Nat.add_assoc]

theorem wrap_zero (isn : WrappingInt32) : wrap 0 isn = isn := by simp [wrap]

/-- What the sender has sent so far, against what its stream has accepted. -/
structure Encodes (s : TCPSender) (accepted : List UInt8) (sent : List TCPSegment) : Prop where
  laid : Laid s.isn 0 sent
  next : s.nextSeqno = seqLen sent
  closed : s.synSent = false → sent = []
  opened : s.synSent = true → ∃ data, sent = bareSyn s.isn :: data ∧ ∀ seg ∈ data, DataSegment seg
  unread : payloads sent ++ s.stream.buffer = accepted
  read : s.stream.readBytes = (payloads sent).length
  finLast : ∀ seg ∈ sent.dropLast, seg.header.fin = false
  finSent : s.finSent = true ↔ ∃ seg ∈ sent, seg.header.fin = true
  finEnded : s.finSent = true → s.stream.inputEnd = true
  outstanding : s.outstandingSegments <:+ sent
  flight : s.bytesInFlight = seqLen s.outstandingSegments
  timer : s.timerRunning = true ↔ s.outstandingSegments ≠ []

theorem new_encodes (capacity : Nat) (timeout : UInt16) (isn : WrappingInt32) :
    Encodes (new capacity timeout isn) [] [] := by
  constructor <;> simp [new, Laid, ByteStream.new]

variable {s : TCPSender} {accepted : List UInt8} {sent : List TCPSegment}

/-- The stream's own counters in terms of the two histories. -/
theorem Encodes.bytesWritten (inv : Encodes s accepted sent) :
    s.stream.writeBytes = accepted.length := by
  rw [s.stream.counted, inv.read, ← inv.unread, List.length_append]

theorem Encodes.prefix_read (inv : Encodes s accepted sent) :
    payloads sent = accepted.take s.stream.readBytes := by
  rw [inv.read, ← inv.unread, List.take_left]

/-- Pushing one more segment: what every emission has in common. -/
theorem Encodes.push {u : TCPSender} {seg : TCPSegment} (inv : Encodes s accepted sent)
    (same : u.nextSeqno = s.nextSeqno ∧ u.isn = s.isn ∧ u.bytesInFlight = s.bytesInFlight ∧
      u.outstandingSegments = s.outstandingSegments)
    (positive : 0 < seg.lengthInSequenceSpace)
    (opened : u.synSent = true ∧ ∃ data, sent ++ [seg.withSeqno (wrap s.nextSeqno s.isn)] =
      bareSyn s.isn :: data ∧ ∀ seg ∈ data, DataSegment seg)
    (unfinished : s.finSent = false)
    (taken : seg.payload ++ u.stream.buffer = s.stream.buffer ∧
      u.stream.readBytes = s.stream.readBytes + seg.payload.length)
    (fin : u.finSent = seg.header.fin)
    (ended : u.finSent = true → u.stream.inputEnd = true) :
    Encodes (u.segmentHandler seg) accepted (sent ++ [seg.withSeqno (wrap s.nextSeqno s.isn)]) := by
  obtain ⟨nextEq, isnEq, flightEq, outEq⟩ := same
  have noFin : ∀ seg ∈ sent, seg.header.fin = false := by
    intro old member
    by_contra set
    exact absurd (inv.finSent.mpr ⟨old, member, by simpa using set⟩) (by simp [unfinished])
  simp only [segmentHandler, nextEq, isnEq, flightEq, outEq]
  constructor
  · refine laid_append.mpr ⟨by simpa only [isnEq] using inv.laid, ?_⟩
    exact ⟨by rw [inv.next, Nat.zero_add]; rfl, positive, trivial⟩
  · simp [inv.next]
  · simp [opened.1]
  · exact fun _ => by simpa only [isnEq] using opened.2
  · simp [← inv.unread, ← taken.1, payloads]
  · simp [taken.2, inv.read]
  · rwa [List.dropLast_concat]
  · simp only [fin, List.mem_append, List.mem_singleton]
    constructor
    · exact fun set => ⟨_, Or.inr rfl, set⟩
    · rintro ⟨other, member | rfl, set⟩
      · exact absurd set (by simp [noFin other member])
      · exact set
  · exact ended
  · obtain ⟨earlier, eq⟩ := inv.outstanding
    exact ⟨earlier, by rw [← List.append_assoc, eq]⟩
  · simp [inv.flight]
  · simp

theorem Encodes.sendSyn (inv : Encodes s accepted sent) (unsent : s.synSent = false) :
    Encodes s.sendSyn accepted (sent ++ [bareSyn s.isn]) := by
  have nothing := inv.closed unsent
  have next : s.nextSeqno = 0 := by rw [inv.next, nothing]; rfl
  have unfinished : s.finSent = false := by
    by_contra finished
    obtain ⟨seg, member, _⟩ := inv.finSent.mp (by simpa using finished)
    simp [nothing] at member
  have stamped : (({ header := { syn := true } } : TCPSegment).withSeqno (wrap s.nextSeqno s.isn)) =
      bareSyn s.isn := by
    rw [next, wrap_zero]
    rfl
  rw [← stamped]
  refine inv.push ⟨rfl, rfl, rfl, rfl⟩ (by decide) ⟨rfl, [], ?_, by simp⟩ unfinished
    ⟨rfl, rfl⟩ unfinished (by simp [unfinished])
  rw [nothing, stamped]
  rfl

/-- Appending a data segment keeps the shape of what has been sent. -/
theorem Encodes.opened_append (inv : Encodes s accepted sent) (opened : s.synSent = true)
    {seg : TCPSegment} (isData : DataSegment seg) :
    ∃ data, sent ++ [seg] = bareSyn s.isn :: data ∧ ∀ seg ∈ data, DataSegment seg := by
  obtain ⟨data, eq, all⟩ := inv.opened opened
  refine ⟨data ++ [seg], by rw [eq]; rfl, ?_⟩
  intro other member
  rcases List.mem_append.mp member with member | member
  · exact all other member
  · rw [List.mem_singleton.mp member]
    exact isData

theorem Encodes.sendFin (inv : Encodes s accepted sent) (opened : s.synSent = true)
    (unfinished : s.finSent = false) (ended : s.stream.inputEnd = true) :
    ∃ seg, s.sendFin.segmentsOut = s.segmentsOut ++ [seg] ∧
      Encodes s.sendFin accepted (sent ++ [seg]) :=
  ⟨_, rfl, inv.push ⟨rfl, rfl, rfl, rfl⟩ (by decide)
    ⟨opened, inv.opened_append opened ⟨rfl, Nat.zero_le _⟩⟩ unfinished ⟨rfl, rfl⟩ rfl (fun _ => ended)⟩

theorem Encodes.sendData {edge : Nat} (inv : Encodes s accepted sent) (opened : s.synSent = true)
    (sending : s.Sending edge) :
    ∃ seg, (s.sendData edge).segmentsOut = s.segmentsOut ++ [seg] ∧
      seg.header.fin = s.nextFin edge ∧ Encodes (s.sendData edge) accepted (sent ++ [seg]) := by
  have positive := sending.payload_pos
  have unfinished := sending.2.1
  rw [sendData_eq]
  refine ⟨_, rfl, rfl, inv.push ⟨rfl, rfl, rfl, rfl⟩ (by simp [TCPSegment.lengthInSequenceSpace]; omega)
    ⟨opened, inv.opened_append opened ⟨rfl, s.nextPayload_small edge⟩⟩ unfinished
    ⟨s.nextPayload_append edge, ?_⟩ (by simp [unfinished]) ?_⟩
  · simp only [ByteStream.read_readBytes, nextPayload, List.length_take]
  · simp only [unfinished, Bool.false_or, nextFin, Bool.and_eq_true, ByteStream.eof_iff]
    exact fun fin => fin.1.2

/-- `u` is `s` after pushing the segments `new`, a FIN only at the end of the stream. -/
structure Emits (accepted : List UInt8) (sent : List TCPSegment) (s u : TCPSender)
    (new : List TCPSegment) : Prop where
  out : u.segmentsOut = s.segmentsOut ++ new
  encodes : Encodes u accepted (sent ++ new)
  finished : (∃ seg ∈ new, seg.header.fin = true) → u.stream.eof = true

theorem Emits.none (inv : Encodes s accepted sent) : Emits accepted sent s s [] :=
  ⟨by simp, by simpa using inv, by simp⟩

/-- One more emission that leaves the earlier ones without a FIN. -/
theorem Emits.snoc {u v : TCPSender} {new : List TCPSegment} {seg : TCPSegment}
    (emits : Emits accepted sent s u new) (unfinished : u.finSent = false)
    (out : v.segmentsOut = u.segmentsOut ++ [seg])
    (encodes : Encodes v accepted ((sent ++ new) ++ [seg]))
    (ended : seg.header.fin = true → v.stream.eof = true) :
    Emits accepted sent s v (new ++ [seg]) := by
  refine ⟨by rw [out, emits.out, List.append_assoc], by rwa [List.append_assoc] at encodes, ?_⟩
  rintro ⟨other, member, fin⟩
  rcases List.mem_append.mp member with member | member
  · have := emits.encodes.finSent.mpr ⟨other, List.mem_append_right _ member, fin⟩
    simp [unfinished] at this
  · rw [List.mem_singleton.mp member] at fin
    exact ended fin

theorem Encodes.normalizeWindow (inv : Encodes s accepted sent) :
    Encodes s.normalizeWindow accepted sent :=
  ⟨inv.laid, inv.next, inv.closed, inv.opened, inv.unread, inv.read, inv.finLast, inv.finSent,
    inv.finEnded, inv.outstanding, inv.flight, inv.timer⟩

theorem Encodes.fillOpen (inv : Encodes s accepted sent) (filling : s.Filling) :
    ∃ new, Emits accepted sent s s.fillOpen new ∧ s.fillOpen.synSent = true := by
  obtain ⟨opened, _, unfinished⟩ := filling
  have start : Emits accepted sent s s.normalizeWindow [] :=
    ⟨by simp [TCPSender.normalizeWindow], by simpa using inv.normalizeWindow, by simp⟩
  apply fillOpen_rule (P := fun u => ∃ new, Emits accepted sent s u new ∧ u.synSent = true)
  · exact fun _ => ⟨[], start, opened⟩
  · intro ended _
    have streamEnded := s.stream.eof_iff.mp ended
    obtain ⟨seg, out, encodes⟩ := inv.normalizeWindow.sendFin opened unfinished streamEnded.2
    exact ⟨[seg], start.snoc unfinished out (by simpa using encodes) (fun _ => ended), opened⟩
  · rintro u ⟨new, emits, opened⟩ sending
    obtain ⟨seg, out, fin, encodes⟩ := emits.encodes.sendData opened sending
    refine ⟨new ++ [seg], emits.snoc sending.2.1 out encodes ?_, by rw [sendData_eq]; exact opened⟩
    rw [fin, nextFin, Bool.and_eq_true, sendData_eq]
    exact fun ended => ended.1

theorem Encodes.fillWindow (inv : Encodes s accepted sent) :
    ∃ new, Emits accepted sent s s.fillWindow new := by
  rcases s.fillWindow_cases with ⟨unsent, eq⟩ | ⟨_, _, eq⟩ | ⟨filling, eq⟩ <;> rw [eq]
  · refine ⟨[bareSyn s.isn], ?_, inv.sendSyn unsent, by simp [bareSyn]⟩
    have next : s.nextSeqno = 0 := by rw [inv.next, inv.closed unsent]; rfl
    simp [TCPSender.sendSyn, segmentHandler, next, wrap_zero, TCPSegment.withSeqno, bareSyn]
  · exact ⟨[], Emits.none inv⟩
  · obtain ⟨new, emits, _⟩ := inv.fillOpen filling
    exact ⟨new, emits⟩

theorem popAcked_suffix (isn : WrappingInt32) (base a : Nat) (queue : List TCPSegment) (inFlight : Nat)
    (newData : Bool) : (popAcked isn base a queue inFlight newData).1 <:+ queue := by
  induction queue generalizing inFlight newData with
  | nil => exact List.suffix_rfl
  | cons front rest ih =>
    unfold popAcked
    split
    · exact (ih _ _).trans (List.suffix_cons front rest)
    · exact List.suffix_rfl

/-- The pop loop removes a first part of the queue, each segment with an end at
most the acknowledgement, and stops at the first that is not. -/
theorem popAcked_spec (isn : WrappingInt32) (base a : Nat) (queue : List TCPSegment)
    (inFlight : Nat) (newData : Bool) (counted : inFlight = seqLen queue) :
    ∃ popped, queue = popped ++ (popAcked isn base a queue inFlight newData).1 ∧
      (popAcked isn base a queue inFlight newData).2.1 =
        seqLen (popAcked isn base a queue inFlight newData).1 ∧
      (∀ seg ∈ popped, endOfFront isn base seg ≤ a) ∧
      ∀ seg ∈ (popAcked isn base a queue inFlight newData).1.head?, a < endOfFront isn base seg := by
  induction queue generalizing inFlight newData with
  | nil => exact ⟨[], rfl, counted, by simp, by simp [popAcked]⟩
  | cons front rest ih =>
    unfold popAcked
    split
    · rename_i reached
      obtain ⟨popped, eq, flight, ends, head⟩ :=
        ih (inFlight - front.lengthInSequenceSpace) true (by rw [counted, seqLen_cons]; omega)
      refine ⟨front :: popped, by rw [List.cons_append, ← eq], flight, ?_, head⟩
      intro seg member
      rcases List.mem_cons.mp member with rfl | member
      · exact reached
      · exact ends seg member
    · rename_i short
      refine ⟨[], rfl, counted, by simp, ?_⟩
      simpa using short

theorem Encodes.setWindow (inv : Encodes s accepted sent) (window : UInt16) :
    Encodes (s.setWindow window) accepted sent :=
  ⟨inv.laid, inv.next, inv.closed, inv.opened, inv.unread, inv.read, inv.finLast, inv.finSent,
    inv.finEnded, inv.outstanding, inv.flight, inv.timer⟩

/-- The result of the pop loop of an acknowledgement. -/
def popped (s : TCPSender) (a : Nat) : List TCPSegment × Nat × Bool :=
  popAcked s.isn (FixedWidth.trunc 32 a) a s.outstandingSegments s.bytesInFlight false

/-- `acknowledge` changes the base, the queue with its count, and the timers. -/
theorem acknowledge_eq (s : TCPSender) (a : Nat) : ∃ rto elapsed retransmissions,
    s.acknowledge a =
      { s with
        rcvBase := FixedWidth.trunc 32 a
        outstandingSegments := (s.popped a).1
        bytesInFlight := (s.popped a).2.1
        timerRunning := s.timerRunning && !(s.popped a).1.isEmpty
        rto := rto
        timeElipsed := elapsed
        consecutiveRetransmission := retransmissions } := by
  unfold acknowledge popped
  dsimp only
  generalize popAcked s.isn (FixedWidth.trunc 32 a) a s.outstandingSegments s.bytesInFlight false = result
  obtain ⟨queue, flight, newData⟩ := result
  cases newData <;> cases queue <;> simp

theorem Encodes.acknowledge (inv : Encodes s accepted sent) (a : Nat) :
    Encodes (s.acknowledge a) accepted sent := by
  obtain ⟨rto, elapsed, retransmissions, eq⟩ := s.acknowledge_eq a
  obtain ⟨gone, split, flight, _⟩ := popAcked_spec s.isn (FixedWidth.trunc 32 a) a
    s.outstandingSegments s.bytesInFlight false inv.flight
  change s.outstandingSegments = gone ++ (s.popped a).1 at split
  rw [eq]
  refine ⟨inv.laid, inv.next, inv.closed, inv.opened, inv.unread, inv.read, inv.finLast, inv.finSent,
    inv.finEnded, ?_, flight, ?_⟩
  · exact (List.suffix_append gone _).trans (split ▸ inv.outstanding)
  · -- The timer stops when the queue has become empty, and only then.
    simp only [Bool.and_eq_true, inv.timer]
    constructor
    · exact fun running => by simpa using running.2
    · intro waiting
      refine ⟨fun empty => ?_, by simpa using waiting⟩
      rw [empty] at split
      exact waiting (List.append_eq_nil_iff.mp split.symm).2

@[simp] theorem acknowledge_segmentsOut (s : TCPSender) (a : Nat) :
    (s.acknowledge a).segmentsOut = s.segmentsOut := by
  obtain ⟨_, _, _, eq⟩ := s.acknowledge_eq a
  rw [eq]

theorem Emits.of_frame {u v : TCPSender} {new : List TCPSegment}
    (emits : Emits accepted sent u v new) (out : u.segmentsOut = s.segmentsOut) :
    Emits accepted sent s v new :=
  ⟨by rw [emits.out, out], emits.encodes, emits.finished⟩

theorem Encodes.ackReceived (inv : Encodes s accepted sent) (ackno : WrappingInt32)
    (window : UInt16) : ∃ new, Emits accepted sent s (s.ackReceived ackno window) new := by
  unfold TCPSender.ackReceived
  dsimp only
  split
  · exact ⟨[], Emits.none inv⟩
  split
  · exact ⟨[], (Emits.none (inv.setWindow window)).of_frame rfl⟩
  · obtain ⟨new, emits⟩ := ((inv.setWindow window).acknowledge
      (unwrap ackno s.isn s.rcvBase)).fillWindow
    exact ⟨new, emits.of_frame (acknowledge_segmentsOut _ _)⟩

/-- A tick sends nothing new: it repeats at most the front of the queue. -/
theorem Encodes.tick (inv : Encodes s accepted sent) (ms : Nat) :
    Encodes (s.tick ms) accepted sent ∧ ∃ again, (s.tick ms).segmentsOut = s.segmentsOut ++ again ∧
      again <+: s.outstandingSegments := by
  obtain ⟨again, _, _, _, front, eq⟩ := s.tick_eq ms
  rw [eq]
  exact ⟨⟨inv.laid, inv.next, inv.closed, inv.opened, inv.unread, inv.read, inv.finLast,
    inv.finSent, inv.finEnded, inv.outstanding, inv.flight, inv.timer⟩, again, rfl, front⟩

theorem Encodes.sendEmptySegment (inv : Encodes s accepted sent) :
    Encodes s.sendEmptySegment accepted sent :=
  ⟨inv.laid, inv.next, inv.closed, inv.opened, inv.unread, inv.read, inv.finLast, inv.finSent,
    inv.finEnded, inv.outstanding, inv.flight, inv.timer⟩

theorem Encodes.write (inv : Encodes s accepted sent) (data : List UInt8) :
    Encodes (s.write data).2 (accepted ++ data.take (s.write data).1) sent :=
  ⟨inv.laid, inv.next, inv.closed, inv.opened, by
    simp only [TCPSender.write, ByteStream.write, ← inv.unread, List.append_assoc], inv.read,
    inv.finLast, inv.finSent, inv.finEnded, inv.outstanding, inv.flight, inv.timer⟩

theorem Encodes.endInput (inv : Encodes s accepted sent) : Encodes s.endInput accepted sent :=
  ⟨inv.laid, inv.next, inv.closed, inv.opened, inv.unread, inv.read, inv.finLast, inv.finSent,
    fun _ => rfl, inv.outstanding, inv.flight, inv.timer⟩

end Sponge.TCPSender
