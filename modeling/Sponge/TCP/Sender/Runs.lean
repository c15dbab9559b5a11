import Sponge.TCP.Sender.Encoding
import Sponge.Lib.Slice

/-! Runs of a sender under every sequence of operations, with arbitrary
acknowledgement numbers and windows. A run keeps the history of first
transmissions and retransmissions next to the sender. -/
namespace Sponge.TCPSender

/-- Operations, with acknowledgements as raw or as absolute numbers. -/
inductive Op (Ackno : Type) where
  | write (data : List UInt8)
  | endInput
  | fillWindow
  | ackReceived (ackno : Ackno) (windowSize : UInt16)
  | tick (msSinceLastTick : Nat)
  | sendEmptySegment

def Op.map (f : α → β) : Op α → Op β
  | .write data => .write data
  | .endInput => .endInput
  | .fillWindow => .fillWindow
  | .ackReceived ackno windowSize => .ackReceived (f ackno) windowSize
  | .tick ms => .tick ms
  | .sendEmptySegment => .sendEmptySegment

abbrev Call := Op WrappingInt32

def apply (s : TCPSender) : Call → TCPSender
  | .write data => (s.write data).2
  | .endInput => s.endInput
  | .fillWindow => s.fillWindow
  | .ackReceived ackno windowSize => s.ackReceived ackno windowSize
  | .tick ms => s.tick ms
  | .sendEmptySegment => s.sendEmptySegment

structure History where
  sender : TCPSender
  accepted : List UInt8
  sent : List TCPSegment
  resent : List TCPSegment

namespace History

/-- The segments an operation puts on the outbound queue. -/
def pushed (h : History) (op : Call) : List TCPSegment :=
  (h.sender.apply op).segmentsOut.drop h.sender.segmentsOut.length

/-- Those pushed by `segmentHandler`. -/
def transmitted (h : History) : Call → List TCPSegment
  | .fillWindow => h.pushed .fillWindow
  | .ackReceived ackno windowSize => h.pushed (.ackReceived ackno windowSize)
  | _ => []

/-- Those pushed again on a timeout. -/
def retransmitted (h : History) : Call → List TCPSegment
  | .tick ms => h.pushed (.tick ms)
  | _ => []

def acceptedBy (h : History) : Call → List UInt8
  | .write data => data.take (h.sender.write data).1
  | _ => []

def step (h : History) (op : Call) : History where
  sender := h.sender.apply op
  accepted := h.accepted ++ h.acceptedBy op
  sent := h.sent ++ h.transmitted op
  resent := h.resent ++ h.retransmitted op

def start (capacity : Nat) (timeout : UInt16) (isn : WrappingInt32) : History :=
  ⟨.new capacity timeout isn, [], [], []⟩

def run (capacity : Nat) (timeout : UInt16) (isn : WrappingInt32) (ops : List Call) : History :=
  ops.foldl step (start capacity timeout isn)

end History

variable {s : TCPSender} {accepted : List UInt8} {sent : List TCPSegment}

theorem ackReceived_isn (s : TCPSender) (ackno : WrappingInt32) (window : UInt16) :
    (s.ackReceived ackno window).isn = s.isn := by
  unfold ackReceived
  dsimp only
  split
  · rfl
  split
  · rfl
  · obtain ⟨_, _, _, eq⟩ := (s.setWindow window).acknowledge_eq (unwrap ackno s.isn s.rcvBase)
    obtain ⟨_, pushes⟩ := fillWindow_pushes ((s.setWindow window).acknowledge _)
    rw [pushes.isn, eq]
    rfl

/-- Without SYN and FIN, sequence space is payload. -/
theorem seqLen_eq_payloads (plain : ∀ seg ∈ segs, seg.header.syn = false ∧ seg.header.fin = false) :
    seqLen segs = (payloads segs).length := by
  induction segs with
  | nil => rfl
  | cons seg rest ih =>
    obtain ⟨syn, fin⟩ := plain seg (List.mem_cons_self)
    rw [seqLen_cons, payloads_cons, List.length_append,
      ih (fun other member => plain other (List.mem_cons_of_mem _ member))]
    simp [TCPSegment.lengthInSequenceSpace, syn, fin]

/-- Where a data segment lies in sequence space and in the stream. -/
theorem Encodes.data_at {before after : List TCPSegment} {seg : TCPSegment}
    (inv : Encodes s accepted sent) (split : sent = bareSyn s.isn :: (before ++ seg :: after)) :
    DataSegment seg ∧ seg.header.seqno = wrap (1 + (payloads before).length) s.isn ∧
      0 < seg.lengthInSequenceSpace ∧ (seg.header.fin = true → after = []) ∧
      SliceAt accepted (payloads before).length seg.payload ∧
      1 + (payloads before).length + seg.lengthInSequenceSpace + seqLen after = s.nextSeqno := by
  have opened : s.synSent = true := by
    by_contra unsent
    rw [inv.closed (by simpa using unsent)] at split
    exact absurd split (by simp)
  obtain ⟨data, eq, isData⟩ := inv.opened opened
  have same : data = before ++ seg :: after := by
    rw [eq] at split
    exact (List.cons.inj split).2
  have plain : ∀ other ∈ before, other.header.syn = false ∧ other.header.fin = false := by
    intro other member
    have shape := (isData other (by rw [same]; exact List.mem_append_left _ member)).header
    refine ⟨by rw [shape], inv.finLast other ?_⟩
    rw [split, ← List.cons_append, List.dropLast_append_cons]
    exact List.mem_append_left _ (List.mem_cons_of_mem _ member)
  have length : seqLen (bareSyn s.isn :: before) = 1 + (payloads before).length := by
    rw [seqLen_cons, seqLen_eq_payloads plain]
    rfl
  have laid := inv.laid
  rw [split, ← List.cons_append, laid_append, Nat.zero_add, length] at laid
  refine ⟨isData seg (by rw [same]; simp), laid.2.1, laid.2.2.1, ?_, ?_, ?_⟩
  · intro fin
    by_contra more
    have := inv.finLast seg (by
      rw [split, ← List.cons_append, List.dropLast_append_cons, List.dropLast_cons_of_ne_nil more]
      simp)
    simp [this] at fin
  · rw [← inv.unread, split]
    have middle := SliceAt.of_append (payloads before) seg.payload (payloads after ++ s.stream.buffer)
    simpa [bareSyn] using middle
  · rw [inv.next, split, ← List.cons_append, seqLen_append, length, seqLen_cons]
    omega

/-- Sequence numbers count the bytes read from the stream, the SYN and the FIN. -/
theorem Encodes.next_eq (inv : Encodes s accepted sent) :
    s.nextSeqno = s.stream.readBytes + (if s.synSent then 1 else 0) + (if s.finSent then 1 else 0) := by
  have read := inv.read
  have fin := inv.finSent
  cases opened : s.synSent with
  | false =>
    have nothing := inv.closed opened
    have unfinished : s.finSent = false := by simpa [nothing] using fin
    rw [inv.next, read, nothing, unfinished]
    rfl
  | true =>
    obtain ⟨data, eq, _⟩ := inv.opened opened
    rcases List.eq_nil_or_concat data with rfl | ⟨before, last, rfl⟩
    · have unfinished : s.finSent = false := by simpa [eq, bareSyn] using fin
      rw [inv.next, read, eq, unfinished]
      rfl
    · rw [List.concat_eq_append] at eq
      obtain ⟨isData, _, _, _, _, next⟩ := inv.data_at eq
      have flag : s.finSent = last.header.fin := by
        rw [Bool.eq_iff_iff, fin]
        constructor
        · rintro ⟨seg, member, set⟩
          have early := inv.finLast seg
          rw [eq, ← List.cons_append, List.dropLast_concat] at early
          rw [eq, ← List.cons_append, List.mem_append, List.mem_singleton] at member
          rcases member with member | rfl
          · simp [early member] at set
          · exact set
        · exact fun set => ⟨last, by rw [eq]; simp, set⟩
      rw [eq] at read
      simp only [payloads_cons, payloads_append, payloads_nil, bareSyn, List.nil_append, List.append_nil,
        List.length_append] at read
      have length : last.lengthInSequenceSpace = last.payload.length + if last.header.fin then 1 else 0 := by
        rw [TCPSegment.lengthInSequenceSpace, isData.header]
        rfl
      rw [seqLen_nil, length] at next
      rw [flag, read]
      simp only [if_true]
      omega

theorem apply_isn (s : TCPSender) (op : Call) : (s.apply op).isn = s.isn := by
  cases op with
  | write data => rfl
  | endInput => rfl
  | fillWindow =>
    obtain ⟨_, pushes⟩ := s.fillWindow_pushes
    exact pushes.isn
  | ackReceived ackno window => exact s.ackReceived_isn ackno window
  | tick ms =>
    obtain ⟨_, _, _, _, _, eq⟩ := s.tick_eq ms
    change (s.tick ms).isn = s.isn
    rw [eq]
  | sendEmptySegment => rfl

namespace History

/-- What the histories of a run say about its sender. -/
structure Faithful (isn : WrappingInt32) (h : History) : Prop where
  isn : h.sender.isn = isn
  encodes : Encodes h.sender h.accepted h.sent
  repeated : ∀ seg ∈ h.resent, seg ∈ h.sent

theorem pushed_of_emits {h : History} {op : Call} {new : List TCPSegment}
    (emits : Emits h.accepted h.sent h.sender (h.sender.apply op) new) : h.pushed op = new := by
  rw [History.pushed, emits.out, List.drop_left]

variable {h : History} {isn : WrappingInt32}

theorem Faithful.emit (inv : Faithful isn h) (op : Call) {new : List TCPSegment}
    (emits : Emits h.accepted h.sent h.sender (h.sender.apply op) new)
    (silent : h.acceptedBy op = [] ∧ h.retransmitted op = [])
    (transmits : h.transmitted op = h.pushed op) :
    Faithful isn (h.step op) ∧
      ∀ seg ∈ h.transmitted op, seg.header.fin = true → (h.step op).sender.stream.eof = true := by
  rw [pushed_of_emits emits] at transmits
  rw [transmits]
  refine ⟨⟨(apply_isn _ _).trans inv.isn, ?_, ?_⟩, fun seg member fin => emits.finished ⟨seg, member, fin⟩⟩
  · simpa [step, silent.1, transmits] using emits.encodes
  · simp only [step, silent.2, List.append_nil]
    exact fun seg member => List.mem_append_left _ (inv.repeated seg member)

theorem Faithful.quiet (inv : Faithful isn h) {op : Call} {more : List UInt8}
    (encodes : Encodes (h.sender.apply op) (h.accepted ++ more) h.sent)
    (accepts : h.acceptedBy op = more) (silent : h.transmitted op = [])
    (again : ∀ seg ∈ h.retransmitted op, seg ∈ h.sent) :
    Faithful isn (h.step op) ∧
      ∀ seg ∈ h.transmitted op, seg.header.fin = true → (h.step op).sender.stream.eof = true := by
  refine ⟨⟨(apply_isn _ _).trans inv.isn, ?_, ?_⟩, by simp [silent]⟩
  · simpa only [step, accepts, silent, List.append_nil] using encodes
  · simp only [step, silent, List.append_nil]
    intro seg member
    rcases List.mem_append.mp member with member | member
    · exact inv.repeated seg member
    · exact again seg member

/-- One operation keeps the histories faithful, and sends a FIN only when the
stream has ended and is fully read. -/
theorem Faithful.step (inv : Faithful isn h) (op : Call) :
    Faithful isn (h.step op) ∧
      ∀ seg ∈ h.transmitted op, seg.header.fin = true → (h.step op).sender.stream.eof = true := by
  have encodes := inv.encodes
  cases op with
  | write data => exact inv.quiet (encodes.write data) rfl rfl (by simp [retransmitted])
  | endInput =>
    rw [← List.append_nil h.accepted] at encodes
    exact inv.quiet encodes.endInput rfl rfl (by simp [retransmitted])
  | fillWindow =>
    obtain ⟨new, emits⟩ := encodes.fillWindow
    exact inv.emit .fillWindow emits ⟨rfl, rfl⟩ rfl
  | ackReceived ackno window =>
    obtain ⟨new, emits⟩ := encodes.ackReceived ackno window
    exact inv.emit (.ackReceived ackno window) emits ⟨rfl, rfl⟩ rfl
  | tick ms =>
    rw [← List.append_nil h.accepted] at encodes
    obtain ⟨encodes, again, out, front⟩ := encodes.tick ms
    refine inv.quiet encodes rfl rfl ?_
    intro seg member
    have repeats : h.pushed (.tick ms) = again := by
      rw [pushed, show h.sender.apply (.tick ms) = h.sender.tick ms from rfl, out, List.drop_left]
    rw [retransmitted, repeats] at member
    exact inv.encodes.outstanding.subset (front.subset member)
  | sendEmptySegment =>
    rw [← List.append_nil h.accepted] at encodes
    exact inv.quiet encodes.sendEmptySegment rfl rfl (by simp [retransmitted])

theorem run_faithful (capacity : Nat) (timeout : UInt16) (isn : WrappingInt32) (ops : List Call) :
    Faithful isn (run capacity timeout isn ops) := by
  induction ops using List.reverseRecOn with
  | nil => exact ⟨rfl, new_encodes capacity timeout isn, by simp [run, start]⟩
  | append_singleton ops op ih =>
    rw [run, List.foldl_append]
    exact (ih.step op).1

/-- Only a sender that was never asked to fill the window has sent nothing. -/
theorem unasked_of_unsent {ops : List Call} {capacity : Nat} {timeout : UInt16}
    (nothing : (run capacity timeout isn ops).sent = []) : .fillWindow ∉ ops := by
  induction ops using List.reverseRecOn with
  | nil => exact List.not_mem_nil
  | append_singleton ops op ih =>
    have inv := run_faithful capacity timeout isn (ops ++ [op])
    have last : run capacity timeout isn (ops ++ [op]) = (run capacity timeout isn ops).step op := by
      simp [run]
    rw [last] at nothing inv
    have before : (run capacity timeout isn ops).sent = [] := (List.append_eq_nil_iff.mp nothing).1
    rw [List.mem_append, List.mem_singleton, not_or]
    refine ⟨ih before, ?_⟩
    rintro rfl
    obtain ⟨data, eq, _⟩ := inv.encodes.opened (fillWindow_synSent (run capacity timeout isn ops).sender)
    rw [nothing] at eq
    cases eq

/-- The first transmissions of every run: nothing before the first call that fills
the window, then one bare SYN and segments that carry the stream in order at the
sequence number of their offset, nonempty and of bounded size, with a FIN at most
on the last and only at the end of the stream. The outstanding queue is a suffix
of them and retransmissions repeat them. -/
theorem run_first_transmissions (capacity : Nat) (timeout : UInt16) (isn : WrappingInt32)
    (ops : List Call) :
    let h := run capacity timeout isn ops
    (h.sent = [] ∧ .fillWindow ∉ ops ∨ ∃ data, h.sent = bareSyn isn :: data ∧
      ∀ before seg after, data = before ++ seg :: after →
        seg.header = { seqno := wrap (1 + (payloads before).length) isn, fin := seg.header.fin } ∧
        seg.payload.length ≤ TCPConfig.maxPayloadSize ∧
        0 < seg.lengthInSequenceSpace ∧ (seg.header.fin = true → after = [])) ∧
    payloads h.sent = h.accepted.take h.sender.stream.bytesRead ∧
    (∀ op, ∀ seg ∈ h.transmitted op, seg.header.fin = true →
      (h.step op).sender.stream.eof = true) ∧
    h.sender.outstandingSegments <:+ h.sent ∧
    h.sender.bytesInFlight = seqLen h.sender.outstandingSegments ∧
    ∀ seg ∈ h.resent, seg ∈ h.sent := by
  intro h
  have inv : Faithful isn h := run_faithful capacity timeout isn ops
  refine ⟨?_, inv.encodes.prefix_read, fun op => (inv.step op).2, inv.encodes.outstanding,
    inv.encodes.flight, inv.repeated⟩
  cases opened : h.sender.synSent with
  | false =>
    have nothing : h.sent = [] := inv.encodes.closed opened
    exact Or.inl ⟨nothing, unasked_of_unsent nothing⟩
  | true =>
    obtain ⟨data, eq, _⟩ := inv.encodes.opened opened
    rw [inv.isn] at eq
    refine Or.inr ⟨data, eq, ?_⟩
    intro before seg after split
    have whole : h.sent = bareSyn h.sender.isn :: (before ++ seg :: after) := by
      rw [inv.isn, eq, split]
    obtain ⟨isData, seqno, positive, last, _⟩ := inv.encodes.data_at whole
    rw [inv.isn] at seqno
    exact ⟨by rw [← seqno]; exact isData.header, isData.small, positive, last⟩

end History
end Sponge.TCPSender
