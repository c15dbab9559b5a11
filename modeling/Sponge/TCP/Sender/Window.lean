import Sponge.TCP.Sender.Acks
import Sponge.Lib.Run

/-! The send window. The free space of the send loop is an unsigned difference,
so it is right exactly while the next sequence number has not passed the right
edge; and a stale acknowledgement replaces the window without moving the base,
so the right edge is right exactly while no such window is larger. -/
namespace Sponge.TCPSender

/-- The first absolute sequence number past the window, a zero window counting
as one. -/
def edge (s : TCPSender) : Nat := s.rcvBase + max 1 s.receiverWindowSize

/-- The payload bytes of `new`, laid out from `start`, lie below `edge`. -/
def Below (start edge : Nat) (new : List TCPSegment) : Prop :=
  ∀ before seg after, new = before ++ seg :: after →
    ∀ i < seg.payload.length, start + seqLen before + i < edge

/-- A call of `fillWindow` sends new payload below the edge only. -/
def WithinWindow (s : TCPSender) : Prop :=
  ∀ new, s.fillWindow.segmentsOut = s.segmentsOut ++ new → Below s.nextSeqno s.edge new

/-- The state in which an operation calls `fillWindow`, if it does. -/
def fillState (s : TCPSender) : Call → Option TCPSender
  | .fillWindow => some s
  | .ackReceived ackno windowSize =>
    if s.Accepts ackno then
      some ((s.setWindow windowSize).acknowledge (unwrap ackno s.isn s.rcvBase))
    else none
  | _ => none

/-- The base never passes what has been sent, and a window has 16 bits. -/
structure Bounded (s : TCPSender) : Prop where
  base : s.rcvBase ≤ s.nextSeqno
  window : s.receiverWindowSize < 2 ^ 16

theorem Below.snoc {start limit : Nat} {new : List TCPSegment} {seg : TCPSegment}
    (below : Below start limit new)
    (inside : ∀ i < seg.payload.length, start + seqLen new + i < limit) :
    Below start limit (new ++ [seg]) := by
  intro before other after split
  rcases List.eq_nil_or_concat after with rfl | ⟨init, last, rfl⟩
  · obtain ⟨rfl, same⟩ := List.append_inj' split rfl
    obtain rfl := List.singleton_inj.mp same
    exact inside
  · rw [List.concat_eq_append, ← List.cons_append, ← List.append_assoc] at split
    obtain ⟨same, _⟩ := List.append_inj' split rfl
    exact below before other init same

theorem below_nil (start limit : Nat) : Below start limit [] := by
  intro before seg after split
  exact absurd split (by simp)

variable {s : TCPSender}

/-- What is appended to the outbound queue is known once it is found. -/
theorem forall_sent_iff {P : List TCPSegment → Prop} {u : TCPSender} {sent : List TCPSegment}
    (out : u.segmentsOut = s.segmentsOut ++ sent) :
    (∀ new, u.segmentsOut = s.segmentsOut ++ new → P new) ↔ P sent := by
  constructor
  · exact fun law => law sent out
  · intro holds new same
    rwa [← List.append_cancel_left (out.symm.trans same)]

theorem Bounded.pushes {u : TCPSender} {new : List TCPSegment} (bounded : Bounded s)
    (pushes : Pushes s u new) : Bounded u := by
  have base := bounded.base
  have window := bounded.window
  have same := pushes.window
  exact ⟨by rw [pushes.rcvBase, pushes.next]; omega, by omega⟩

theorem Bounded.setWindow (bounded : Bounded s) (window : UInt16) : Bounded (s.setWindow window) :=
  ⟨bounded.base, window.toNat_lt⟩

theorem Bounded.acknowledge (bounded : Bounded s) {a : Nat} (sent : a ≤ s.nextSeqno) :
    Bounded (s.acknowledge a) := by
  obtain ⟨_, _, _, eq⟩ := s.acknowledge_eq a
  rw [eq]
  exact ⟨(Nat.mod_le _ _).trans sent, bounded.window⟩

theorem Bounded.apply (bounded : Bounded s) (call : Call) : Bounded (s.apply call) := by
  cases call with
  | write data => exact ⟨bounded.base, bounded.window⟩
  | endInput => exact ⟨bounded.base, bounded.window⟩
  | fillWindow =>
    obtain ⟨_, pushes⟩ := s.fillWindow_pushes
    exact bounded.pushes pushes
  | ackReceived ackno window =>
    change Bounded (s.ackReceived ackno window)
    rcases s.ackReceived_cases ackno window with ⟨_, eq⟩ | ⟨_, eq⟩ | accepts
    · rwa [eq]
    · rw [eq]
      exact bounded.setWindow window
    · rw [ackReceived_of_accepts accepts]
      obtain ⟨_, pushes⟩ := fillWindow_pushes
        ((s.setWindow window).acknowledge (unwrap ackno s.isn s.rcvBase))
      exact ((bounded.setWindow window).acknowledge accepts.1).pushes pushes
  | tick ms =>
    obtain ⟨_, _, _, _, _, eq⟩ := s.tick_eq ms
    change Bounded (s.tick ms)
    rw [eq]
    exact ⟨bounded.base, bounded.window⟩
  | sendEmptySegment => exact ⟨bounded.base, bounded.window⟩

/-- An operation that calls `fillWindow` ends with it. -/
theorem fillState_some {call : Call} {f : TCPSender} (calls : s.fillState call = some f) :
    s.apply call = f.fillWindow ∧ f.nextSeqno = s.nextSeqno ∧ f.synSent = s.synSent := by
  cases call with
  | fillWindow =>
    cases calls
    exact ⟨rfl, rfl, rfl⟩
  | ackReceived ackno window =>
    simp only [TCPSender.fillState] at calls
    split at calls
    · rename_i accepts
      cases calls
      obtain ⟨_, _, _, eq⟩ := (s.setWindow window).acknowledge_eq (unwrap ackno s.isn s.rcvBase)
      exact ⟨ackReceived_of_accepts accepts window, by rw [eq]; rfl, by rw [eq]; rfl⟩
    · cases calls
  | _ => cases calls

/-- The others send nothing new. -/
theorem fillState_none {call : Call} (quiet : s.fillState call = none) :
    (s.apply call).nextSeqno = s.nextSeqno := by
  cases call with
  | fillWindow => cases quiet
  | ackReceived ackno window =>
    change (s.ackReceived ackno window).nextSeqno = s.nextSeqno
    rcases s.ackReceived_cases ackno window with ⟨_, eq⟩ | ⟨_, eq⟩ | accepts
    · rw [eq]
    · rw [eq]
      rfl
    · simp [TCPSender.fillState, accepts] at quiet
  | tick ms =>
    obtain ⟨_, _, _, _, _, eq⟩ := s.tick_eq ms
    change (s.tick ms).nextSeqno = s.nextSeqno
    rw [eq]
  | write data => rfl
  | endInput => rfl
  | sendEmptySegment => rfl

/-- Sequence numbers are only ever added. -/
theorem nextSeqno_le_apply (s : TCPSender) (call : Call) : s.nextSeqno ≤ (s.apply call).nextSeqno := by
  cases calls : s.fillState call with
  | none => exact (fillState_none calls).ge
  | some f =>
    obtain ⟨fills, next, _⟩ := fillState_some calls
    obtain ⟨_, pushes⟩ := f.fillWindow_pushes
    rw [fills, ← next, pushes.next]
    exact Nat.le_add_right _ _

theorem Bounded.fillState (bounded : Bounded s) {call : Call} {f : TCPSender}
    (calls : s.fillState call = some f) : Bounded f := by
  cases call with
  | fillWindow =>
    cases calls
    exact bounded
  | ackReceived ackno window =>
    simp only [TCPSender.fillState] at calls
    split at calls
    · rename_i accepts
      cases calls
      exact (bounded.setWindow window).acknowledge accepts.1
    · cases calls
  | _ => cases calls

/-- The 32-bit right edge is exact while sequence numbers are small. -/
theorem Bounded.winRightEdge (bounded : Bounded s) (small : s.nextSeqno < 2 ^ 31) :
    s.normalizeWindow.winRightEdge = s.edge := by
  have base := bounded.base
  have window := bounded.window
  rw [TCPSender.winRightEdge, normalizeWindow_size, edge]
  exact FixedWidth.add_of_lt (by simp only [normalizeWindow]; omega)

/-- While the next sequence number is at or below the edge, so is all payload. -/
theorem Bounded.fillOpen_below (bounded : Bounded s) (small : s.nextSeqno < 2 ^ 31)
    (within : s.stream.buffer = [] ∨ s.nextSeqno ≤ s.edge) :
    ∃ new, s.fillOpen.segmentsOut = s.segmentsOut ++ new ∧ Below s.nextSeqno s.edge new := by
  have base := bounded.base
  have window := bounded.window
  have limit : s.edge < 2 ^ 32 := by rw [edge]; omega
  suffices loop : ∃ new, s.fillOpen.segmentsOut = s.segmentsOut ++ new ∧
      s.fillOpen.nextSeqno = s.nextSeqno + seqLen new ∧ Below s.nextSeqno s.edge new ∧
      (s.fillOpen.finSent = false → s.fillOpen.stream.buffer = [] ∨ s.fillOpen.nextSeqno ≤ s.edge) by
    obtain ⟨new, out, _, below, _⟩ := loop
    exact ⟨new, out, below⟩
  apply fillOpen_rule (P := fun u => ∃ new, u.segmentsOut = s.segmentsOut ++ new ∧
    u.nextSeqno = s.nextSeqno + seqLen new ∧ Below s.nextSeqno s.edge new ∧
    (u.finSent = false → u.stream.buffer = [] ∨ u.nextSeqno ≤ s.edge))
  · exact fun _ => ⟨[], by simp [normalizeWindow], rfl, below_nil _ _, fun _ => within⟩
  · intro _ _
    refine ⟨[_], rfl, rfl, ?_, fun unfinished => absurd unfinished (by simp [sendFin, segmentHandler])⟩
    exact (below_nil _ _).snoc (by simp)
  · rintro u ⟨new, out, next, below, unfinished⟩ sending
    have room := (unfinished sending.2.1).resolve_left sending.buffered
    rw [bounded.winRightEdge small] at sending ⊢
    have free : u.freeBytes s.edge = s.edge - u.nextSeqno := FixedWidth.sub_of_le room limit
    have size := u.nextPayload_le_free s.edge
    refine ⟨new ++ [u.nextSegment s.edge], ?_, ?_, below.snoc ?_, ?_⟩
    · rw [sendData_segmentsOut, out, List.append_assoc]
    · rw [sendData_nextSeqno, next, seqLen_append, seqLen_cons, seqLen_nil]
      omega
    · intro i inside
      change i < (u.nextPayload s.edge).length at inside
      omega
    · rw [sendData_finSent, sending.2.1, Bool.false_or]
      intro noFin
      rw [sendData_nextSeqno, nextSegment_length, noFin]
      simp only [Bool.false_eq_true, if_false]
      exact Or.inr (by omega)

/-- Past the edge the free space underflows, and the loop sends a segment there. -/
theorem Bounded.fillOpen_past (bounded : Bounded s) (small : s.nextSeqno < 2 ^ 31)
    (past : s.edge < s.nextSeqno) (unfinished : s.finSent = false) (buffered : s.stream.buffer ≠ []) :
    ∃ seg rest, s.fillOpen.segmentsOut = s.segmentsOut ++ seg :: rest ∧ 0 < seg.payload.length := by
  have sending : s.normalizeWindow.Sending s.edge := by
    refine ⟨?_, unfinished, (ByteStream.bufferEmpty_eq_false_iff _).mpr buffered⟩
    change FixedWidth.sub 32 s.edge s.nextSeqno ≠ 0
    rw [FixedWidth.sub, FixedWidth.ofInt]
    omega
  have positive := sending.payload_pos
  obtain ⟨fuel, size⟩ : ∃ fuel, s.stream.bufferSize = fuel + 1 := ⟨s.stream.buffer.length - 1, by
    have : 0 < s.stream.buffer.length := List.length_pos_of_ne_nil buffered
    simp only [ByteStream.bufferSize]
    omega⟩
  have first : s.fillOpen = fillLoop s.edge fuel (s.normalizeWindow.sendData s.edge) := by
    have unended : ¬ (s.normalizeWindow.stream.eof = true ∧ s.edge > s.normalizeWindow.nextSeqno) := by
      simp [normalizeWindow, ByteStream.eof_iff, buffered]
    rw [fillOpen, bounded.winRightEdge small, if_neg unended, ← fillLoop_succ fuel sending, ← size]
    rfl
  rw [first]
  refine ⟨s.normalizeWindow.nextSegment s.edge, ?_⟩
  suffices more : ∃ rest, (fillLoop s.edge fuel (s.normalizeWindow.sendData s.edge)).segmentsOut =
      s.segmentsOut ++ s.normalizeWindow.nextSegment s.edge :: rest by
    obtain ⟨rest, out⟩ := more
    exact ⟨rest, out, positive⟩
  apply fillLoop_rule (P := fun u => ∃ rest, u.segmentsOut =
    s.segmentsOut ++ s.normalizeWindow.nextSegment s.edge :: rest)
  · rintro u ⟨rest, out⟩ _
    exact ⟨rest ++ [u.nextSegment s.edge], by rw [sendData_segmentsOut, out]; simp⟩
  · exact ⟨[], sendData_segmentsOut _ _⟩

/-- A call of `fillWindow` after the handshake stays within the window exactly
when there is nothing to send or the edge has not been passed. -/
theorem Bounded.within_iff (bounded : Bounded s) (small : s.nextSeqno < 2 ^ 31)
    (acked : s.synSent = true ∧ s.synOutstanding = false) :
    s.WithinWindow ↔ s.finSent = true ∨ s.stream.buffer = [] ∨ s.nextSeqno ≤ s.edge := by
  rcases fillWindow_of_acked acked with ⟨finished, eq⟩ | ⟨unfinished, eq⟩
  · refine iff_of_true ?_ (Or.inl finished)
    rw [WithinWindow, eq, forall_sent_iff (List.append_nil _).symm]
    exact below_nil _ _
  constructor
  · intro law
    by_contra broken
    simp only [not_or, not_le, Bool.not_eq_true] at broken
    obtain ⟨seg, rest, out, positive⟩ :=
      bounded.fillOpen_past small broken.2.2 broken.1 broken.2.1
    have := law _ (eq ▸ out) [] seg rest rfl 0 positive
    rw [seqLen_nil] at this
    omega
  · rintro (finished | within)
    · simp [unfinished] at finished
    · obtain ⟨sent, out, below⟩ := bounded.fillOpen_below small within
      rwa [WithinWindow, eq, forall_sent_iff out]

namespace History

theorem run_bounded (capacity : Nat) (timeout : UInt16) (isn : WrappingInt32) (calls : List Call) :
    Bounded (run capacity timeout isn calls).sender := by
  induction calls using List.reverseRecOn with
  | nil => exact ⟨Nat.le_refl _, (by decide : 1 < 2 ^ 16)⟩
  | append_singleton calls call ih =>
    rw [run, List.foldl_append]
    exact ih.apply call

/-- In every run and for every call of `fillWindow` in it after the handshake,
direct or from an acknowledgement: new payload stays below the edge if and only
if the FIN has been sent, nothing is buffered, or the edge has not been passed. -/
theorem run_within_window_iff (capacity : Nat) (timeout : UInt16) (isn : WrappingInt32)
    (calls : List Call) (call : Call) (f : TCPSender)
    (fills : (run capacity timeout isn calls).sender.fillState call = some f)
    (small : f.nextSeqno < 2 ^ 31) (acked : f.synSent = true ∧ f.synOutstanding = false) :
    f.WithinWindow ↔ f.finSent = true ∨ f.stream.buffer = [] ∨ f.nextSeqno ≤ f.edge :=
  ((run_bounded capacity timeout isn calls).fillState fills).within_iff small acked

/-- Ten bytes are sent into a window of ten, which then shrinks to five. -/
def shrunk : List Call :=
  [.fillWindow, .ackReceived ⟨1⟩ 10, .write (List.replicate 10 0), .fillWindow, .ackReceived ⟨1⟩ 5,
    .write [0]]

theorem run_within_window_iff_shrunk :
    let f := (run 100 1000 ⟨0⟩ shrunk).sender
    f.fillState .fillWindow = some f ∧ f.nextSeqno < 2 ^ 31 ∧
      (f.synSent = true ∧ f.synOutstanding = false) ∧
      (f.WithinWindow ↔ f.finSent = true ∨ f.stream.buffer = [] ∨ f.nextSeqno ≤ f.edge) := by
  intro f
  exact ⟨rfl, by decide, by decide,
    run_within_window_iff 100 1000 ⟨0⟩ shrunk .fillWindow f rfl (by decide) (by decide)⟩

/-- The eleventh byte goes out past the edge of the smaller window. -/
theorem shrunk_window_is_overrun :
    ¬ ∀ (capacity : Nat) (timeout : UInt16) (isn : WrappingInt32) (calls : List Call) (call : Call)
      (f : TCPSender), (run capacity timeout isn calls).sender.fillState call = some f →
      f.nextSeqno < 2 ^ 31 → (f.synSent = true ∧ f.synOutstanding = false) → f.WithinWindow := by
  intro law
  have within := law 100 1000 ⟨0⟩ shrunk .fillWindow _ rfl (by decide) (by decide)
  have sent := within ((run 100 1000 ⟨0⟩ shrunk).sender.fillWindow.segmentsOut.drop 2) (by decide)
    [] { header := { seqno := ⟨11⟩ }, payload := [0] } [] (by decide) 0 (by decide)
  revert sent
  decide

end History

end Sponge.TCPSender
