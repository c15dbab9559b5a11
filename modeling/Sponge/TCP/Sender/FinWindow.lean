import Sponge.TCP.Sender.Filled

/-! The FIN flag and the send window. The send loop compares the payload of one
segment with the whole window, whatever else is in it. So the FIN leaves the window
when the last bytes reach the edge behind others, or when the edge lies behind. -/
namespace Sponge.TCPSender

/-- The sequence numbers of the FIN flags of segments laid out from `start`. A FIN
is the last number of its segment. -/
def finSeqnos : Nat → List TCPSegment → List Nat
  | _, [] => []
  | start, seg :: rest =>
    (if seg.header.fin then [start + seg.lengthInSequenceSpace - 1] else []) ++
      finSeqnos (start + seg.lengthInSequenceSpace) rest

/-- A call of `fillWindow` sets FIN only where its own number is below the edge. -/
def FinInWindow (s : TCPSender) : Prop :=
  ∀ new, s.fillWindow.segmentsOut = s.segmentsOut ++ new → ∀ q ∈ finSeqnos s.nextSeqno new, q < s.edge

/-- The payload of the last segment when `n` bytes are sent in full segments. -/
def lastPayload (n : Nat) : Nat := (n - 1) % TCPConfig.maxPayloadSize + 1

/-- The stream has ended, and its bytes reach the edge exactly while other numbers are in
the window before the last segment; or the edge lies behind, and the free space, which has
underflowed, takes all bytes, the last of them in a segment shorter than the window. -/
def FinOverruns (s : TCPSender) : Prop :=
  s.finSent = false ∧ s.stream.inputEnd = true ∧ s.stream.buffer ≠ [] ∧
  ((s.nextSeqno + s.stream.buffer.length = s.edge ∧
      (s.rcvBase < s.nextSeqno ∨ TCPConfig.maxPayloadSize < s.stream.buffer.length)) ∨
    (s.edge < s.nextSeqno ∧ s.nextSeqno + s.stream.buffer.length ≤ s.edge + 2 ^ 32 ∧
      lastPayload s.stream.buffer.length < max 1 s.receiverWindowSize))

instance (s : TCPSender) : Decidable s.FinOverruns :=
  inferInstanceAs (Decidable (_ ∧ _ ∧ _ ∧ ((_ ∧ (_ ∨ _)) ∨ (_ ∧ _ ∧ _))))

/-- The send loop reaches the end of the stream, and sets FIN there. -/
def LoopFins (s : TCPSender) (edge : Nat) : Prop :=
  s.stream.inputEnd = true ∧ 0 < s.stream.buffer.length ∧ s.stream.buffer.length ≤ s.freeBytes edge ∧
    lastPayload s.stream.buffer.length < s.receiverWindowSize

instance (s : TCPSender) (edge : Nat) : Decidable (s.LoopFins edge) :=
  inferInstanceAs (Decidable (_ ∧ _ ∧ _ ∧ _))

variable {s : TCPSender} {edge : Nat}

theorem lastPayload_le (n : Nat) : lastPayload n ≤ TCPConfig.maxPayloadSize :=
  Nat.mod_lt _ (by decide)

theorem lastPayload_of_le {n : Nat} (positive : 0 < n) (small : n ≤ TCPConfig.maxPayloadSize) :
    lastPayload n = n := by
  rw [lastPayload, Nat.mod_eq_of_lt (by omega)]
  omega

theorem lastPayload_sub {n : Nat} (large : TCPConfig.maxPayloadSize < n) :
    lastPayload (n - TCPConfig.maxPayloadSize) = lastPayload n := by
  rw [lastPayload, lastPayload, Nat.sub_right_comm, ← Nat.mod_eq_sub_mod (by omega)]

theorem nextFin_iff (s : TCPSender) (edge : Nat) : s.nextFin edge = true ↔
    s.stream.inputEnd = true ∧ s.stream.buffer.length ≤ min (s.freeBytes edge) TCPConfig.maxPayloadSize ∧
      s.stream.buffer.length < s.receiverWindowSize := by
  rw [nextFin, Bool.and_eq_true, ByteStream.eof_iff, ByteStream.read_buffer, List.drop_eq_nil_iff,
    decide_eq_true_eq, nextPayload, List.length_take, ByteStream.read_inputEnd]
  constructor
  · rintro ⟨⟨all, ended⟩, short⟩
    exact ⟨ended, all, by omega⟩
  · rintro ⟨ended, all, short⟩
    exact ⟨⟨all, ended⟩, by omega⟩

/-- The FIN is set by the iteration that empties the stream. -/
theorem loopFins_of_nextFin (sending : s.Sending edge) (fin : s.nextFin edge = true) : s.LoopFins edge := by
  obtain ⟨ended, all, short⟩ := (nextFin_iff s edge).mp fin
  have positive : 0 < s.stream.buffer.length := by
    have := sending.payload_pos
    rw [nextPayload, List.length_take] at this
    omega
  refine ⟨ended, positive, by omega, ?_⟩
  rwa [lastPayload_of_le positive (by omega)]

theorem sendData_free (noFin : s.nextFin edge = false) :
    (s.sendData edge).freeBytes edge = s.freeBytes edge - (s.nextPayload edge).length := by
  rw [freeBytes, sendData_nextSeqno, nextSegment_length, noFin]
  exact FixedWidth.sub_add_of_le (s.nextPayload_le_free edge)

/-- An iteration without FIN leaves it to the rest of the loop. -/
theorem sendData_loopFins (sending : s.Sending edge) (noFin : s.nextFin edge = false) :
    (s.sendData edge).LoopFins edge ↔ s.LoopFins edge := by
  have positive := sending.payload_pos
  have taken : (s.nextPayload edge).length =
      min (min (s.freeBytes edge) TCPConfig.maxPayloadSize) s.stream.buffer.length := List.length_take
  have same : (s.sendData edge).stream.inputEnd = s.stream.inputEnd ∧
      (s.sendData edge).receiverWindowSize = s.receiverWindowSize := by
    rw [sendData_eq]
    exact ⟨rfl, rfl⟩
  have unset := mt (nextFin_iff s edge).mpr (by simp [noFin])
  rw [LoopFins, LoopFins, sendData_left, sendData_free noFin, same.1, same.2]
  refine and_congr_right fun ended => ?_
  rw [taken] at positive ⊢
  rcases Nat.lt_or_ge TCPConfig.maxPayloadSize s.stream.buffer.length with large | small
  · rcases Nat.lt_or_ge (s.freeBytes edge) TCPConfig.maxPayloadSize with full | room
    · omega
    · rw [Nat.min_eq_right room, Nat.min_eq_left large.le, lastPayload_sub large]
      omega
  · rcases Nat.lt_or_ge (s.freeBytes edge) s.stream.buffer.length with full | room
    · omega
    · refine iff_of_false (by omega) fun last => unset ⟨ended, by omega, ?_⟩
      rw [← lastPayload_of_le last.1 small]
      exact last.2.2

/-- The segments of a call, laid out from its next sequence number: the bytes that fit in
the free space, and at most one FIN, on the last byte. -/
structure Fills (s u : TCPSender) (free : Nat) (fin : Prop) [Decidable fin] (new : List TCPSegment) : Prop where
  out : u.segmentsOut = s.segmentsOut ++ new
  fins : finSeqnos s.nextSeqno new = if fin then [s.nextSeqno + s.stream.buffer.length] else []
  next : u.nextSeqno =
    s.nextSeqno + min s.stream.buffer.length free + (finSeqnos s.nextSeqno new).length

/-- The iteration with FIN empties the stream. -/
theorem fills_last (sending : s.Sending edge) (fin : s.nextFin edge = true) :
    Fills s (s.sendData edge) (s.freeBytes edge) (s.LoopFins edge) [s.nextSegment edge] := by
  obtain ⟨ended, all, short⟩ := (nextFin_iff s edge).mp fin
  have whole : (s.nextPayload edge).length = s.stream.buffer.length := by
    rw [nextPayload, List.length_take]
    omega
  have length := nextSegment_length s edge
  have set : (s.nextSegment edge).header.fin = true := fin
  rw [fin, whole, if_pos rfl] at length
  have fins : finSeqnos s.nextSeqno [s.nextSegment edge] = [s.nextSeqno + s.stream.buffer.length] := by
    simp [finSeqnos, set, length, ← Nat.add_assoc]
  refine ⟨sendData_segmentsOut s edge, ?_, ?_⟩
  · rw [fins, if_pos (loopFins_of_nextFin sending fin)]
  · rw [fins, sendData_nextSeqno, length, List.length_singleton]
    omega

theorem Fills.cons {u : TCPSender} {new : List TCPSegment} (sending : s.Sending edge)
    (noFin : s.nextFin edge = false)
    (rest : Fills (s.sendData edge) u ((s.sendData edge).freeBytes edge) ((s.sendData edge).LoopFins edge) new) :
    Fills s u (s.freeBytes edge) (s.LoopFins edge) (s.nextSegment edge :: new) := by
  have left := sendData_left s edge
  have inside := s.nextPayload_le_free edge
  have taken : (s.nextPayload edge).length ≤ s.stream.buffer.length := List.length_take_le' _ _
  have unset : (s.nextSegment edge).header.fin = false := noFin
  have moved : (s.sendData edge).nextSeqno = s.nextSeqno + (s.nextPayload edge).length := by
    rw [sendData_nextSeqno, nextSegment_length, noFin]
    rfl
  have fins : finSeqnos s.nextSeqno (s.nextSegment edge :: new) = finSeqnos (s.sendData edge).nextSeqno new := by
    simp [finSeqnos, unset, sendData_nextSeqno]
  refine ⟨?_, ?_, ?_⟩
  · rw [rest.out, sendData_segmentsOut, List.append_assoc]
    rfl
  · have same : (s.sendData edge).nextSeqno + (s.sendData edge).stream.buffer.length =
        s.nextSeqno + s.stream.buffer.length := by omega
    rw [fins, rest.fins, same]
    exact if_congr (sendData_loopFins sending noFin) rfl rfl
  · have next := rest.next
    rw [sendData_free noFin] at next
    rw [fins]
    omega

theorem fills_nil (unfinished : s.finSent = false) (idle : ¬ s.Sending edge) :
    Fills s s (s.freeBytes edge) (s.LoopFins edge) [] := by
  have stopped : s.freeBytes edge = 0 ∨ s.stream.buffer.length = 0 := by
    by_contra going
    rw [not_or, List.length_eq_zero_iff] at going
    exact idle ⟨going.1, unfinished, (ByteStream.bufferEmpty_eq_false_iff _).mpr going.2⟩
  refine ⟨by simp, ?_, ?_⟩
  · rw [if_neg (by unfold LoopFins; omega)]
    rfl
  · simp only [finSeqnos, List.length_nil]
    omega

theorem fillLoop_fills (fuel : Nat) (enough : s.stream.buffer.length ≤ fuel) (unfinished : s.finSent = false) :
    ∃ new, Fills s (fillLoop edge fuel s) (s.freeBytes edge) (s.LoopFins edge) new := by
  induction fuel generalizing s with
  | zero =>
    refine ⟨[], fills_nil unfinished fun sending => ?_⟩
    have positive := sending.payload_pos
    have taken : (s.nextPayload edge).length ≤ s.stream.buffer.length := List.length_take_le' _ _
    omega
  | succ fuel ih =>
    by_cases sending : s.Sending edge
    · rw [fillLoop_succ fuel sending]
      cases fin : s.nextFin edge with
      | true =>
        have done : ¬ (s.sendData edge).Sending edge := by
          rintro ⟨_, unset, _⟩
          simp [sendData_finSent, fin] at unset
        rw [fillLoop_done fuel done]
        exact ⟨_, fills_last sending fin⟩
      | false =>
        have positive := sending.payload_pos
        have left := sendData_left s edge
        have again : (s.sendData edge).finSent = false := by rw [sendData_finSent, unfinished, fin]; rfl
        obtain ⟨new, rest⟩ := ih (by omega) again
        exact ⟨_, rest.cons sending fin⟩
    · rw [fillLoop_done _ sending]
      exact ⟨[], fills_nil unfinished sending⟩

/-- The free space of a call, by the side of the edge on which it starts. -/
theorem Bounded.freeBytes (bounded : Bounded s) (small : s.nextSeqno < 2 ^ 31) : s.freeBytes s.edge =
    if s.nextSeqno ≤ s.edge then s.edge - s.nextSeqno else s.edge + 2 ^ 32 - s.nextSeqno := by
  have base := bounded.base
  have window := bounded.window
  have limit : s.edge < 2 ^ 32 := by rw [edge]; omega
  rw [TCPSender.freeBytes, FixedWidth.sub, FixedWidth.ofInt]
  split <;> omega

/-- The loop oversteps the edge where it sets FIN and the bytes reach the edge. -/
theorem Bounded.overruns_iff (bounded : Bounded s) (small : s.nextSeqno < 2 ^ 31) (unfinished : s.finSent = false) :
    s.FinOverruns ↔
      s.normalizeWindow.LoopFins s.edge ∧ s.edge ≤ s.nextSeqno + s.stream.buffer.length := by
  have base := bounded.base
  have edgeDef : s.edge = s.rcvBase + max 1 s.receiverWindowSize := rfl
  have nonempty : s.stream.buffer ≠ [] ↔ 0 < s.stream.buffer.length := List.length_pos_iff.symm
  have free : s.normalizeWindow.freeBytes s.edge = s.freeBytes s.edge := rfl
  have stream : s.normalizeWindow.stream = s.stream := rfl
  rw [FinOverruns, LoopFins, nonempty, normalizeWindow_size, free, stream, bounded.freeBytes small]
  have short := lastPayload_le s.stream.buffer.length
  have whole : 0 < s.stream.buffer.length → s.stream.buffer.length ≤ TCPConfig.maxPayloadSize →
      lastPayload s.stream.buffer.length = s.stream.buffer.length := lastPayload_of_le
  split
  · constructor
    · rintro ⟨_, ended, some, ⟨reach, behind⟩ | ⟨past, _⟩⟩
      · exact ⟨⟨ended, some, by omega, by omega⟩, by omega⟩
      · omega
    · rintro ⟨⟨ended, some, fits, last⟩, reach⟩
      exact ⟨unfinished, ended, some, .inl ⟨by omega, by omega⟩⟩
  · constructor
    · rintro ⟨_, ended, some, ⟨reach, _⟩ | ⟨past, fits, last⟩⟩
      · omega
      · exact ⟨⟨ended, some, by omega, last⟩, by omega⟩
    · rintro ⟨⟨ended, some, fits, last⟩, _⟩
      exact ⟨unfinished, ended, some, .inr ⟨by omega, by omega, last⟩⟩

/-- The FIN is past the edge if the bytes reach it. -/
theorem Fills.below_iff {u : TCPSender} {free : Nat} {fin : Prop} [Decidable fin] {new : List TCPSegment}
    (fills : Fills s u free fin new) : (∀ q ∈ finSeqnos s.nextSeqno new, q < edge) ↔
      ¬ (fin ∧ edge ≤ s.nextSeqno + s.stream.buffer.length) := by
  rw [fills.fins]
  split
  · rename_i set
    rw [List.forall_mem_singleton, and_iff_right set, not_le]
  · rename_i unset
    exact iff_of_true (List.forall_mem_nil _) fun both => unset both.1

/-- With the free space up to the edge, only the FIN can take the next number past it. -/
theorem Fills.next_le_iff {u : TCPSender} {fin : Prop} [Decidable fin] {new : List TCPSegment}
    (fills : Fills s u (edge - s.nextSeqno) fin new) (room : s.nextSeqno ≤ edge)
    (inside : fin → s.stream.buffer.length ≤ edge - s.nextSeqno) :
    u.nextSeqno ≤ edge ↔ ¬ (fin ∧ edge ≤ s.nextSeqno + s.stream.buffer.length) := by
  rw [fills.next, fills.fins]
  split
  · rename_i set
    have fits := inside set
    rw [List.length_singleton, and_iff_right set]
    omega
  · rename_i unset
    refine iff_of_true ?_ fun both => unset both.1
    rw [List.length_nil]
    omega

/-- What an open call sends, as far as FIN and the edge go. -/
theorem Bounded.fillOpen_fins (bounded : Bounded s) (small : s.nextSeqno < 2 ^ 31) (unfinished : s.finSent = false) :
    ∃ new, s.fillOpen.segmentsOut = s.segmentsOut ++ new ∧
      ((∀ q ∈ finSeqnos s.nextSeqno new, q < s.edge) ↔ ¬ s.FinOverruns) ∧
      (s.nextSeqno ≤ s.edge → (s.fillOpen.nextSeqno ≤ s.edge ↔ ¬ s.FinOverruns)) := by
  have exact := bounded.winRightEdge small
  by_cases ending : s.stream.eof = true ∧ s.normalizeWindow.winRightEdge > s.nextSeqno
  · have room := ending.2
    rw [exact] at room
    have empty := ((ByteStream.eof_iff _).mp ending.1).1
    have inside : ¬ s.FinOverruns := fun overruns => overruns.2.2.1 empty
    have sent : s.fillOpen = s.normalizeWindow.sendFin := by
      rw [fillOpen_of_ending ending]
      exact fillLoop_done _ fun sending => absurd sending.2.1 (by simp [sendFin, segmentHandler])
    rw [sent]
    refine ⟨_, rfl, iff_of_true ?_ inside, fun _ => iff_of_true ?_ inside⟩
    · simpa [finSeqnos, TCPSegment.withSeqno, TCPSegment.lengthInSequenceSpace] using room
    · exact room
  · have overruns := bounded.overruns_iff small unfinished
    have free : s.normalizeWindow.freeBytes s.edge = s.freeBytes s.edge := rfl
    have loop : ∃ new, Fills s.normalizeWindow (fillLoop s.edge s.stream.bufferSize s.normalizeWindow)
        (s.normalizeWindow.freeBytes s.edge) (s.normalizeWindow.LoopFins s.edge) new :=
      fillLoop_fills s.stream.bufferSize le_rfl unfinished
    obtain ⟨new, fills⟩ := loop
    rw [fillOpen_of_more ending, exact, overruns]
    refine ⟨new, fills.out, fills.below_iff, fun room => ?_⟩
    have upTo : s.freeBytes s.edge = s.edge - s.nextSeqno := by rw [bounded.freeBytes small, if_pos room]
    rw [free, upTo] at fills
    exact fills.next_le_iff room fun set => upTo ▸ set.2.2.1

/-- A call after the handshake sets FIN inside the window exactly if it does not
overrun it. -/
theorem Bounded.finInWindow_iff (bounded : Bounded s) (small : s.nextSeqno < 2 ^ 31) (acked : s.SynAcked) :
    s.FinInWindow ↔ ¬ s.FinOverruns := by
  rcases fillWindow_of_acked acked with ⟨finished, eq⟩ | ⟨unfinished, eq⟩
  · refine iff_of_true ?_ fun overruns => absurd overruns.1 (by simp [finished])
    rw [FinInWindow, eq, forall_sent_iff (List.append_nil _).symm]
    exact List.forall_mem_nil _
  · obtain ⟨new, out, inside, _⟩ := bounded.fillOpen_fins small unfinished
    rw [FinInWindow, eq, forall_sent_iff out]
    exact inside

/-- A call that starts at or below the edge ends there exactly if it does not overrun it. -/
theorem Bounded.fillWindow_next_iff (bounded : Bounded s) (unopened : s.synSent = false → s.nextSeqno = 0)
    (small : s.nextSeqno < 2 ^ 31) (room : s.nextSeqno ≤ s.edge) :
    s.fillWindow.nextSeqno ≤ s.edge ↔ (s.SynAcked → ¬ s.FinOverruns) := by
  rcases s.fillWindow_cases with ⟨unsent, eq⟩ | ⟨opened, closed, eq⟩ | ⟨filling, eq⟩
  · refine iff_of_true ?_ fun acked => by simp [acked.1] at unsent
    have first : s.fillWindow.nextSeqno = s.nextSeqno + 1 := by rw [eq]; rfl
    have wide : 1 ≤ s.edge := by rw [edge]; omega
    rw [first, unopened unsent]
    exact wide
  · refine iff_of_true (by rwa [eq]) fun acked overruns => ?_
    rcases closed with waiting | finished
    · simp [acked.2] at waiting
    · exact absurd overruns.1 (by simp [finished])
  · obtain ⟨_, _, _, next⟩ := bounded.fillOpen_fins small filling.2.2
    have acked : s.SynAcked := ⟨filling.1, filling.2.1⟩
    rw [eq, next room]
    exact ⟨fun inside _ => inside, fun inside => inside acked⟩

theorem fillWindow_edge (s : TCPSender) : s.fillWindow.edge = s.edge := by
  obtain ⟨_, pushes⟩ := s.fillWindow_pushes
  rw [edge, pushes.rcvBase, pushes.window, edge]

/-- The call is no acknowledgement that lowers the edge. -/
def KeepsEdge (s : TCPSender) : Call → Prop
  | .ackReceived ackno windowSize => s.edge ≤ (s.ackReceived ackno windowSize).edge
  | _ => True

instance (s : TCPSender) : (call : Call) → Decidable (s.KeepsEdge call)
  | .ackReceived _ _ => inferInstanceAs (Decidable (_ ≤ _))
  | .write _ | .endInput | .fillWindow | .tick _ | .sendEmptySegment => isTrue trivial

/-- A call that fills the window after the handshake does not overrun it. -/
def NoOverrun (s : TCPSender) (call : Call) : Prop :=
  ∀ f, s.fillState call = some f → f.SynAcked → ¬ f.FinOverruns

theorem KeepsEdge.edge_le {call : Call} (kept : s.KeepsEdge call) : s.edge ≤ (s.apply call).edge := by
  cases call with
  | ackReceived ackno window => exact kept
  | fillWindow => exact s.fillWindow_edge.ge
  | tick ms =>
    obtain ⟨_, _, _, _, _, eq⟩ := s.tick_eq ms
    exact (congrArg edge eq).ge
  | write data => exact le_rfl
  | endInput => exact le_rfl
  | sendEmptySegment => exact le_rfl

/-- A call that does not lower the edge leaves the next sequence number at or below it
exactly if it does not overrun the window. -/
theorem Bounded.apply_next_iff (bounded : Bounded s) (unopened : s.synSent = false → s.nextSeqno = 0)
    (small : s.nextSeqno < 2 ^ 31) (room : s.nextSeqno ≤ s.edge) {call : Call} (kept : s.KeepsEdge call) :
    (s.apply call).nextSeqno ≤ (s.apply call).edge ↔ s.NoOverrun call := by
  have above := kept.edge_le
  cases calls : s.fillState call with
  | none =>
    refine iff_of_true ?_ fun f some => by simp [calls] at some
    rw [fillState_none calls]
    exact room.trans above
  | some f =>
    obtain ⟨fills, next, opened⟩ := fillState_some calls
    rw [fills, fillWindow_edge] at above ⊢
    rw [← next] at unopened small room
    rw [← opened] at unopened
    rw [(bounded.fillState calls).fillWindow_next_iff unopened small (by omega)]
    constructor
    · intro inside other same
      rwa [← Option.some.inj (calls.symm.trans same)]
    · exact fun inside => inside f calls

namespace History

theorem run_concat (capacity : Nat) (timeout : UInt16) (isn : WrappingInt32) (calls : List Call) (call : Call) :
    run capacity timeout isn (calls ++ [call]) = (run capacity timeout isn calls).step call := by
  rw [run, List.foldl_append]
  rfl

/-- In a run without a lowered edge the next sequence number never passes it exactly if
no call overruns the window. -/
theorem run_next_iff (capacity : Nat) (timeout : UInt16) (isn : WrappingInt32) {calls : List Call}
    (small : (run capacity timeout isn calls).sender.nextSeqno < 2 ^ 31)
    (kept : Run.Permits step (fun h => h.sender.KeepsEdge) (start capacity timeout isn) calls) :
    (∀ before, before <+: calls →
      (run capacity timeout isn before).sender.nextSeqno ≤ (run capacity timeout isn before).sender.edge) ↔
    Run.Permits step (fun h => h.sender.NoOverrun) (start capacity timeout isn) calls := by
  induction calls using List.reverseRecOn with
  | nil =>
    refine iff_of_true ?_ trivial
    intro before isPrefix
    rw [List.prefix_nil.mp isPrefix]
    exact Nat.zero_le _
  | append_singleton calls call ih =>
    have faithful := run_faithful capacity timeout isn calls
    rw [run_concat] at small
    have monotone := nextSeqno_le_apply (run capacity timeout isn calls).sender call
    obtain ⟨keptBefore, keptLast⟩ := Run.permits_concat.mp kept
    have early := ih (lt_of_le_of_lt monotone small) keptBefore
    have latest : (run capacity timeout isn calls).sender.nextSeqno ≤ (run capacity timeout isn calls).sender.edge →
        ((run capacity timeout isn (calls ++ [call])).sender.nextSeqno ≤
            (run capacity timeout isn (calls ++ [call])).sender.edge ↔
          (run capacity timeout isn calls).sender.NoOverrun call) := by
      intro room
      rw [run_concat]
      refine (run_bounded capacity timeout isn calls).apply_next_iff ?_ (lt_of_le_of_lt monotone small) room keptLast
      intro unsent
      rw [faithful.encodes.next, faithful.encodes.closed unsent]
      rfl
    rw [Run.permits_concat, ← early]
    simp only [List.prefix_concat_iff, or_imp, forall_and, forall_eq]
    rw [and_comm]
    exact and_congr_right fun inside => latest (inside calls List.prefix_rfl)

/-- In every run, and for every call of `fillWindow` that its next step makes after the
handshake: FIN is set inside the window if and only if the call does not overrun it. In a
run without a lowered edge, the next sequence number never passes the edge if and only if
no call overruns the window. -/
theorem run_fin_window_iff (capacity : Nat) (timeout : UInt16) (isn : WrappingInt32) (calls : List Call)
    (small : (run capacity timeout isn calls).sender.nextSeqno < 2 ^ 31) :
    (∀ call f, (run capacity timeout isn calls).sender.fillState call = some f → f.SynAcked →
      (f.FinInWindow ↔ ¬ f.FinOverruns)) ∧
    (Run.Permits step (fun h => h.sender.KeepsEdge) (start capacity timeout isn) calls →
      ((∀ before, before <+: calls →
        (run capacity timeout isn before).sender.nextSeqno ≤ (run capacity timeout isn before).sender.edge) ↔
      Run.Permits step (fun h => h.sender.NoOverrun) (start capacity timeout isn) calls)) := by
  refine ⟨fun call f fills acked => ?_, run_next_iff capacity timeout isn small⟩
  obtain ⟨_, next, _⟩ := fillState_some fills
  exact ((run_bounded capacity timeout isn calls).fillState fills).finInWindow_iff (by rwa [next]) acked

/-- Two bytes are in flight in a window of three when the last byte comes. -/
def crowded : List Call :=
  [.fillWindow, .ackReceived ⟨1⟩ 3, .write [1, 2], .fillWindow, .write [3], .endInput]

theorem run_fin_window_iff_crowded :
    let f := (run 100 1000 ⟨0⟩ crowded).sender
    (f.FinInWindow ↔ ¬ f.FinOverruns) ∧
      ((∀ before, before <+: crowded →
        (run 100 1000 ⟨0⟩ before).sender.nextSeqno ≤ (run 100 1000 ⟨0⟩ before).sender.edge) ↔
      Run.Permits step (fun h => h.sender.NoOverrun) (start 100 1000 ⟨0⟩) crowded) := by
  intro f
  obtain ⟨calls, runs⟩ := run_fin_window_iff 100 1000 ⟨0⟩ crowded (by decide)
  exact ⟨calls .fillWindow f rfl (by decide), runs (by decide)⟩

/-- The third byte and the FIN go out, and the next sequence number passes the edge. -/
theorem fin_passes_the_edge :
    (¬ ∀ (capacity : Nat) (timeout : UInt16) (isn : WrappingInt32) (calls : List Call) (call : Call)
      (f : TCPSender), (run capacity timeout isn calls).sender.fillState call = some f →
      (run capacity timeout isn calls).sender.nextSeqno < 2 ^ 31 → f.SynAcked → f.FinInWindow) ∧
    ¬ ∀ (capacity : Nat) (timeout : UInt16) (isn : WrappingInt32) (calls : List Call),
      Run.Permits step (fun h => h.sender.KeepsEdge) (start capacity timeout isn) calls →
      (run capacity timeout isn calls).sender.nextSeqno < 2 ^ 31 →
      (run capacity timeout isn calls).sender.nextSeqno ≤ (run capacity timeout isn calls).sender.edge := by
  constructor
  · intro law
    have inside := law 100 1000 ⟨0⟩ crowded .fillWindow _ rfl (by decide) (by decide)
    have sent := inside ((run 100 1000 ⟨0⟩ crowded).sender.fillWindow.segmentsOut.drop 2) (by decide) 4 (by decide)
    revert sent
    decide
  · intro law
    have inside := law 100 1000 ⟨0⟩ (crowded ++ [.fillWindow]) (by decide) (by decide)
    revert inside
    decide

end History
end Sponge.TCPSender
