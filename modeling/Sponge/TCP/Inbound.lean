import Sponge.TCP.Outbound
import Sponge.TCP.Receiver
import Sponge.StreamReassembler.Push

/-! What a receiver makes of segments that carry a peer's bytes. Sequence numbers
below 2^31 are unwrapped exactly, so every payload is pushed at its own offset
and the inbound stream is the peer's stream up to the assembled index. -/
namespace Sponge.TCPReceiver
open StreamReassembler

/-- The receiver `r` of an application that has read the bytes `taken`, against
the ISN and the accepted bytes of the peer. -/
structure Inbound (isn : WrappingInt32) (accepted taken : List UInt8) (r : TCPReceiver) : Prop where
  isn : r.syn = true → r.isn = isn
  valid : r.reassembler.Valid
  holds : Holds accepted r.reassembler
  inside : ∀ i ∈ r.reassembler.held, i < accepted.length
  taken : taken = accepted.take r.reassembler.output.readBytes
  capacity : r.reassembler.capacity < 2 ^ 32

variable {r : TCPReceiver} {isn : WrappingInt32} {accepted taken : List UInt8} {seg : TCPSegment}

theorem Inbound.cur_le (inv : Inbound isn accepted taken r) : r.reassembler.curIdx ≤ accepted.length := by
  by_contra past
  have := inv.inside (r.reassembler.curIdx - 1)
    (Finset.mem_union_left _ (Finset.mem_range.mpr (by omega)))
  omega

/-- All bytes ever written into the inbound stream. -/
theorem Inbound.bytes (inv : Inbound isn accepted taken r) :
    taken ++ r.streamOut.buffer = accepted.take r.reassembler.curIdx := by
  have counted := r.reassembler.output.counted
  have written := inv.valid.written
  change taken ++ r.reassembler.output.buffer = accepted.take r.reassembler.curIdx
  rw [inv.taken, inv.holds.output.take_append, written, counted]

theorem new_inbound (isn : WrappingInt32) (capacity : Nat) (narrow : capacity < 2 ^ 32) :
    Inbound isn [] [] (new capacity) :=
  ⟨by simp [new], new_valid capacity, new_holds [] capacity, by
    simp [new, StreamReassembler.new, held], by simp, narrow⟩

theorem Inbound.grow (inv : Inbound isn accepted taken r) (more : List UInt8) :
    Inbound isn (accepted ++ more) taken r := by
  have cur := inv.cur_le
  have counted := r.reassembler.output.counted
  have written := inv.valid.written
  refine ⟨inv.isn, inv.valid, ⟨inv.holds.output.extend more, fun n member =>
    (inv.holds.nodes n member).extend more⟩, ?_, ?_, inv.capacity⟩
  · intro i member
    have := inv.inside i member
    rw [List.length_append]
    omega
  · rw [List.take_append_of_le_length (by omega)]
    exact inv.taken

theorem Inbound.setError (inv : Inbound isn accepted taken r) : Inbound isn accepted taken r.setError := by
  have same : SameData r.reassembler r.setError.reassembler := ⟨rfl, rfl, rfl, rfl, rfl, rfl, rfl, rfl⟩
  exact ⟨inv.isn, same.valid inv.valid, same.holds inv.holds, inv.inside, inv.taken, inv.capacity⟩

theorem Inbound.read (inv : Inbound isn accepted taken r) (len : Nat) :
    Inbound isn accepted (taken ++ (r.read len).1) (r.read len).2 := by
  refine ⟨inv.isn, inv.valid.readOutput len, inv.holds.readOutput len, inv.inside, ?_, inv.capacity⟩
  have slice := inv.holds.output.take len
  change taken ++ (r.reassembler.output.read len).1 =
    accepted.take (r.reassembler.output.read len).2.readBytes
  rw [ByteStream.read_fst, ByteStream.read_readBytes, inv.taken, slice.take_append, List.length_take]

theorem Inbound.room (inv : Inbound isn accepted taken r) (short : accepted.length < 2 ^ 31 - 2) :
    r.reassembler.limit < 2 ^ 64 := by
  have cur := inv.cur_le
  have capacity := inv.capacity
  have counted := r.reassembler.output.counted
  have written := inv.valid.written
  rw [limit]
  omega

/-- A run of the peer's bytes, pushed at its own offset. -/
theorem Inbound.pushed (inv : Inbound isn accepted taken r) (short : accepted.length < 2 ^ 31 - 2)
    {data : List UInt8} {offset : Nat} (bound : offset + data.length ≤ accepted.length + 1) (eof : Bool) :
    Pushed r.reassembler data offset (r.reassembler.pushSubstring data offset eof) :=
  pushSubstring_spec inv.valid (inv.room short) (by omega) eof

theorem Inbound.assemble (inv : Inbound isn accepted taken r) (short : accepted.length < 2 ^ 31 - 2)
    (offset : Nat) (placed : r.streamIndex seg = offset) (slice : SliceAt accepted offset seg.payload)
    (bound : offset + seg.payload.length ≤ accepted.length + 1) :
    Inbound isn accepted taken (r.assemble seg) := by
  have pushed := inv.pushed short bound seg.header.fin
  simp only [TCPReceiver.assemble, placed]
  refine ⟨inv.isn, pushed.valid, pushed.holds accepted inv.holds slice, ?_, ?_, ?_⟩
  · intro i member
    rw [pushed.held, Finset.mem_union] at member
    rcases member with member | member
    · exact inv.inside i member
    · have range := Finset.mem_Ico.mp member
      have nonempty : seg.payload ≠ [] := by
        intro empty
        rw [empty, List.length_nil] at range
        omega
      have := slice.length_le nonempty
      omega
  · rw [pushed.readBytes]
    exact inv.taken
  · rw [pushed.capacity]
    exact inv.capacity

/-- The sequence number of a peer's segment gives back its offset. -/
theorem Inbound.streamIndex (inv : Inbound isn accepted taken r) (short : accepted.length < 2 ^ 31 - 2)
    (known : r.syn = true) (plain : seg.header.syn = false) {offset : Nat}
    (seqno : seg.header.seqno = wrap (1 + offset) isn) (bound : offset ≤ accepted.length + 1) :
    r.streamIndex seg = offset := by
  have cur := inv.cur_le
  have exact := unwrap_wrap_near (1 + offset) r.reassembler.curIdx isn (by omega) (by omega) (by omega)
  simp only [TCPReceiver.streamIndex, plain, Bool.false_eq_true, if_false]
  rw [seqno, inv.isn known, exact, FixedWidth.sub_of_le (by omega) (by omega)]
  omega

/-- Dropped, the first SYN, or a later segment. -/
theorem segmentReceived_cases (r : TCPReceiver) (seg : TCPSegment) :
    r.segmentReceived seg = r ∨
    (seg.header.syn = true ∧ r.syn = false ∧
      r.segmentReceived seg = { r with syn := true, isn := seg.header.seqno }.receive seg) ∨
    (seg.header.syn = false ∧ r.syn = true ∧ r.segmentReceived seg = r.receive seg) := by
  unfold segmentReceived
  cases first : seg.header.syn <;> cases known : r.syn <;> simp

/-- Refused as a second FIN, or assembled. -/
theorem receive_cases (r : TCPReceiver) (seg : TCPSegment) :
    (seg.header.fin = true ∧ r.fin = true ∧ r.receive seg = r) ∨
    ((seg.header.fin = true → r.fin = false) ∧
      r.receive seg = { r with fin := r.fin || seg.header.fin }.assemble seg) := by
  unfold receive
  cases last : seg.header.fin <;> cases known : r.fin <;> simp
  all_goals
    congr 1
    rw [← known]

/-- The inbound stream is only written to and ended. -/
theorem segmentReceived_output_rule {P : ByteStream → Prop} (r : TCPReceiver) (seg : TCPSegment)
    (start : P r.streamOut) (write : ∀ s data, P s → P (ByteStream.write s data).2)
    (ends : ∀ s, P s → P (ByteStream.endInput s)) : P (r.segmentReceived seg).streamOut := by
  have receive : ∀ r : TCPReceiver, P r.streamOut → P (r.receive seg).streamOut := by
    intro r start
    rcases r.receive_cases seg with ⟨_, _, eq⟩ | ⟨_, eq⟩ <;> rw [eq]
    · exact start
    · exact r.reassembler.pushSubstring_output_rule _ _ _ start write ends
  rcases r.segmentReceived_cases seg with eq | ⟨_, _, eq⟩ | ⟨_, _, eq⟩ <;> rw [eq]
  · exact start
  · exact receive _ start
  · exact receive _ start

theorem Inbound.setFin (inv : Inbound isn accepted taken r) (fin : Bool) :
    Inbound isn accepted taken { r with fin := fin } :=
  ⟨inv.isn, inv.valid, inv.holds, inv.inside, inv.taken, inv.capacity⟩

/-- A segment of the peer keeps the inbound stream a part of the peer's stream. -/
theorem Inbound.segmentReceived {s : TCPSender} (inv : Inbound s.isn accepted taken r)
    (short : accepted.length < 2 ^ 31 - 2) (carries : s.Carries accepted seg) :
    Inbound s.isn accepted taken (r.segmentReceived seg) := by
  rcases carries with ⟨syn, _, empty, seqno⟩ | ⟨plain, offset, seqno, slice, bound, _⟩
  · rcases r.segmentReceived_cases seg with eq | ⟨_, _, eq⟩ | ⟨more, _⟩
    · rwa [eq]
    · have latched : Inbound s.isn accepted taken { r with syn := true, isn := seg.header.seqno } :=
        ⟨fun _ => seqno, inv.valid, inv.holds, inv.inside, inv.taken, inv.capacity⟩
      rw [eq]
      rcases receive_cases { r with syn := true, isn := seg.header.seqno } seg with ⟨_, _, same⟩ | ⟨_, same⟩
      · rwa [same]
      · rw [same]
        refine (latched.setFin _).assemble short 0 ?_ ?_ ?_
        · simp [TCPReceiver.streamIndex, syn, FixedWidth.sub, FixedWidth.ofInt]
        · rw [empty]
          exact .nil _ _
        · simp [empty]
    · simp [syn] at more
  · rcases r.segmentReceived_cases seg with eq | ⟨first, _⟩ | ⟨_, known, eq⟩
    · rwa [eq]
    · simp [plain] at first
    · rw [eq]
      rcases receive_cases r seg with ⟨_, _, same⟩ | ⟨_, same⟩
      · rwa [same]
      · rw [same]
        have marked := inv.setFin (r.fin || seg.header.fin)
        exact marked.assemble short offset (marked.streamIndex short known plain seqno (by omega)) slice bound

end Sponge.TCPReceiver
