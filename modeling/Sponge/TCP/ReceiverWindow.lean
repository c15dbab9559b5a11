import Sponge.TCP.Inbound
import Sponge.StreamReassembler.Arbitrary

/-! The window of the receiver, over runs of arbitrary segments. What a segment adds
to the held indices is its part of the window, as `ackno` and `window_size` state
it; a segment with FIN adds nothing once a FIN has been seen. -/
namespace Sponge.TCPReceiver
open StreamReassembler

inductive Op where
  | segment (seg : TCPSegment)
  | read (len : Nat)
  | setError

def apply (r : TCPReceiver) : Op → TCPReceiver
  | .segment seg => r.segmentReceived seg
  | .read len => (r.read len).2
  | .setError => r.setError

def run (capacity : Nat) (ops : List Op) : TCPReceiver := ops.foldl apply (new capacity)

/-- The payload is not longer than a string can be. -/
def Op.Small : Op → Prop
  | .segment seg => seg.payload.length < 2 ^ 63
  | _ => True

variable {r : TCPReceiver} {seg : TCPSegment} {op : Op} {capacity : Nat}

/-- The base follows the assembled index from the SYN on. -/
structure Based (r : TCPReceiver) : Prop where
  order : r.fin = true → r.syn = true
  base : r.syn = true → r.rcvBase =
    if r.reassembler.inputEnded = true ∧ r.fin = true then r.reassembler.curIdx + 1 + 1
    else r.reassembler.curIdx + 1

theorem Based.apply (based : Based r) (op : Op) : Based (r.apply op) := by
  cases op with
  | segment seg =>
    rcases r.segmentReceived_cases seg with eq | ⟨_, unknown, eq⟩ | ⟨_, known, eq⟩ <;> rw [TCPReceiver.apply, eq]
    · exact based
    · rcases receive_cases { r with syn := true, isn := seg.header.seqno } seg with ⟨_, last, _⟩ | ⟨_, same⟩
      · simp [based.order last] at unknown
      · rw [same]
        exact ⟨fun _ => rfl, fun _ => rfl⟩
    · rcases receive_cases r seg with ⟨_, _, same⟩ | ⟨_, same⟩ <;> rw [same]
      · exact based
      · exact ⟨fun _ => known, fun _ => rfl⟩
  | read len => exact ⟨based.order, based.base⟩
  | setError => exact ⟨based.order, based.base⟩

theorem run_based (capacity : Nat) (ops : List Op) : Based (run capacity ops) := by
  induction ops using List.reverseRecOn with
  | nil => exact ⟨nofun, nofun⟩
  | append_singleton ops op ih =>
    rw [run, List.foldl_append]
    exact ih.apply op

/-- What holds as long as stream indices have room in 64 bits. -/
structure Sane (capacity : Nat) (r : TCPReceiver) : Prop where
  valid : r.reassembler.Valid
  memory : r.reassembler.capacity = capacity
  capacity : r.capacity = capacity

theorem new_sane (capacity : Nat) : Sane capacity (new capacity) := ⟨new_valid capacity, rfl, rfl⟩

/-- Every payload of a possible length can be pushed where its sequence number says,
or is dropped. -/
def Fits (r : TCPReceiver) : Prop :=
  ∀ (latched : TCPReceiver) (seg : TCPSegment), latched.reassembler = r.reassembler →
    seg.payload.length < 2 ^ 63 →
    Allowed r.reassembler (.push seg.payload (latched.streamIndex seg) seg.header.fin)

/-- A window below 2³¹ bytes fits as long as 63 bits count the bytes. -/
theorem Sane.fits_of_narrow (sane : Sane capacity r) (narrow : capacity < 2 ^ 31)
    (roomy : r.reassembler.curIdx < 2 ^ 63 + 2 ^ 31) : Fits r := by
  intro latched seg _ small
  have counted := r.reassembler.output.counted
  have written := sane.valid.written
  have memory := sane.memory
  refine ⟨by rw [limit]; omega, ?_⟩
  rintro ⟨inside, wraps, _⟩
  rw [limit] at inside
  omega

/-- Any window that ends below the last index fits among the first 2³¹ bytes: no
sequence number is unwrapped to more than 32 bits there. -/
theorem fits_of_early (early : r.reassembler.curIdx < 2 ^ 31) (room : r.reassembler.limit + 1 < 2 ^ 64) :
    Fits r := by
  intro latched seg same small
  refine ⟨by omega, ?_⟩
  rintro ⟨inside, wraps, _⟩
  have place : latched.streamIndex seg < 2 ^ 32 ∨ latched.streamIndex seg = 2 ^ 64 - 1 := by
    obtain ⟨v, _, eq⟩ := wrap_surjective seg.header.seqno latched.isn
    have small := unwrap_wrap_of_small v latched.reassembler.curIdx latched.isn (by rw [same]; exact early)
    rw [streamIndex, ← eq, small, FixedWidth.sub, FixedWidth.ofInt]
    split_ifs <;> omega
  omega

/-- The segment is assembled by `latched`, which has noted its flags. -/
theorem Sane.assemble (sane : Sane capacity r) (fits : Fits r) (small : seg.payload.length < 2 ^ 63)
    {latched : TCPReceiver} (same : latched.reassembler = r.reassembler) (own : latched.capacity = r.capacity) :
    Sane capacity (latched.assemble seg) := by
  obtain ⟨valid, kept⟩ := sane.valid.apply (fits latched seg same small)
  rw [← same] at valid kept
  exact ⟨valid, kept.trans (same ▸ sane.memory), own.trans sane.capacity⟩

theorem Sane.receive (sane : Sane capacity r) (fits : Fits r) (small : seg.payload.length < 2 ^ 63) :
    Sane capacity (r.receive seg) := by
  rcases receive_cases r seg with ⟨_, _, same⟩ | ⟨_, same⟩ <;> rw [same]
  · exact sane
  · exact sane.assemble fits small rfl rfl

theorem Sane.apply (sane : Sane capacity r) (fits : Fits r) (small : op.Small) : Sane capacity (r.apply op) := by
  cases op with
  | segment seg =>
    rcases r.segmentReceived_cases seg with eq | ⟨_, _, eq⟩ | ⟨_, _, eq⟩ <;> rw [TCPReceiver.apply, eq]
    · exact sane
    · have latched : Sane capacity { r with syn := true, isn := seg.header.seqno } :=
        ⟨sane.valid, sane.memory, sane.capacity⟩
      exact latched.receive fits small
    · exact sane.receive fits small
  | read len => exact ⟨sane.valid.readOutput len, sane.memory, sane.capacity⟩
  | setError =>
    have same : SameData r.reassembler r.setError.reassembler := ⟨rfl, rfl, rfl, rfl, rfl, rfl, rfl, rfl⟩
    exact ⟨same.valid sane.valid, sane.memory, sane.capacity⟩

/-- Neither the assembled nor the read bytes become fewer. -/
theorem apply_onward (r : TCPReceiver) (op : Op) :
    r.reassembler.curIdx ≤ (r.apply op).reassembler.curIdx ∧
      r.streamOut.bytesRead ≤ (r.apply op).streamOut.bytesRead := by
  have receive : ∀ (r : TCPReceiver) seg, r.reassembler.curIdx ≤ (r.receive seg).reassembler.curIdx := by
    intro r seg
    rcases receive_cases r seg with ⟨_, _, eq⟩ | ⟨_, eq⟩ <;> rw [eq]
    exact curIdx_le_pushSubstring r.reassembler _ _ _
  cases op with
  | segment seg =>
    refine ⟨?_, r.segmentReceived_output_rule (P := fun s => r.streamOut.bytesRead ≤ s.bytesRead) seg le_rfl
      (fun _ _ kept => kept) (fun _ kept => kept)⟩
    rcases r.segmentReceived_cases seg with eq | ⟨_, _, eq⟩ | ⟨_, _, eq⟩ <;> rw [TCPReceiver.apply, eq]
    · exact receive { r with syn := true, isn := seg.header.seqno } seg
    · exact receive r seg
  | read len =>
    refine ⟨le_rfl, ?_⟩
    change r.reassembler.output.readBytes ≤ (r.reassembler.output.read len).2.readBytes
    rw [ByteStream.read_readBytes]
    exact Nat.le_add_right _ _
  | setError => exact ⟨le_rfl, le_rfl⟩

/-- A run is sane if every state of it that is sane has room for what may come. -/
theorem run_sane (ops : List Op) (small : ∀ op ∈ ops, op.Small)
    (fits : ∀ s, Sane capacity s → s.reassembler.curIdx ≤ (run capacity ops).reassembler.curIdx →
      s.streamOut.bytesRead ≤ (run capacity ops).streamOut.bytesRead → Fits s) :
    Sane capacity (run capacity ops) := by
  induction ops using List.reverseRecOn with
  | nil => exact new_sane capacity
  | append_singleton ops op ih =>
    have last : run capacity (ops ++ [op]) = (run capacity ops).apply op := by simp [run]
    obtain ⟨assembled, read⟩ := apply_onward (run capacity ops) op
    rw [last] at fits ⊢
    have before := ih (fun other member => small other (List.mem_append_left _ member))
      fun s sane less fewer => fits s sane (less.trans assembled) (fewer.trans read)
    exact before.apply (fits _ before assembled read) (small op (by simp))

/-- The window of the header, in stream indices: what the reassembler can hold. -/
theorem Sane.window (sane : Sane capacity r) (size : capacity < 2 ^ 64) :
    r.reassembler.curIdx + r.windowSize = r.reassembler.limit := by
  have counted := r.reassembler.output.counted
  have written := sane.valid.written
  have fits := r.reassembler.output.fits
  have memory := sane.memory
  have total := sane.valid.capacity
  have size : r.windowSize = capacity - r.reassembler.output.buffer.length := by
    rw [windowSize, sane.capacity]
    exact FixedWidth.sub_of_le (by change r.reassembler.output.buffer.length ≤ _; omega) size
  rw [size, limit]
  omega

/-- What an assembled payload adds: its part of the window. -/
theorem Sane.held_assemble (sane : Sane capacity r) (fits : Fits r) (size : capacity < 2 ^ 64)
    (small : seg.payload.length < 2 ^ 63) {latched : TCPReceiver} (same : latched.reassembler = r.reassembler)
    {index : Nat} (placed : latched.streamIndex seg = index) (room : index < 2 ^ 63) (i : Nat) :
    i ∈ (latched.assemble seg).reassembler.held ↔ i ∈ r.reassembler.held ∨
      (index ≤ i ∧ i < index + seg.payload.length ∧ r.reassembler.curIdx ≤ i ∧
        i < r.reassembler.curIdx + r.windowSize) := by
  have allowed := fits latched seg same small
  have pushed := pushSubstring_spec sane.valid allowed.1 (by omega : index + seg.payload.length < 2 ^ 64)
    seg.header.fin
  have eq : (latched.assemble seg).reassembler = r.reassembler.pushSubstring seg.payload index seg.header.fin := by
    rw [← same, ← placed]
    rfl
  rw [eq, pushed.held, sane.window size, Finset.mem_union, Finset.mem_Ico, Nat.max_le, Nat.lt_min]
  tauto

/-- Without SYN and FIN, a segment adds exactly the bytes of its payload whose
absolute sequence numbers lie in the window that starts at the ackno. -/
theorem window_exact {capacity : Nat} (narrow : capacity < 2 ^ 31) {ops : List Op} (small : ∀ op ∈ ops, op.Small)
    {r : TCPReceiver} (reached : run capacity ops = r) (known : r.syn = true)
    (unended : r.streamOut.inputEnded = false) {seg : TCPSegment} (size : seg.payload.length < 2 ^ 63)
    (plain : seg.header.syn = false ∧ seg.header.fin = false) {a : Nat} (seqno : seg.header.seqno = wrap a r.isn)
    (positive : 1 ≤ a) (room : a < 2 ^ 63) (above : a < r.rcvBase + (2 ^ 31 - 1))
    (below : r.rcvBase < a + (2 ^ 31 - 1)) (i : Nat) :
    i ∈ (r.segmentReceived seg).reassembler.held ↔ i ∈ r.reassembler.held ∨
      ∃ k < seg.payload.length, i + 1 = a + k ∧ r.rcvBase ≤ a + k ∧ a + k < r.rcvBase + r.windowSize := by
  have based : Based r := reached ▸ run_based capacity ops
  have base : r.rcvBase = r.reassembler.curIdx + 1 := by
    rw [based.base known, if_neg]
    rintro ⟨ended, _⟩
    exact absurd (ended.symm.trans unended) (by decide)
  have sane : Sane capacity r := by
    rw [← reached]
    exact run_sane ops small fun s sane less _ => sane.fits_of_narrow narrow (by rw [reached] at less; omega)
  have index : r.streamIndex seg = a - 1 := by
    have exact := unwrap_wrap_near a r.reassembler.curIdx r.isn room (by omega) (by omega)
    simp only [streamIndex, plain.1, Bool.false_eq_true, if_false, seqno, exact]
    exact FixedWidth.sub_of_le positive (by omega)
  have received : r.segmentReceived seg = r.assemble seg := by
    simp [segmentReceived, plain.1, known, TCPReceiver.receive, plain.2]
  rw [received, sane.held_assemble (sane.fits_of_narrow narrow (by omega)) (by omega) size rfl index (by omega), base]
  constructor
  · rintro (old | ⟨start, stop, lower, upper⟩)
    · exact .inl old
    · exact .inr ⟨i + 1 - a, by omega, by omega, by omega, by omega⟩
  · rintro (old | ⟨k, inside, place, lower, upper⟩)
    · exact .inl old
    · exact .inr ⟨by omega, by omega, by omega, by omega⟩

/-- The payload byte `i` of a segment at `offset` lies in the window. -/
def InWindow (r : TCPReceiver) (seg : TCPSegment) (offset i : Nat) : Prop :=
  offset ≤ i ∧ i < offset + seg.payload.length ∧ r.reassembler.curIdx ≤ i ∧
    i < r.reassembler.curIdx + r.windowSize

/-- A segment with FIN, once the SYN is known, gets all bytes in the window held if
and only if it has no SYN and no FIN came before it, or they were all held. -/
theorem fin_window_iff {capacity : Nat} {ops : List Op} (small : ∀ op ∈ ops, op.Small) {r : TCPReceiver}
    (reached : run capacity ops = r) (known : r.syn = true) (early : r.reassembler.curIdx < 2 ^ 31)
    (window : r.streamOut.bytesRead + capacity + 1 < 2 ^ 64) {seg : TCPSegment} (last : seg.header.fin = true)
    {offset : Nat} (placed : (seg.header.syn = true ∧ offset = 0) ∨
      (seg.header.syn = false ∧ seg.header.seqno = wrap (1 + offset) r.isn))
    (room : 1 + offset + seg.payload.length < 2 ^ 31) :
    (∀ i, InWindow r seg offset i → i ∈ (r.segmentReceived seg).reassembler.held) ↔
      (seg.header.syn = false ∧ r.fin = false) ∨ ∀ i, InWindow r seg offset i → i ∈ r.reassembler.held := by
  have fits : ∀ s, Sane capacity s → s.reassembler.curIdx ≤ r.reassembler.curIdx →
      s.streamOut.bytesRead ≤ r.streamOut.bytesRead → Fits s := by
    intro s sane less fewer
    refine fits_of_early (by omega) ?_
    rw [limit, sane.memory]
    change s.streamOut.bytesRead + capacity + 1 < 2 ^ 64
    omega
  have sane : Sane capacity r := by
    rw [← reached]
    exact run_sane ops small (reached ▸ fits)
  by_cases first : seg.header.syn = false ∧ r.fin = false
  · refine iff_of_true ?_ (.inl first)
    obtain ⟨_, seqno⟩ := placed.resolve_left (by simp [first.1])
    have index : ({ r with fin := true } : TCPReceiver).streamIndex seg = offset := by
      have exact := unwrap_wrap_near (1 + offset) r.reassembler.curIdx r.isn (by omega) (by omega) (by omega)
      simp only [streamIndex, first.1, Bool.false_eq_true, if_false, seqno, exact]
      rw [FixedWidth.sub_of_le (by omega) (by omega)]
      omega
    have received : r.segmentReceived seg = ({ r with fin := true } : TCPReceiver).assemble seg := by
      simp [segmentReceived, first, known, TCPReceiver.receive, last]
    have same : ({ r with fin := true } : TCPReceiver).reassembler = r.reassembler := rfl
    intro i inside
    rw [received, sane.held_assemble (fits r sane le_rfl le_rfl) (by omega) (by omega) same index (by omega)]
    exact .inr inside
  · have refused : r.segmentReceived seg = r := by
      rcases Bool.eq_false_or_eq_true seg.header.syn with syn | syn
      · simp [segmentReceived, syn, known]
      · have again : r.fin = true := by
          rw [← Bool.not_eq_false]
          exact fun never => first ⟨syn, never⟩
        simp [segmentReceived, syn, known, TCPReceiver.receive, last, again]
    rw [refused, or_iff_right first]

/-- A segment of a peer whose ISN is 7, its payload at `offset`. -/
def segmentAt (offset : Nat) (payload : List UInt8) (fin : Bool) : TCPSegment where
  header := { seqno := wrap (1 + offset) ⟨7⟩, fin := fin }
  payload := payload

def synSegment : TCPSegment := { header := { seqno := ⟨7⟩, syn := true } }

/-- With room for two bytes, the FIN segment that holds the second and the third byte
comes first, then the first byte, and the application reads both. -/
def finAhead : List Op :=
  [.segment synSegment, .segment (segmentAt 1 [2, 3] true), .segment (segmentAt 0 [1] false), .read 2]

theorem finAhead_small : ∀ op ∈ finAhead, op.Small := by
  simp [finAhead, Op.Small, synSegment, segmentAt]

theorem window_exact_finAhead :
    3 ∈ ((run 2 finAhead).segmentReceived (segmentAt 1 [2, 3, 4, 5] false)).reassembler.held ↔
      3 ∈ (run 2 finAhead).reassembler.held ∨ ∃ k < (segmentAt 1 [2, 3, 4, 5] false).payload.length,
        3 + 1 = 2 + k ∧ (run 2 finAhead).rcvBase ≤ 2 + k ∧
          2 + k < (run 2 finAhead).rcvBase + (run 2 finAhead).windowSize :=
  window_exact (by decide) finAhead_small rfl (by decide) (by decide) (by decide) (by decide) (by decide)
    (by decide) (by decide) (by decide) (by decide) 3

theorem fin_window_iff_finAhead :
    (∀ i, InWindow (run 2 [.segment synSegment]) (segmentAt 1 [2, 3] true) 1 i →
        i ∈ ((run 2 [.segment synSegment]).segmentReceived (segmentAt 1 [2, 3] true)).reassembler.held) ↔
      ((segmentAt 1 [2, 3] true).header.syn = false ∧ (run 2 [.segment synSegment]).fin = false) ∨
        ∀ i, InWindow (run 2 [.segment synSegment]) (segmentAt 1 [2, 3] true) 1 i →
          i ∈ (run 2 [.segment synSegment]).reassembler.held :=
  fin_window_iff (by simp [Op.Small, synSegment]) rfl (by decide) (by decide) (by decide) rfl
    (.inr ⟨rfl, by decide⟩) (by decide)

/-- The FIN segment comes again, now that its last byte fits, and is refused. -/
theorem second_fin_segment_is_refused :
    ¬ ∀ (capacity : Nat) (ops : List Op) (seg : TCPSegment) (offset : Nat), (∀ op ∈ ops, op.Small) →
      (run capacity ops).syn = true → (run capacity ops).reassembler.curIdx < 2 ^ 31 →
      (run capacity ops).streamOut.bytesRead + capacity + 1 < 2 ^ 64 → seg.header.fin = true →
      seg.header.syn = false → seg.header.seqno = wrap (1 + offset) (run capacity ops).isn →
      1 + offset + seg.payload.length < 2 ^ 31 →
      ∀ i, InWindow (run capacity ops) seg offset i →
        i ∈ ((run capacity ops).segmentReceived seg).reassembler.held := by
  intro law
  have held := law 2 finAhead (segmentAt 1 [2, 3] true) 1 finAhead_small (by decide) (by decide) (by decide) rfl rfl
    (by decide) (by decide) 2 (by unfold InWindow; decide)
  revert held
  decide

end Sponge.TCPReceiver
