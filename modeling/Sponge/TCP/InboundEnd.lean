import Sponge.TCP.Inbound
import Sponge.StreamReassembler.Ending

/-! The acknowledgement base of a receiver and the end of its stream, against
the number of bytes the peer has in all. The base counts the SYN, the assembled
bytes and the FIN; it is exact as long as no FIN segment ends the stream early. -/
namespace Sponge.TCPReceiver
open StreamReassembler

/-- A peer with `total` bytes, whose FIN is out if `closed`. -/
structure Ending (total : Nat) (closed : Prop) (r : TCPReceiver) : Prop where
  quiet : r.syn = false → r.rcvBase = 0
  base : r.syn = true → r.rcvBase =
    r.reassembler.curIdx + 1 + if r.reassembler.inputEnded = true ∧ r.fin = true then 1 else 0
  known : r.reassembler.inputEndIdx = int32Max ∨ (closed ∧ r.reassembler.inputEndIdx = total)
  ended : r.reassembler.inputEnded = true → closed ∧ r.reassembler.curIdx = total

variable {r : TCPReceiver} {isn : WrappingInt32} {accepted taken : List UInt8} {seg : TCPSegment}
  {total : Nat} {closed : Prop}

theorem new_ending (capacity : Nat) : Ending total closed (new capacity) :=
  ⟨fun _ => rfl, by simp [new], Or.inl rfl, by
    simp [new, StreamReassembler.new, StreamReassembler.inputEnded, ByteStream.new, ByteStream.inputEnded]⟩

/-- The peer may go on until its FIN is out. -/
theorem Ending.grow (ending : Ending total closed r) {more : Nat} {later : Prop}
    (kept : closed → later ∧ more = total) : Ending more later r := by
  refine ⟨ending.quiet, ending.base, ?_, ?_⟩
  · refine ending.known.imp_right ?_
    rintro ⟨finished, eq⟩
    obtain ⟨finished, rfl⟩ := kept finished
    exact ⟨finished, eq⟩
  · intro signal
    obtain ⟨finished, eq⟩ := ending.ended signal
    obtain ⟨finished, rfl⟩ := kept finished
    exact ⟨finished, eq⟩

theorem Ending.read (ending : Ending total closed r) (len : Nat) : Ending total closed (r.read len).2 :=
  ⟨ending.quiet, ending.base, ending.known, ending.ended⟩

theorem Ending.setError (ending : Ending total closed r) : Ending total closed r.setError :=
  ⟨ending.quiet, ending.base, ending.known, ending.ended⟩

/-- The base is below 2^31 and never past the SYN, the bytes and the FIN. -/
theorem Ending.base_le (ending : Ending accepted.length closed r) (inv : Inbound isn accepted taken r) :
    r.rcvBase ≤ accepted.length + 2 := by
  have cur := inv.cur_le
  cases syn : r.syn with
  | false => rw [ending.quiet syn]; omega
  | true =>
    rw [ending.base syn]
    split <;> omega

/-- A FIN segment that the receiver takes is safe for the reassembler. -/
def FinSafe (r : TCPReceiver) (seg : TCPSegment) : Prop :=
  r.syn = true → seg.header.fin = true → r.fin = false →
    EndSafeAt r.reassembler (r.streamIndex seg) seg.payload.length

/-- The base of a receiver follows its assembled index and its end. -/
theorem Ending.base_mono {old : TCPReceiver} {total' : Nat} {closed' : Prop}
    (before : Ending total closed old) (after : Ending total' closed' r) (syn : r.syn = true)
    (cur : old.reassembler.curIdx ≤ r.reassembler.curIdx)
    (kept : old.reassembler.inputEnded = true ∧ old.fin = true →
      r.reassembler.inputEnded = true ∧ r.fin = true) : old.rcvBase ≤ r.rcvBase := by
  cases began : old.syn with
  | false =>
    rw [before.quiet began]
    exact Nat.zero_le _
  | true =>
    rw [before.base began, after.base syn]
    by_cases ended : old.reassembler.inputEnded = true ∧ old.fin = true
    · rw [if_pos ended, if_pos (kept ended)]
      omega
    · rw [if_neg ended]
      omega

theorem assemble_base (r : TCPReceiver) (seg : TCPSegment) : (r.assemble seg).rcvBase =
    (r.assemble seg).reassembler.curIdx + 1 +
      if (r.assemble seg).reassembler.inputEnded = true ∧ (r.assemble seg).fin = true then 1 else 0 := by
  change (if (r.assemble seg).reassembler.inputEnded = true ∧ (r.assemble seg).fin = true
    then (r.assemble seg).reassembler.curIdx + 1 + 1 else (r.assemble seg).reassembler.curIdx + 1) = _
  split <;> rfl

section
variable {old : TCPReceiver} {offset : Nat} (ending : Ending accepted.length closed old)
  (same : r.reassembler = old.reassembler) (inv : Inbound isn accepted taken r)
  (short : accepted.length < 2 ^ 31 - 2) (placed : r.streamIndex seg = offset)
  (slice : SliceAt accepted offset seg.payload)
  (bound : offset + seg.payload.length ≤ accepted.length + 1)
  (last : seg.header.fin = true → closed ∧ offset + seg.payload.length = accepted.length ∧
    EndSafeAt r.reassembler offset seg.payload.length)
include ending same inv short placed slice bound last

/-- The end the reassembler knows, after a push of the peer's bytes, is still its own. -/
theorem Ending.pushed :
    ((r.assemble seg).reassembler.inputEndIdx = int32Max ∨
      (closed ∧ (r.assemble seg).reassembler.inputEndIdx = accepted.length)) ∧
    ((r.assemble seg).reassembler.inputEnded = true →
      closed ∧ (r.assemble seg).reassembler.curIdx = accepted.length) := by
  have pushed := inv.pushed short bound seg.header.fin
  have after := inv.assemble short offset placed slice bound
  have curAfter := after.cur_le
  have inside := after.inside
  have far : int32Max = 2 ^ 31 - 1 := rfl
  obtain ⟨endIdx, signal⟩ := pushSubstring_ending inv.valid (inv.room short) seg.payload offset
    (by omega) seg.header.fin
  simp only [TCPReceiver.assemble, placed] at curAfter inside ⊢
  generalize r.reassembler.pushSubstring seg.payload offset seg.header.fin = next at *
  have known : next.inputEndIdx = int32Max ∨ (closed ∧ next.inputEndIdx = accepted.length) := by
    rw [endIdx]
    split
    · rename_i flag
      exact Or.inr ⟨(last flag).1, (last flag).2.1⟩
    · rw [same]
      exact ending.known
  refine ⟨known, ?_⟩
  intro set
  rcases signal.mp set with before | ⟨inWindow, empty, reached | ⟨flag, waiting⟩⟩
  · obtain ⟨finished, whole⟩ := ending.ended (same ▸ before)
    have advance := pushed.cur_le
    rw [← same] at whole
    exact ⟨finished, by omega⟩
  · rcases known with unknown | ⟨finished, eq⟩
    · omega
    · exact ⟨finished, by omega⟩
  · -- The third test, on a safe FIN segment.
    obtain ⟨finished, whole, safe⟩ := last flag
    rw [← whole] at inside ⊢
    exact ⟨finished, (pushed.whole_iff_safe inv.valid inside waiting).mpr safe inWindow empty⟩

/-- One assembled segment of the peer: the base is exact again and has not
decreased. `old` are the flags before the segment was looked at. -/
theorem Ending.assemble (syn : r.syn = true) (fin : old.fin = true → r.fin = true) :
    Ending accepted.length closed (r.assemble seg) ∧ old.rcvBase ≤ (r.assemble seg).rcvBase := by
  have opened : (r.assemble seg).syn = true := syn
  obtain ⟨known, ended⟩ := ending.pushed same inv short placed slice bound last
  have after : Ending accepted.length closed (r.assemble seg) :=
    ⟨by simp [opened], fun _ => r.assemble_base seg, known, ended⟩
  have pushed := inv.pushed short bound seg.header.fin
  obtain ⟨_, signal⟩ := pushSubstring_ending inv.valid (inv.room short) seg.payload offset
    (by omega) seg.header.fin
  rw [← placed] at pushed signal
  refine ⟨after, ending.base_mono after opened ?_ ?_⟩
  · rw [← same]
    exact pushed.cur_le
  · rintro ⟨set, flag⟩
    exact ⟨signal.mpr (Or.inl (same ▸ set)), fin flag⟩

end

/-- A segment of the peer, if its FIN is safe. -/
theorem Ending.segmentReceived {s : TCPSender} (ending : Ending accepted.length (s.finSent = true) r)
    (inv : Inbound s.isn accepted taken r) (short : accepted.length < 2 ^ 31 - 2)
    (carries : s.Carries accepted seg) (whole : s.finSent = true → s.nextSeqno = accepted.length + 2)
    (safe : FinSafe r seg) :
    Ending accepted.length (s.finSent = true) (r.segmentReceived seg) ∧
      r.rcvBase ≤ (r.segmentReceived seg).rcvBase := by
  rcases r.segmentReceived_cases seg with eq | ⟨first, fresh, eq⟩ | ⟨later, known, eq⟩ <;> rw [eq]
  · exact ⟨ending, Nat.le_refl _⟩
  · rcases carries with ⟨_, last, empty, seqno⟩ | ⟨plain, _⟩
    · rcases receive_cases { r with syn := true, isn := seg.header.seqno } seg with ⟨fin, _⟩ | ⟨_, eq⟩
      · simp [last] at fin
      · have latched : Inbound s.isn accepted taken
            { r with syn := true, isn := seg.header.seqno, fin := r.fin || seg.header.fin } :=
          ⟨fun _ => seqno, inv.valid, inv.holds, inv.inside, inv.taken, inv.capacity⟩
        have placed : ({ r with syn := true, isn := seg.header.seqno, fin := r.fin || seg.header.fin } :
            TCPReceiver).streamIndex seg = 0 := by
          simp [TCPReceiver.streamIndex, first, FixedWidth.sub, FixedWidth.ofInt]
        rw [eq]
        refine ending.assemble rfl latched short placed ?_ ?_ ?_ rfl (fun set => by simp [set])
        · rw [empty]
          exact .nil _ _
        · simp [empty]
        · simp [last]
    · simp [plain] at first
  · rcases carries with ⟨syn, _⟩ | ⟨plain, offset, seqno, slice, bound, last⟩
    · simp [syn] at later
    · rcases receive_cases r seg with ⟨_, _, eq⟩ | ⟨unfinished, eq⟩ <;> rw [eq]
      · exact ⟨ending, Nat.le_refl _⟩
      · have placed := inv.streamIndex short known plain seqno (by omega)
        refine ending.assemble (r := { r with fin := r.fin || seg.header.fin }) rfl (inv.setFin _) short
          placed slice bound ?_ known (fun set => by simp [set])
        intro flag
        obtain ⟨sent, next⟩ := last flag
        have total := whole sent
        refine ⟨sent, by omega, ?_⟩
        have here := safe known flag (unfinished flag)
        rwa [placed] at here

end Sponge.TCPReceiver
