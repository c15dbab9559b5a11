import Sponge.StreamReassembler.Ending
import Sponge.Lib.Run

/-! Runs of the reassembler with arbitrary data, which may contradict itself. The
representation is kept as long as no push wraps past the largest index. -/
namespace Sponge.StreamReassembler

inductive Op where
  | push (data : List UInt8) (index : Nat) (eof : Bool)
  | read (len : Nat)

def apply (r : StreamReassembler) : Op → StreamReassembler
  | .push data index eof => r.pushSubstring data index eof
  | .read len => (r.readOutput len).2

variable {r t : StreamReassembler} {data : List UInt8} {index capacity : Nat} {eof : Bool} {op : Op}

/-- What the header promises of the nodes and of the memory they take. -/
structure Represented (capacity : Nat) (r : StreamReassembler) : Prop where
  len : ∀ n ∈ r.dataBuffer, n.len = n.data.length
  assembled : r.curIdx = r.output.bytesWritten
  above : ∀ n ∈ r.dataBuffer, r.curIdx < n.idx
  below : ∀ n ∈ r.dataBuffer, n.idx + n.len ≤ r.output.bytesRead + capacity
  separated : r.dataBuffer.Pairwise (fun a b => a.idx + a.len < b.idx)
  count : r.unassembledBytes = (r.dataBuffer.map Node.len).sum
  memory : r.output.bufferSize + r.unassembledBytes ≤ capacity

/-- A push that comes to the write writes the first node whole. -/
def WritesWhole (r : StreamReassembler) (data : List UInt8) (index : Nat) (eof : Bool) : Prop :=
  index ≤ r.maxIdx → r.curIdx < FixedWidth.add 64 index data.length →
    ∀ first rest, ((r.noteEnd data index eof).store (clip index data r.maxIdx r.curIdx)).dataBuffer = first :: rest →
      first.idx = r.curIdx → (r.output.write first.data).1 = first.data.length

/-- The end of the data wraps, and the wrapped end is past the assembled index. -/
def Overruns (r : StreamReassembler) : Op → Prop
  | .push data index _ => index ≤ r.limit ∧ 2 ^ 64 ≤ index + data.length ∧
      r.curIdx < index + data.length - 2 ^ 64
  | .read _ => False

/-- Indices up to the limit can be told apart, and the operation does not wrap. -/
def Allowed (r : StreamReassembler) (op : Op) : Prop := r.limit < 2 ^ 64 ∧ ¬ r.Overruns op

/-- Stored nodes do not overlap and lie between the assembled index and the limit,
so that they fit behind what is buffered. -/
theorem Valid.represented (valid : Valid r) : Represented r.capacity r := by
  have separated := valid.separated
  have counted := r.output.counted
  have written := valid.written
  refine ⟨valid.len, valid.written, valid.missing, valid.below, separated, ?_, ?_⟩
  · rw [valid.count]
    simp [total, Span.total, Node.stop]
  · have inWindow : (r.held.filter (r.curIdx ≤ ·)) ⊆ Finset.Ico r.curIdx r.limit := by
      intro i member
      obtain ⟨held, above⟩ := Finset.mem_filter.mp member
      exact Finset.mem_Ico.mpr ⟨above, valid.held_lt_limit i held⟩
    have size := Finset.card_le_card inWindow
    rw [← valid.unassembled_eq, Nat.card_Ico] at size
    have reached := valid.toShape.cur_le_limit
    have buffered : r.output.bufferSize = r.output.buffer.length := rfl
    have top : r.limit = r.output.readBytes + r.capacity := rfl
    omega

/-- An allowed push does not wrap, or is dropped. -/
theorem Valid.unwrapped (valid : Valid r) (allowed : Allowed r (.push data index eof)) :
    r.Unwrapped index data.length := by
  intro inside fresh
  obtain ⟨room, fine⟩ := allowed
  have reached := valid.toShape.cur_le_limit
  simp only [Overruns] at fine
  rw [wrappedLimit_eq room] at inside
  rw [FixedWidth.add] at fresh
  omega

theorem Valid.apply (valid : Valid r) (allowed : Allowed r op) :
    Valid (r.apply op) ∧ (r.apply op).capacity = r.capacity := by
  cases op with
  | read len => exact ⟨valid.readOutput len, rfl⟩
  | push data index eof =>
    obtain ⟨next, _, kept⟩ := valid.push (valid.unwrapped allowed) eof
    exact ⟨next, kept⟩

theorem Valid.writesWhole (valid : Valid r) (allowed : Allowed r (.push data index eof)) :
    WritesWhole r data index eof := by
  intro inside fresh first rest buffer due
  have maxEq := valid.toShape.maxIdx allowed.1
  have noted := noteEnd_same r data index eof
  have fits := (valid.unwrapped allowed (valid.toShape.maxIdx_eq ▸ inside) fresh).2
  rw [FixedWidth.add_of_lt fits] at fresh
  rw [maxEq] at inside buffer
  obtain ⟨_, _, shape⟩ := valid.stored allowed.1 fits inside fresh eof
  have whole := shape.writeLen buffer (due.trans noted.curIdx.symm)
  rw [shape.len first (by simp [buffer])] at whole
  have output : (r.noteEnd data index eof).output = r.output := by cases eof <;> rfl
  rw [store_output, output] at whole
  exact whole

/-- In every run in which no push overruns the indices, the representation
invariant and the memory bound hold, and no write is cut short. -/
theorem run_represented (reach : Run.Reaches apply Allowed (new capacity) t) :
    Represented capacity t ∧
      ∀ data index eof, Allowed t (.push data index eof) → WritesWhole t data index eof := by
  have invariant : Valid t ∧ t.capacity = capacity := by
    refine reach.invariant (P := fun u => Valid u ∧ u.capacity = capacity) ⟨new_valid capacity, rfl⟩ ?_
    rintro u op ⟨valid, same⟩ allowed
    obtain ⟨next, kept⟩ := valid.apply allowed
    exact ⟨next, kept.trans same⟩
  obtain ⟨valid, rfl⟩ := invariant
  exact ⟨valid.represented, fun data index eof allowed => valid.writesWhole allowed⟩

/-- Two pushes that contradict each other, a read, and the byte that was missing. -/
def contradictory : List Op := [.push [1, 2] 1 false, .push [7, 8, 9] 2 true, .read 1, .push [0] 0 false]

theorem run_represented_contradictory :
    (contradictory.foldl apply (new 4)).output.buffer = [0, 1, 2, 8] ∧
    Represented 4 (contradictory.foldl apply (new 4)) ∧
      ∀ data index eof, Allowed (contradictory.foldl apply (new 4)) (.push data index eof) →
        WritesWhole (contradictory.foldl apply (new 4)) data index eof := by
  refine ⟨by decide, run_represented (Run.Permits.reaches ?_)⟩
  simp only [contradictory, Run.Permits, Allowed, Overruns]
  decide

/-- Three bytes at the second largest index, with all of memory as capacity. -/
theorem wrapped_push_overruns :
    ¬ ∀ (capacity : Nat) (ops : List Op),
      (ops.foldl apply (new capacity)).output.bytesRead + capacity < 2 ^ 64 →
        Represented capacity (ops.foldl apply (new capacity)) := by
  intro law
  have bad := (law (2 ^ 64 - 1) [.push [1, 2, 3] (2 ^ 64 - 2) false] (by decide)).below
  revert bad
  decide

end Sponge.StreamReassembler
