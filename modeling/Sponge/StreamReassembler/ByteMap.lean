import Sponge.StreamReassembler.Push

/-! The reassembler refines a naive byte map. The map only remembers which
indices were pushed while they lay in the window; a run of the real reassembler
is traced beside it, with the bytes each call appended to the output. -/
namespace Sponge.StreamReassembler

/-- A slice of the stream, with the proof that it is one. -/
structure Slice (stream : List UInt8) where
  index : Nat
  len : Nat
  inside : index + len ≤ stream.length

def Slice.data {stream : List UInt8} (slice : Slice stream) : List UInt8 :=
  (stream.drop slice.index).take slice.len

inductive Call (stream : List UInt8) where
  | push (slice : Slice stream) (eof : Bool)
  | read (len : Nat)

/-- A run so far: the reassembler, the indices pushed while in the window, all
bytes appended to the output, and whether some call had the eof flag. -/
structure Trace (stream : List UInt8) where
  reassembler : StreamReassembler
  covered : Finset Nat
  written : List UInt8
  sawEof : Bool

namespace Trace
variable {stream : List UInt8} {cap : Nat}

def start (stream : List UInt8) (capacity : Nat) : Trace stream :=
  ⟨.new capacity, ∅, [], false⟩

/-- The window at the time of a push: from the assembled count up to what has
been read plus the capacity. -/
def window (t : Trace stream) : Finset Nat :=
  Finset.Ico t.reassembler.output.bytesWritten
    (t.reassembler.output.bytesRead + t.reassembler.capacity)

def step (t : Trace stream) : Call stream → Trace stream
  | .push slice eof =>
    let r := t.reassembler.pushSubstring slice.data slice.index eof
    { reassembler := r
      covered := t.covered ∪ (Finset.Ico slice.index (slice.index + slice.len) ∩ t.window)
      written := t.written ++ r.output.buffer.drop t.reassembler.output.buffer.length
      sawEof := t.sawEof || eof }
  | .read len => { t with reassembler := (t.reassembler.readOutput len).2 }

def run (stream : List UInt8) (capacity : Nat) (calls : List (Call stream)) : Trace stream :=
  calls.foldl step (start stream capacity)

/-- The coupling of the two levels. -/
structure Coupled (cap : Nat) (t : Trace stream) : Prop where
  valid : t.reassembler.Valid
  holds : Holds stream t.reassembler
  capacity : t.reassembler.capacity = cap
  held : t.reassembler.held = t.covered
  inside : t.covered ⊆ Finset.range stream.length
  written : t.written = stream.take t.reassembler.curIdx

theorem Coupled.cur_le {t : Trace stream} (coupled : Coupled cap t) :
    t.reassembler.curIdx ≤ stream.length := by
  have subset : Finset.range t.reassembler.curIdx ⊆ Finset.range stream.length := by
    refine Finset.Subset.trans ?_ (coupled.held ▸ coupled.inside)
    exact Finset.subset_union_left
  exact Finset.range_subset_range.mp subset

theorem Coupled.room {t : Trace stream} (coupled : Coupled cap t)
    (room : stream.length + cap < 2 ^ 64) : t.reassembler.limit < 2 ^ 64 := by
  have bound := coupled.cur_le
  have written := coupled.valid.written
  have counted := t.reassembler.output.counted
  simp only [limit, coupled.capacity]
  omega

theorem length_data (slice : Slice stream) : slice.data.length = slice.len := by
  have := slice.inside
  rw [Slice.data, List.length_take, List.length_drop]
  omega

theorem sliceAt_data (slice : Slice stream) : SliceAt stream slice.index slice.data :=
  List.take_prefix _ _

theorem start_coupled (stream : List UInt8) (cap : Nat) :
    Coupled cap (start stream cap) :=
  ⟨new_valid cap, new_holds stream cap, rfl, rfl, by simp [start], by simp [start, new]⟩

/-- One push, seen from both levels. -/
theorem Coupled.push {t : Trace stream} (coupled : Coupled cap t)
    (room : stream.length + cap < 2 ^ 64) (slice : Slice stream) (eof : Bool) :
    Pushed t.reassembler slice.data slice.index
      (t.reassembler.pushSubstring slice.data slice.index eof) := by
  apply pushSubstring_spec coupled.valid (coupled.room room)
  have := slice.inside
  rw [length_data]
  omega

theorem step_coupled {t : Trace stream} (coupled : Coupled cap t)
    (room : stream.length + cap < 2 ^ 64) (call : Call stream) :
    Coupled cap (t.step call) := by
  cases call with
  | push slice eof =>
    have pushed := coupled.push room slice eof
    have covered : (t.step (.push slice eof)).covered = t.reassembler.held ∪
        Finset.Ico (max slice.index t.reassembler.curIdx)
          (min (slice.index + slice.data.length) t.reassembler.limit) := by
      have written := coupled.valid.written
      rw [length_data, ← Finset.Ico_inter_Ico, coupled.held]
      simp only [step, window, ByteStream.bytesWritten, ByteStream.bytesRead, limit, written]
    have holds := pushed.holds stream coupled.holds (sliceAt_data slice)
    refine ⟨pushed.valid, holds, pushed.capacity.trans coupled.capacity,
      pushed.held.trans covered.symm, ?_, ?_⟩
    · rw [covered, coupled.held]
      apply Finset.union_subset coupled.inside
      intro i member
      have inside := slice.inside
      have bounds := Finset.mem_Ico.mp member
      rw [length_data] at bounds
      exact Finset.mem_range.mpr (by omega)
    · -- The appended bytes are the stream's bytes between the two assembled indices.
      have before := coupled.valid.written
      have after := pushed.valid.written
      have countedBefore := t.reassembler.output.counted
      have countedAfter :=
        (t.reassembler.pushSubstring slice.data slice.index eof).output.counted
      have readEq := pushed.readBytes
      have tail := holds.output.drop t.reassembler.output.buffer.length
      rw [readEq, ← countedBefore, ← before] at tail
      simp only [step]
      have grows := pushed.cur_le
      rw [coupled.written, tail.take_append, List.length_drop]
      congr 1
      omega
  | read len =>
    exact ⟨coupled.valid.readOutput len, coupled.holds.readOutput len, coupled.capacity, coupled.held,
      coupled.inside, coupled.written⟩

theorem run_coupled (room : stream.length + cap < 2 ^ 64) (calls : List (Call stream)) :
    Coupled cap (run stream cap calls) := by
  induction calls using List.reverseRecOn with
  | nil => exact start_coupled stream cap
  | append_singleton calls call ih =>
    rw [run, List.foldl_append]
    exact step_coupled ih room call

/-- The output is the stream up to the first index that was never pushed while
in the window, and the unassembled count is the number of distinct indices past
it that were. Reads, overlaps, repeats and empty slices are arbitrary. -/
theorem run_refines_byteMap (stream : List UInt8) (capacity : Nat)
    (room : stream.length + capacity < 2 ^ 64) (calls : List (Call stream)) :
    ∃ k ≤ stream.length,
      IsGreatest {k | ∀ i < k, i ∈ (run stream capacity calls).covered} k ∧
      (run stream capacity calls).written = stream.take k ∧
      (run stream capacity calls).reassembler.unassembledBytes =
        ((run stream capacity calls).covered.filter (k ≤ ·)).card := by
  have coupled := run_coupled room calls
  have cur := coupled.valid.cur_not_held
  rw [coupled.held] at cur
  refine ⟨_, coupled.cur_le, ⟨?_, ?_⟩, coupled.written, ?_⟩
  · intro i below
    rw [← coupled.held]
    exact Finset.mem_union_left _ (Finset.mem_range.mpr below)
  · intro k all
    by_contra beyond
    exact cur (all _ (by omega))
  · rw [← coupled.held]
    exact coupled.valid.unassembled_eq

/-- Pushes out of order with an overlap, then a read, then the missing start. -/
theorem run_refines_byteMap_overlap :
    [10, 11, 12, 13].length + 3 < 2 ^ 64 ∧
    ∃ k ≤ [10, 11, 12, 13].length,
      IsGreatest {k | ∀ i < k, i ∈ (run [10, 11, 12, 13] 3 [.push ⟨1, 2, by decide⟩ false,
        .push ⟨2, 2, by decide⟩ true, .read 1, .push ⟨0, 1, by decide⟩ false]).covered} k ∧
      (run [10, 11, 12, 13] 3 [.push ⟨1, 2, by decide⟩ false,
        .push ⟨2, 2, by decide⟩ true, .read 1, .push ⟨0, 1, by decide⟩ false]).written =
          [10, 11, 12, 13].take k ∧
      (run [10, 11, 12, 13] 3 [.push ⟨1, 2, by decide⟩ false, .push ⟨2, 2, by decide⟩ true,
        .read 1, .push ⟨0, 1, by decide⟩ false]).reassembler.unassembledBytes =
          ((run [10, 11, 12, 13] 3 [.push ⟨1, 2, by decide⟩ false, .push ⟨2, 2, by decide⟩ true,
            .read 1, .push ⟨0, 1, by decide⟩ false]).covered.filter (k ≤ ·)).card :=
  ⟨by decide, run_refines_byteMap [10, 11, 12, 13] 3 (by decide) _⟩

end Trace
end Sponge.StreamReassembler
