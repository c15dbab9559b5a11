import Sponge.ByteStream
import Sponge.Lib.Run

/-! Runs of a stream, and what the end of the input promises. `write` does not
ask whether the input has ended, so the promise is the caller's to keep: a run
keeps it exactly if no write after `endInput` finds room for a byte. -/
namespace Sponge.ByteStream

/-- The operations of the input side and of the output side. -/
inductive Op where
  | write (data : List UInt8)
  | endInput
  | setError
  | peekOutput (len : Nat)
  | popOutput (len : Nat)
  | read (len : Nat)
deriving DecidableEq, Repr

def apply (s : ByteStream) : Op → ByteStream
  | .write data => (s.write data).2
  | .endInput => s.endInput
  | .setError => s.setError
  | .peekOutput _ => s
  | .popOutput len => s.popOutput len
  | .read len => (s.read len).2

variable {s t u : ByteStream} {op : Op} {ops : List Op}

/-- After the input has ended: nothing more is written, and the end is not undone. -/
structure Final (s t : ByteStream) : Prop where
  written : s.inputEnded = true → t.bytesWritten ≤ s.bytesWritten
  eof : s.eof = true → t.eof = true

/-- No write puts a byte behind the end of the input. -/
def Heeds (s : ByteStream) : Op → Prop
  | .write data => s.inputEnded = true → data = [] ∨ s.remainingCapacity = 0
  | _ => True

instance (s : ByteStream) : ∀ op : Op, Decidable (s.Heeds op)
  | .write data => inferInstanceAs (Decidable (s.inputEnded = true → data = [] ∨ s.remainingCapacity = 0))
  | .endInput => isTrue trivial
  | .setError => isTrue trivial
  | .peekOutput _ => isTrue trivial
  | .popOutput _ => isTrue trivial
  | .read _ => isTrue trivial

theorem Final.refl (s : ByteStream) : Final s s := ⟨fun _ => Nat.le_refl _, id⟩

theorem Final.trans (first : Final s t) (second : Final t u)
    (ended : s.inputEnded = true → t.inputEnded = true) : Final s u :=
  ⟨fun set => (second.written (ended set)).trans (first.written set), fun set => second.eof (first.eof set)⟩

theorem run_capacity (s : ByteStream) (ops : List Op) : (ops.foldl apply s).capacity = s.capacity := by
  induction ops generalizing s with
  | nil => rfl
  | cons op rest ih =>
    rw [List.foldl_cons, ih]
    cases op <;> rfl

theorem writeLen_eq_zero_iff (s : ByteStream) (data : List UInt8) :
    s.writeLen data = 0 ↔ data = [] ∨ s.remainingCapacity = 0 := by
  have left : s.remainingCapacity = s.capacity - s.buffer.length := rfl
  rw [← List.length_eq_zero_iff, left]
  unfold writeLen
  split <;> omega

theorem apply_inputEnded (op : Op) (ended : s.inputEnded = true) : (s.apply op).inputEnded = true := by
  cases op with
  | endInput => rfl
  | _ => exact ended

/-- What is taken from an ended stream leaves it ended. -/
theorem popOutput_eof (len : Nat) (eof : s.eof = true) : (s.popOutput len).eof = true := by
  obtain ⟨empty, ended⟩ := s.eof_iff.mp eof
  refine (eof_iff _).mpr ⟨?_, ended⟩
  change s.buffer.drop (s.clampLen len) = []
  rw [empty, List.drop_nil]

theorem write_final_iff (s : ByteStream) (data : List UInt8) :
    Final s (s.write data).2 ↔ s.Heeds (.write data) := by
  constructor
  · intro final ended
    have less : s.writeBytes + s.writeLen data ≤ s.writeBytes := final.written ended
    exact (s.writeLen_eq_zero_iff data).mp (by omega)
  · intro heeds
    have nothing : s.inputEnded = true → s.writeLen data = 0 :=
      fun ended => (s.writeLen_eq_zero_iff data).mpr (heeds ended)
    constructor
    · intro ended
      change s.writeBytes + s.writeLen data ≤ s.writeBytes
      rw [nothing ended]
      exact Nat.le_refl _
    · intro eof
      obtain ⟨empty, ended⟩ := s.eof_iff.mp eof
      refine (eof_iff _).mpr ⟨?_, ended⟩
      change s.buffer ++ data.take (s.writeLen data) = []
      rw [nothing ended, empty]
      rfl

/-- One operation is final exactly if it heeds the end of the input. -/
theorem apply_final_iff (s : ByteStream) (op : Op) : Final s (s.apply op) ↔ s.Heeds op := by
  cases op with
  | write data => exact s.write_final_iff data
  | endInput =>
    refine iff_of_true ⟨fun _ => Nat.le_refl _, fun eof => ?_⟩ trivial
    exact (eof_iff _).mpr ⟨(s.eof_iff.mp eof).1, rfl⟩
  | setError => exact iff_of_true ⟨fun _ => Nat.le_refl _, id⟩ trivial
  | peekOutput len => exact iff_of_true (.refl s) trivial
  | popOutput len => exact iff_of_true ⟨fun _ => Nat.le_refl _, popOutput_eof len⟩ trivial
  | read len => exact iff_of_true ⟨fun _ => Nat.le_refl _, popOutput_eof (s.clampLen len)⟩ trivial

/-- From every moment of a run to every later one. -/
def FinalThroughout (s : ByteStream) (ops : List Op) : Prop :=
  ∀ before between after, ops = before ++ between ++ after →
    Final (before.foldl apply s) (between.foldl apply (before.foldl apply s))

theorem final_of_heeds (heeds : Run.Permits apply Heeds s ops) :
    Final s (ops.foldl apply s) ∧ (s.inputEnded = true → (ops.foldl apply s).inputEnded = true) := by
  induction ops generalizing s with
  | nil => exact ⟨.refl s, id⟩
  | cons op rest ih =>
    obtain ⟨first, later⟩ := heeds
    obtain ⟨final, ended⟩ := ih later
    exact ⟨((s.apply_final_iff op).mpr first).trans final (apply_inputEnded op), fun set => ended (apply_inputEnded op set)⟩

/-- The end of the input is final in a run exactly if every write after it is of
no bytes or finds no room. -/
theorem run_final_iff (s : ByteStream) (ops : List Op) :
    FinalThroughout s ops ↔ Run.Permits apply Heeds s ops := by
  constructor
  · intro final
    induction ops generalizing s with
    | nil => trivial
    | cons op rest ih =>
      refine ⟨(s.apply_final_iff op).mp (final [] [op] rest rfl), ih (s.apply op) ?_⟩
      intro before between after split
      exact final (op :: before) between after (by rw [split]; rfl)
  · rintro heeds before between after rfl
    have later := (Run.permits_append.mp (Run.permits_append.mp heeds).1).2
    exact (final_of_heeds later).1

/-- A byte written after the end of the input. -/
theorem write_after_end_is_taken : ¬ FinalThroughout (new 1) [.endInput, .write [97]] := by
  intro final
  have less := (final [.endInput] [.write [97]] [] rfl).written
  exact absurd (less rfl) (by decide)

end Sponge.ByteStream
