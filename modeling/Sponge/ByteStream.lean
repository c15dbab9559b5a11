import Mathlib.Tactic

/-! The flow-controlled in-order byte stream. The buffer is the concatenation
of the source's `BufferList`; its chunks are not observable through the stream.
The two counting facts are fields, so the unsigned capacity subtraction cannot
underflow and the counters always describe the buffer. -/
namespace Sponge

structure ByteStream where
  error : Bool
  inputEnd : Bool
  capacity : Nat
  writeBytes : Nat
  readBytes : Nat
  buffer : List UInt8
  fits : buffer.length ≤ capacity
  counted : writeBytes = readBytes + buffer.length
deriving DecidableEq, Repr

namespace ByteStream

def new (capacity : Nat) : ByteStream where
  error := false
  inputEnd := false
  capacity := capacity
  writeBytes := 0
  readBytes := 0
  buffer := []
  fits := Nat.zero_le _
  counted := rfl

def bufferSize (s : ByteStream) : Nat := s.buffer.length

def bufferEmpty (s : ByteStream) : Bool := s.bufferSize == 0

def inputEnded (s : ByteStream) : Bool := s.inputEnd

def eof (s : ByteStream) : Bool := s.bufferEmpty && s.inputEnded

def bytesWritten (s : ByteStream) : Nat := s.writeBytes

def bytesRead (s : ByteStream) : Nat := s.readBytes

def remainingCapacity (s : ByteStream) : Nat := s.capacity - s.bufferSize

def setError (s : ByteStream) : ByteStream := { s with error := true }

def endInput (s : ByteStream) : ByteStream := { s with inputEnd := true }

/-- The number of bytes of `data` that `write` accepts. -/
def writeLen (s : ByteStream) (data : List UInt8) : Nat :=
  if data.length > s.capacity - s.buffer.length then s.capacity - s.buffer.length
  else data.length

theorem writeLen_le (s : ByteStream) (data : List UInt8) : s.writeLen data ≤ data.length := by
  unfold writeLen
  split <;> omega

theorem writeLen_fits (s : ByteStream) (data : List UInt8) :
    s.buffer.length + s.writeLen data ≤ s.capacity := by
  have := s.fits
  unfold writeLen
  split <;> omega

theorem length_take_writeLen (s : ByteStream) (data : List UInt8) :
    (data.take (s.writeLen data)).length = s.writeLen data :=
  List.length_take_of_le (s.writeLen_le data)

def write (s : ByteStream) (data : List UInt8) : Nat × ByteStream :=
  (s.writeLen data,
    { s with
      buffer := s.buffer ++ data.take (s.writeLen data)
      writeBytes := s.writeBytes + s.writeLen data
      fits := by
        rw [List.length_append, length_take_writeLen]
        exact s.writeLen_fits data
      counted := by
        rw [List.length_append, length_take_writeLen, s.counted, Nat.add_assoc] })

/-- `len`, cut to what the buffer holds. -/
def clampLen (s : ByteStream) (len : Nat) : Nat := if len > s.bufferSize then s.bufferSize else len

theorem clampLen_eq (s : ByteStream) (len : Nat) : s.clampLen len = min len s.buffer.length := by
  have size : s.bufferSize = s.buffer.length := rfl
  unfold clampLen
  split <;> omega

def peekOutput (s : ByteStream) (len : Nat) : List UInt8 := s.buffer.take (s.clampLen len)

def popOutput (s : ByteStream) (len : Nat) : ByteStream :=
  { s with
    readBytes := s.readBytes + s.clampLen len
    buffer := s.buffer.drop (s.clampLen len)
    fits := by
      have := s.fits
      rw [List.length_drop]
      omega
    counted := by
      have := s.counted
      rw [List.length_drop, clampLen_eq]
      omega }

def read (s : ByteStream) (len : Nat) : List UInt8 × ByteStream :=
  let readLen := s.clampLen len
  (s.peekOutput readLen, s.popOutput readLen)

theorem read_fst (s : ByteStream) (len : Nat) : (s.read len).1 = s.buffer.take len := by
  simp only [read, peekOutput, clampLen_eq]
  rw [Nat.min_assoc, Nat.min_self, ← List.take_eq_take_min]

theorem read_buffer (s : ByteStream) (len : Nat) : (s.read len).2.buffer = s.buffer.drop len := by
  simp only [read, popOutput, clampLen_eq]
  rw [Nat.min_assoc, Nat.min_self, ← List.drop_eq_drop_min]

@[simp] theorem read_append (s : ByteStream) (len : Nat) :
    (s.read len).1 ++ (s.read len).2.buffer = s.buffer := by
  rw [read_fst, read_buffer, List.take_append_drop]

@[simp] theorem read_inputEnd (s : ByteStream) (len : Nat) :
    (s.read len).2.inputEnd = s.inputEnd := rfl

theorem read_readBytes (s : ByteStream) (len : Nat) :
    (s.read len).2.readBytes = s.readBytes + min len s.buffer.length := by
  simp only [read, popOutput, clampLen_eq]
  rw [Nat.min_assoc, Nat.min_self]

theorem bufferEmpty_iff (s : ByteStream) : s.bufferEmpty = true ↔ s.buffer = [] := by
  simp [bufferEmpty, bufferSize]

theorem bufferEmpty_eq_false_iff (s : ByteStream) : s.bufferEmpty = false ↔ s.buffer ≠ [] := by
  rw [← Bool.not_eq_true, bufferEmpty_iff]

theorem eof_iff (s : ByteStream) : s.eof = true ↔ s.buffer = [] ∧ s.inputEnd = true := by
  simp [eof, bufferEmpty_iff, inputEnded]

/-- A write that fits is taken whole. -/
theorem writeLen_of_fits (s : ByteStream) (data : List UInt8)
    (room : s.buffer.length + data.length ≤ s.capacity) : s.writeLen data = data.length := by
  unfold writeLen
  split <;> omega

end ByteStream
end Sponge
