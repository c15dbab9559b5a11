import Sponge.ByteStream.Runs
import Sponge.Lib.FixedWidth

/-! The stream as the source stores it: a deque of reference-counted strings,
each with a starting offset, and `size_t` counters. It behaves as the stream of
plain bytes whatever the chunks are, and none of its operations throws. A
`size_t` sum is taken modulo 2^64; string lengths and offsets into one string
are natural numbers. -/
namespace Sponge.Chunked

/-- A string that can discard bytes from the front. -/
structure Buffer where
  storage : Option (List UInt8)
  startingOffset : Nat
  within : ∀ text, storage = some text → startingOffset ≤ text.length

namespace Buffer

def ofString (text : List UInt8) : Buffer := ⟨some text, 0, fun _ _ => Nat.zero_le _⟩

def str (b : Buffer) : List UInt8 :=
  match b.storage with
  | none => []
  | some text => text.drop b.startingOffset

def size (b : Buffer) : Nat := b.str.length

theorem str_of_storage {b : Buffer} {text : List UInt8} (stored : b.storage = some text) :
    b.str = text.drop b.startingOffset := by
  rw [str, stored]

/-- The offset moves; the bytes stay. -/
def advance (b : Buffer) (n : Nat) (enough : n ≤ b.str.length) : Buffer where
  storage := b.storage
  startingOffset := b.startingOffset + n
  within := by
    intro text stored
    have start := b.within text stored
    rw [str_of_storage stored, List.length_drop] at enough
    omega

/-- A string that is used up is given back. -/
def removePrefix (b : Buffer) (n : Nat) : Except String Buffer :=
  if enough : n ≤ b.str.length then
    let b := b.advance n enough
    if b.storage.map List.length = some b.startingOffset
    then .ok ⟨none, b.startingOffset, by simp⟩
    else .ok b
  else .error "Buffer::remove_prefix"

theorem advance_str {b : Buffer} {n : Nat} (enough : n ≤ b.str.length) : (b.advance n enough).str = b.str.drop n := by
  cases stored : b.storage with
  | none => simp [str, advance, stored]
  | some text => simp [str, advance, stored, List.drop_drop]

theorem removePrefix_ok {b : Buffer} {n : Nat} (enough : n ≤ b.str.length) :
    ∃ rest, b.removePrefix n = .ok rest ∧ rest.str = b.str.drop n := by
  rw [← advance_str enough, removePrefix, dif_pos enough]
  dsimp only
  split
  · rename_i spent
    refine ⟨_, rfl, ?_⟩
    obtain ⟨text, stored, length⟩ := Option.map_eq_some_iff.mp spent
    rw [str_of_storage stored, List.drop_of_length_le length.le]
    rfl
  · exact ⟨_, rfl, rfl⟩

end Buffer

structure BufferList where
  buffers : List Buffer := []

namespace BufferList

def append (l other : BufferList) : BufferList := ⟨l.buffers ++ other.buffers⟩

def ofString (text : List UInt8) : BufferList := append {} ⟨[Buffer.ofString text]⟩

def concatenate (l : BufferList) : List UInt8 := l.buffers.foldl (fun ret buf => ret ++ buf.str) []

def size (l : BufferList) : Nat := l.buffers.foldl (fun ret buf => FixedWidth.add 64 ret buf.size) 0

/-- The loop of `remove_prefix`. -/
def removeLoop : List Buffer → Nat → Except String (List Buffer)
  | [], n => if n > 0 then .error "BufferList::remove_prefix" else .ok []
  | front :: rest, n =>
    if n > 0 then
      if n < front.str.length then do
        let front ← front.removePrefix n
        return front :: rest
      else removeLoop rest (n - front.str.length)
    else .ok (front :: rest)

def removePrefix (l : BufferList) (n : Nat) : Except String BufferList := do
  let buffers ← removeLoop l.buffers n
  return ⟨buffers⟩

theorem foldl_str (buffers : List Buffer) (ret : List UInt8) :
    buffers.foldl (fun ret buf => ret ++ buf.str) ret = ret ++ buffers.flatMap Buffer.str := by
  induction buffers generalizing ret with
  | nil => simp
  | cons front rest ih => rw [List.foldl_cons, ih, List.flatMap_cons, List.append_assoc]

theorem concatenate_eq (l : BufferList) : l.concatenate = l.buffers.flatMap Buffer.str := by
  rw [concatenate, foldl_str, List.nil_append]

theorem concatenate_append (l other : BufferList) :
    (l.append other).concatenate = l.concatenate ++ other.concatenate := by
  simp only [concatenate_eq, append, List.flatMap_append]

theorem concatenate_ofString (text : List UInt8) : (ofString text).concatenate = text := rfl

theorem foldl_size (buffers : List Buffer) (ret : Nat) :
    buffers.foldl (fun ret buf => FixedWidth.add 64 ret buf.size) ret % 2 ^ 64 =
      (ret + (buffers.flatMap Buffer.str).length) % 2 ^ 64 := by
  induction buffers generalizing ret with
  | nil => rfl
  | cons front rest ih =>
    rw [List.foldl_cons, ih, List.flatMap_cons, List.length_append, FixedWidth.add, Buffer.size]
    omega

/-- The size is exact as long as it is one. -/
theorem size_eq {l : BufferList} (small : l.concatenate.length < 2 ^ 64) : l.size = l.concatenate.length := by
  have sum := foldl_size l.buffers 0
  have reduced : l.size < 2 ^ 64 := by
    unfold size
    cases l.buffers.eq_nil_or_concat with
    | inl empty => simp [empty]
    | inr split =>
      obtain ⟨earlier, last, eq⟩ := split
      rw [eq, List.concat_eq_append, List.foldl_concat]
      exact Nat.mod_lt _ (by decide)
  rw [concatenate_eq] at small ⊢
  rw [Nat.zero_add, Nat.mod_eq_of_lt small] at sum
  rw [← sum]
  exact (Nat.mod_eq_of_lt reduced).symm

/-- The loop takes its bytes from the front, through any chunks, and throws only
when there are too few. -/
theorem removeLoop_ok {buffers : List Buffer} {n : Nat} (enough : n ≤ (buffers.flatMap Buffer.str).length) :
    ∃ rest, removeLoop buffers n = .ok rest ∧ rest.flatMap Buffer.str = (buffers.flatMap Buffer.str).drop n := by
  induction buffers generalizing n with
  | nil =>
    obtain rfl : n = 0 := by simpa using enough
    exact ⟨[], rfl, rfl⟩
  | cons front rest ih =>
    unfold removeLoop
    rcases Nat.eq_zero_or_pos n with rfl | positive
    · exact ⟨_, rfl, rfl⟩
    rw [if_pos positive, List.flatMap_cons]
    rw [List.flatMap_cons, List.length_append] at enough
    split
    · rename_i inside
      obtain ⟨left, took, str⟩ := Buffer.removePrefix_ok inside.le
      refine ⟨left :: rest, by rw [took]; rfl, ?_⟩
      rw [List.flatMap_cons, str, List.drop_append_of_le_length inside.le]
    · rename_i past
      obtain ⟨left, took, str⟩ := ih (n := n - front.str.length) (by omega)
      have spent : front.str.drop n = [] := List.drop_of_length_le (not_lt.mp past)
      exact ⟨left, took, by rw [str, List.drop_append, spent, List.nil_append]⟩

theorem removePrefix_ok {l : BufferList} {n : Nat} (enough : n ≤ l.concatenate.length) :
    ∃ rest, l.removePrefix n = .ok rest ∧ rest.concatenate = l.concatenate.drop n := by
  rw [concatenate_eq] at enough ⊢
  obtain ⟨buffers, took, str⟩ := removeLoop_ok enough
  refine ⟨⟨buffers⟩, by rw [removePrefix, took]; rfl, ?_⟩
  rw [concatenate_eq, str]

end BufferList

structure ByteStream where
  error : Bool
  inputEnd : Bool
  capacity : Nat
  writeBytes : Nat
  readBytes : Nat
  buffer : BufferList

namespace ByteStream

def new (capacity : UInt64) : ByteStream where
  error := false
  inputEnd := false
  capacity := capacity.toNat
  writeBytes := 0
  readBytes := 0
  buffer := {}

def bufferSize (c : ByteStream) : Nat := c.buffer.size

def bytesWritten (c : ByteStream) : Nat := c.writeBytes

def bytesRead (c : ByteStream) : Nat := c.readBytes

def remainingCapacity (c : ByteStream) : Nat := FixedWidth.sub 64 c.capacity c.bufferSize

def write (c : ByteStream) (data : List UInt8) : Nat × ByteStream :=
  let writeLen := if data.length > FixedWidth.sub 64 c.capacity c.buffer.size
    then FixedWidth.sub 64 c.capacity c.buffer.size else data.length
  (writeLen,
    { c with
      buffer := c.buffer.append (.ofString (data.take writeLen))
      writeBytes := FixedWidth.add 64 c.writeBytes writeLen })

def peekOutput (c : ByteStream) (len : Nat) : List UInt8 :=
  let peekLen := if len > c.buffer.size then c.buffer.size else len
  c.buffer.concatenate.take peekLen

def popOutput (c : ByteStream) (len : Nat) : Except String ByteStream := do
  let popLen := if len > c.buffer.size then c.buffer.size else len
  let buffer ← c.buffer.removePrefix popLen
  return { c with readBytes := FixedWidth.add 64 c.readBytes popLen, buffer := buffer }

def read (c : ByteStream) (len : Nat) : Except String (List UInt8 × ByteStream) := do
  let readLen := if len > c.buffer.size then c.buffer.size else len
  let res := c.peekOutput readLen
  let c ← c.popOutput readLen
  return (res, c)

def endInput (c : ByteStream) : ByteStream := { c with inputEnd := true }

def setError (c : ByteStream) : ByteStream := { c with error := true }

/-- The chunks hold the bytes of `s`, and the counters are those of `s` in 64 bits. -/
structure Represents (c : ByteStream) (s : Sponge.ByteStream) : Prop where
  error : c.error = s.error
  inputEnd : c.inputEnd = s.inputEnd
  capacity : c.capacity = s.capacity
  narrow : s.capacity < 2 ^ 64
  written : c.writeBytes = s.writeBytes % 2 ^ 64
  read : c.readBytes = s.readBytes % 2 ^ 64
  content : c.buffer.concatenate = s.buffer

theorem new_represents (capacity : UInt64) : Represents (new capacity) (.new capacity.toNat) :=
  ⟨rfl, rfl, rfl, capacity.toNat_lt, rfl, rfl, rfl⟩

variable {c : ByteStream} {s : Sponge.ByteStream}

theorem Represents.size (rep : Represents c s) : c.buffer.size = s.bufferSize := by
  have fits := s.fits
  have narrow := rep.narrow
  rw [BufferList.size_eq (by rw [rep.content]; omega), rep.content]
  rfl

/-- The subtraction does not underflow. -/
theorem Represents.room (rep : Represents c s) :
    FixedWidth.sub 64 c.capacity c.buffer.size = s.capacity - s.buffer.length := by
  rw [rep.size, rep.capacity]
  exact FixedWidth.sub_of_le s.fits rep.narrow

theorem Represents.write (rep : Represents c s) (data : List UInt8) :
    (c.write data).1 = (s.write data).1 ∧ Represents (c.write data).2 (s.write data).2 := by
  have length : (c.write data).1 = s.writeLen data := by
    simp only [ByteStream.write, rep.room]
    rfl
  refine ⟨length, rep.error, rep.inputEnd, rep.capacity, rep.narrow, ?_, rep.read, ?_⟩
  · change FixedWidth.add 64 c.writeBytes (c.write data).1 = (s.writeBytes + s.writeLen data) % 2 ^ 64
    rw [length, FixedWidth.add, rep.written, Nat.mod_add_mod]
  · change (c.buffer.append (.ofString (data.take (c.write data).1))).concatenate = s.buffer ++ data.take (s.writeLen data)
    rw [BufferList.concatenate_append, BufferList.concatenate_ofString, rep.content, length]

theorem Represents.peekOutput (rep : Represents c s) (len : Nat) : c.peekOutput len = s.peekOutput len := by
  simp only [ByteStream.peekOutput, rep.size, rep.content]
  rfl

theorem Represents.popOutput (rep : Represents c s) (len : Nat) :
    ∃ after, c.popOutput len = .ok after ∧ Represents after (s.popOutput len) := by
  have clamped : (if len > c.buffer.size then c.buffer.size else len) = s.clampLen len := by
    rw [rep.size]
    rfl
  have enough : s.clampLen len ≤ c.buffer.concatenate.length := by
    rw [rep.content, Sponge.ByteStream.clampLen_eq]
    exact Nat.min_le_right _ _
  obtain ⟨buffer, removed, content⟩ := BufferList.removePrefix_ok enough
  simp only [ByteStream.popOutput, clamped, removed]
  refine ⟨_, rfl, rep.error, rep.inputEnd, rep.capacity, rep.narrow, rep.written, ?_, ?_⟩
  · change FixedWidth.add 64 c.readBytes (s.clampLen len) = (s.readBytes + s.clampLen len) % 2 ^ 64
    rw [FixedWidth.add, rep.read, Nat.mod_add_mod]
  · rw [content, rep.content]
    rfl

theorem Represents.takes (rep : Represents c s) (len : Nat) :
    ∃ after, c.read len = .ok ((s.read len).1, after) ∧ Represents after (s.read len).2 := by
  have clamped : (if len > c.buffer.size then c.buffer.size else len) = s.clampLen len := by
    rw [rep.size]
    rfl
  obtain ⟨after, popped, represents⟩ := rep.popOutput (s.clampLen len)
  refine ⟨after, ?_, represents⟩
  simp only [ByteStream.read, clamped, rep.peekOutput, popped]
  rfl

end ByteStream

/-- A stream with the bytes it has accepted and the number it has given up. -/
structure Trace where
  stream : ByteStream
  accepted : List UInt8 := []
  taken : Nat := 0

namespace Trace
open Sponge.ByteStream (Op)

def step (t : Trace) : Op → Except String Trace
  | .write data => .ok { t with
      stream := (t.stream.write data).2
      accepted := t.accepted ++ data.take (t.stream.write data).1 }
  | .endInput => .ok { t with stream := t.stream.endInput }
  | .setError => .ok { t with stream := t.stream.setError }
  | .peekOutput _ => .ok t
  | .popOutput len => do
    let stream ← t.stream.popOutput len
    return { t with stream := stream, taken := t.taken + min len t.stream.bufferSize }
  | .read len => do
    let (bytes, stream) ← t.stream.read len
    return { t with stream := stream, taken := t.taken + bytes.length }

/-- The trace is one of the plain stream `s`. -/
structure Follows (t : Trace) (s : Sponge.ByteStream) : Prop where
  represents : ByteStream.Represents t.stream s
  left : s.buffer = t.accepted.drop t.taken
  written : s.writeBytes = t.accepted.length
  read : s.readBytes = t.taken

variable {t : Trace} {s : Sponge.ByteStream}

theorem Follows.write (follows : Follows t s) (data : List UInt8) :
    ∃ next, t.step (.write data) = .ok next ∧ Follows next (s.write data).2 := by
  obtain ⟨length, represents⟩ := follows.represents.write data
  have taken : t.taken ≤ t.accepted.length := by
    have counted := s.counted
    rw [follows.written, follows.read] at counted
    omega
  have size : (s.write data).1 = s.writeLen data := rfl
  refine ⟨_, rfl, represents, ?_, ?_, follows.read⟩
  · change s.buffer ++ data.take (s.writeLen data) = (t.accepted ++ data.take (t.stream.write data).1).drop t.taken
    rw [length, size, List.drop_append_of_le_length taken, follows.left]
  · change s.writeBytes + s.writeLen data = (t.accepted ++ data.take (t.stream.write data).1).length
    rw [length, size, List.length_append, Sponge.ByteStream.length_take_writeLen, follows.written]

/-- Bytes that leave the stream, popped or read. -/
theorem Follows.take (follows : Follows t s) {stream : ByteStream} {after : Sponge.ByteStream} (len : Nat)
    (represents : ByteStream.Represents stream after) (buffer : after.buffer = s.buffer.drop len)
    (written : after.writeBytes = s.writeBytes) (read : after.readBytes = s.readBytes + min len s.buffer.length) :
    Follows { t with stream := stream, taken := t.taken + min len s.buffer.length } after := by
  refine ⟨represents, ?_, written.trans follows.written, by rw [read, follows.read]⟩
  change after.buffer = t.accepted.drop (t.taken + min len s.buffer.length)
  rw [buffer, List.drop_eq_drop_min, ← List.drop_drop, ← follows.left]

/-- Every operation is one of the plain stream, and none throws. -/
theorem Follows.step (follows : Follows t s) (op : Op) :
    ∃ next, t.step op = .ok next ∧ Follows next (s.apply op) := by
  have rep := follows.represents
  cases op with
  | write data => exact follows.write data
  | endInput =>
    exact ⟨_, rfl, ⟨rep.error, rfl, rep.capacity, rep.narrow, rep.written, rep.read, rep.content⟩,
      follows.left, follows.written, follows.read⟩
  | setError =>
    exact ⟨_, rfl, ⟨rfl, rep.inputEnd, rep.capacity, rep.narrow, rep.written, rep.read, rep.content⟩,
      follows.left, follows.written, follows.read⟩
  | peekOutput len => exact ⟨t, rfl, follows⟩
  | popOutput len =>
    obtain ⟨stream, popped, represents⟩ := rep.popOutput len
    have size : t.stream.bufferSize = s.buffer.length := rep.size
    refine ⟨_, by rw [Trace.step, popped]; rfl, ?_⟩
    rw [size]
    refine follows.take len represents ?_ rfl ?_
    · change s.buffer.drop (s.clampLen len) = _
      rw [Sponge.ByteStream.clampLen_eq, ← List.drop_eq_drop_min]
    · change s.readBytes + s.clampLen len = _
      rw [Sponge.ByteStream.clampLen_eq]
  | read len =>
    obtain ⟨stream, read, represents⟩ := rep.takes len
    refine ⟨_, by rw [Trace.step, read]; rfl, ?_⟩
    have length : (s.read len).1.length = min len s.buffer.length := by rw [s.read_fst, List.length_take]
    rw [length]
    exact follows.take len represents (s.read_buffer len) rfl (s.read_readBytes len)

/-- A run of the chunked stream is a run of the plain one. -/
theorem run_follows (capacity : UInt64) (ops : List Op) :
    ∃ t, ops.foldlM step { stream := .new capacity } = .ok t ∧
      Follows t (ops.foldl Sponge.ByteStream.apply (.new capacity.toNat)) := by
  induction ops using List.reverseRecOn with
  | nil => exact ⟨_, rfl, ByteStream.new_represents capacity, rfl, rfl, rfl⟩
  | append_singleton ops op ih =>
    obtain ⟨t, run, follows⟩ := ih
    obtain ⟨next, last, kept⟩ := follows.step op
    refine ⟨next, ?_, by rwa [List.foldl_concat]⟩
    rw [List.foldlM_append, run]
    change ([op].foldlM step t) = .ok next
    rw [List.foldlM_cons, last]
    rfl

theorem Follows.counters (follows : Follows t s) :
    (t.stream.bytesRead = t.taken % 2 ^ 64 ∧ t.stream.bytesWritten = t.accepted.length % 2 ^ 64) ∧
    t.stream.bufferSize = FixedWidth.sub 64 t.stream.bytesWritten t.stream.bytesRead ∧
    t.accepted.length = t.taken + t.stream.bufferSize := by
  have rep := follows.represents
  have size : t.stream.bufferSize = s.buffer.length := rep.size
  have read : t.stream.bytesRead = t.taken % 2 ^ 64 := by rw [← follows.read]; exact rep.read
  have written : t.stream.bytesWritten = t.accepted.length % 2 ^ 64 := by rw [← follows.written]; exact rep.written
  have counted : t.accepted.length = t.taken + s.buffer.length := by
    rw [← follows.written, ← follows.read]
    exact s.counted
  have fits := s.fits
  have narrow := rep.narrow
  refine ⟨⟨read, written⟩, ?_, by rw [size, counted]⟩
  rw [size, read, written, FixedWidth.sub, FixedWidth.ofInt]
  omega

/-- What a write takes: as much as there is room for, from the front. -/
theorem Follows.writes (follows : Follows t s) (data : List UInt8) :
    (t.stream.write data).1 = min data.length t.stream.remainingCapacity ∧
    (t.stream.write data).2.buffer.concatenate =
      t.stream.buffer.concatenate ++ data.take (min data.length t.stream.remainingCapacity) := by
  have rep := follows.represents
  obtain ⟨length, represents⟩ := rep.write data
  have room : t.stream.remainingCapacity = s.capacity - s.buffer.length := rep.room
  have taken : s.writeLen data = min data.length t.stream.remainingCapacity := by
    rw [room, Sponge.ByteStream.writeLen]
    split <;> omega
  refine ⟨length.trans taken, ?_⟩
  rw [represents.content, rep.content, ← taken]
  rfl

/-- What can be seen of the content, by peeking and by reading. -/
theorem Follows.shows (follows : Follows t s) (len : Nat) :
    t.stream.peekOutput len = t.stream.buffer.concatenate.take (min len t.stream.bufferSize) ∧
    ∃ after, t.stream.read len = .ok (t.stream.buffer.concatenate.take (min len t.stream.bufferSize), after) := by
  have rep := follows.represents
  have size : t.stream.bufferSize = s.buffer.length := rep.size
  rw [rep.content, size]
  constructor
  · rw [rep.peekOutput, Sponge.ByteStream.peekOutput, Sponge.ByteStream.clampLen_eq]
  · obtain ⟨after, read, _⟩ := rep.takes len
    exact ⟨after, by rw [read, s.read_fst, ← List.take_eq_take_min]⟩

/-- A bounded queue of bytes, whatever the chunks: no operation throws, the
content is what was accepted and not yet taken, a write takes what there is room
for, and peeking and reading give the first bytes. The counters are those of the
bytes in 64 bits, so exact until 2^64 bytes have been accepted. -/
theorem run_fifo (capacity : UInt64) (ops : List Op) :
    ∃ t, ops.foldlM step { stream := .new capacity } = .ok t ∧
      t.stream.buffer.concatenate = t.accepted.drop t.taken ∧
      (t.stream.bytesRead = t.taken % 2 ^ 64 ∧ t.stream.bytesWritten = t.accepted.length % 2 ^ 64) ∧
      (t.stream.bufferSize = t.stream.buffer.concatenate.length ∧
        t.stream.bufferSize = FixedWidth.sub 64 t.stream.bytesWritten t.stream.bytesRead ∧
        t.stream.bufferSize ≤ capacity.toNat ∧
        t.stream.remainingCapacity = capacity.toNat - t.stream.bufferSize) ∧
      (∀ data, (t.stream.write data).1 = min data.length t.stream.remainingCapacity ∧
        (t.stream.write data).2.buffer.concatenate =
          t.stream.buffer.concatenate ++ data.take (min data.length t.stream.remainingCapacity)) ∧
      (∀ len, t.stream.peekOutput len = t.stream.buffer.concatenate.take (min len t.stream.bufferSize) ∧
        ∃ after, t.stream.read len =
          .ok (t.stream.buffer.concatenate.take (min len t.stream.bufferSize), after)) ∧
      (t.accepted.length < 2 ^ 64 →
        t.stream.buffer.concatenate = t.accepted.drop t.stream.bytesRead ∧
        t.stream.bytesWritten = t.accepted.length ∧
        t.stream.bufferSize = t.stream.bytesWritten - t.stream.bytesRead) := by
  obtain ⟨t, run, follows⟩ := run_follows capacity ops
  have rep := follows.represents
  obtain ⟨⟨read, written⟩, difference, counted⟩ := follows.counters
  have content : t.stream.buffer.concatenate = t.accepted.drop t.taken := rep.content.trans follows.left
  have size : t.stream.bufferSize = t.stream.buffer.concatenate.length := by
    rw [rep.content]
    exact rep.size
  have bound := Sponge.ByteStream.run_capacity (.new capacity.toNat) ops
  refine ⟨t, run, content, ⟨read, written⟩, ⟨size, difference, ?_, ?_⟩, follows.writes, follows.shows, ?_⟩
  · have fits := (ops.foldl Sponge.ByteStream.apply (.new capacity.toNat)).fits
    rw [bound] at fits
    rw [size, rep.content]
    exact fits
  · have room : t.stream.remainingCapacity = _ := rep.room
    rw [room, bound, size, rep.content]
    rfl
  · intro short
    have plain : t.stream.bytesRead = t.taken := read.trans (Nat.mod_eq_of_lt (by omega))
    have whole : t.stream.bytesWritten = t.accepted.length := written.trans (Nat.mod_eq_of_lt short)
    exact ⟨by rw [plain, content], whole, by omega⟩

/-- Across three chunks, one of them empty and one cut by the capacity. -/
example : (([.write [1, 2], .write [], .write [3, 4], .read 3, .popOutput 9] : List Op).foldlM step
    { stream := .new 3 }).map (fun t => (t.accepted, t.taken)) = .ok ([1, 2, 3], 3) := by decide +kernel

end Trace
end Sponge.Chunked
