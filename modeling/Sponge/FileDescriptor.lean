import Sponge.Lib.Outcome
import Mathlib.Tactic

/-! File descriptors as the source handles them, with the two flags and the two
counters of the shared `FDWrapper`. What crossed the descriptor is kept as a
history: one entry for each read or write the kernel answered. -/
namespace Sponge

/-- The pieces of a `BufferViewList`. -/
abbrev BufferViewList := List (List UInt8)

namespace BufferViewList

def size (views : BufferViewList) : Nat := (views.map List.length).sum

def removePrefix : BufferViewList → Nat → Except String BufferViewList
  | views, 0 => .ok views
  | [], _ + 1 => .error "BufferListView::remove_prefix"
  | front :: rest, n + 1 =>
    if n + 1 < front.length then .ok (front.drop (n + 1) :: rest)
    else removePrefix rest (n + 1 - front.length)

theorem size_eq (views : BufferViewList) : views.size = views.flatten.length := by
  rw [size, List.length_flatten]

theorem removePrefix_ok {views : BufferViewList} {n : Nat} (enough : n ≤ views.size) :
    ∃ rest, views.removePrefix n = .ok rest ∧ rest.flatten = views.flatten.drop n := by
  induction views generalizing n with
  | nil =>
    cases Nat.le_zero.mp enough
    exact ⟨[], rfl, rfl⟩
  | cons front views ih =>
    cases n with
    | zero => exact ⟨front :: views, rfl, rfl⟩
    | succ n =>
      simp only [removePrefix, List.flatten_cons]
      split
      · refine ⟨_, rfl, ?_⟩
        rw [List.drop_append_of_le_length (by omega), List.flatten_cons]
      · have inside : n + 1 - front.length ≤ size views := by
          simp only [size, List.map_cons, List.sum_cons] at enough ⊢
          omega
        obtain ⟨rest, removed, content⟩ := ih inside
        refine ⟨rest, removed, ?_⟩
        rw [content, List.drop_append, List.drop_of_length_le (by omega : front.length ≤ n + 1),
          List.nil_append]

end BufferViewList

structure FileDescriptor where
  eof : Bool := false
  closed : Bool := false
  readCount : UInt32 := 0
  writeCount : UInt32 := 0
  received : List (List UInt8) := []
  sent : List (List UInt8) := []
deriving DecidableEq, Repr

/-- What the kernel answers to the calls made through a descriptor. Its history
tells one call from the next, so any sequence of answers is one of these; an
error is the `unix_error` that `SystemCall` makes of it. -/
structure Kernel where
  read : FileDescriptor → Nat → Except String (List UInt8)
  writev : FileDescriptor → BufferViewList → Except String Nat
  shutdown : FileDescriptor → Except String Unit
  close : FileDescriptor → Except String Unit

/-- The calls succeed, a read fits the buffer it was given, and a write takes
some of what it was given. -/
structure Kernel.Lawful (k : Kernel) : Prop where
  read : ∀ fd size, ∃ str, k.read fd size = .ok str ∧ str.length ≤ size
  writev : ∀ fd views, ∃ n, k.writev fd views = .ok n ∧ n ≤ views.size ∧ (views.size ≠ 0 → n ≠ 0)
  shutdown : ∀ fd, k.shutdown fd = .ok ()
  close : ∀ fd, k.close fd = .ok ()

inductive Shutdown where
  | rd
  | wr
  | rdwr
deriving DecidableEq, Repr

namespace FileDescriptor

def registerRead (fd : FileDescriptor) : FileDescriptor := { fd with readCount := fd.readCount + 1 }

def registerWrite (fd : FileDescriptor) : FileDescriptor := { fd with writeCount := fd.writeCount + 1 }

/-- The largest single read. -/
def bufferSize : Nat := 1024 * 1024

/-- The default limit, `numeric_limits<size_t>::max()`. -/
def noLimit : Nat := 2 ^ 64 - 1

/-- An empty answer to a read of at least one byte is the end of the file. -/
def markEof (fd : FileDescriptor) (limit : Nat) (str : List UInt8) : FileDescriptor :=
  { fd with eof := fd.eof || (decide (limit > 0) && str.isEmpty) }

def read (fd : FileDescriptor) (limit : Nat) (k : Kernel) : Except String (List UInt8 × FileDescriptor) := do
  let sizeToRead := min bufferSize limit
  let str ← k.read fd sizeToRead
  if str.length > sizeToRead then .error "read() read more than requested"
  else return (str, { (fd.markEof limit str).registerRead with received := fd.received ++ [str] })

/-- One turn of the loop of `write`: the bytes taken, and what is left. -/
def writeOnce (fd : FileDescriptor) (buffer : BufferViewList) (k : Kernel) :
    Except String (Nat × BufferViewList × FileDescriptor) := do
  let bytesWritten ← k.writev fd buffer
  if bytesWritten = 0 ∧ buffer.size ≠ 0 then .error "write returned 0 given non-empty input buffer"
  else if bytesWritten > buffer.size then .error "write wrote more than length of input buffer"
  else
    let rest ← buffer.removePrefix bytesWritten
    return (bytesWritten, rest,
      { fd.registerWrite with sent := fd.sent ++ [buffer.flatten.take bytesWritten] })

/-- The loop. A turn that is followed by another has taken a byte. -/
def writeLoop (writeAll : Bool) (k : Kernel) :
    Nat → FileDescriptor → BufferViewList → Except String (Nat × FileDescriptor)
  | 0, fd, _ => .ok (0, fd)
  | fuel + 1, fd, buffer => do
    let (bytesWritten, rest, fd) ← fd.writeOnce buffer k
    if writeAll = true ∧ rest.size ≠ 0 then
      let (others, fd) ← writeLoop writeAll k fuel fd rest
      return (bytesWritten + others, fd)
    else return (bytesWritten, fd)

def write (fd : FileDescriptor) (buffer : BufferViewList) (writeAll : Bool) (k : Kernel) :
    Except String (Nat × FileDescriptor) :=
  fd.writeLoop writeAll k (buffer.size + 1) buffer

def shutdown (fd : FileDescriptor) (how : Shutdown) (k : Kernel) : Except String FileDescriptor := do
  k.shutdown fd
  match how with
  | .rd => return fd.registerRead
  | .wr => return fd.registerWrite
  | .rdwr => return fd.registerRead.registerWrite

def close (fd : FileDescriptor) (k : Kernel) : Except String FileDescriptor := do
  k.close fd
  return { fd with eof := true, closed := true }

/-- The bytes that came in, over all reads. -/
def bytesIn (fd : FileDescriptor) : List UInt8 := fd.received.flatten

/-- The bytes that went out, over all writes. -/
def bytesOut (fd : FileDescriptor) : List UInt8 := fd.sent.flatten

variable {fd : FileDescriptor} {k : Kernel}

/-- What a read makes of the descriptor. -/
structure Reads (fd : FileDescriptor) (limit : Nat) (str : List UInt8) (after : FileDescriptor) : Prop where
  size : str.length ≤ min bufferSize limit
  received : after.received = fd.received ++ [str]
  sent : after.sent = fd.sent
  counted : after.readCount = fd.readCount + 1
  writes : after.writeCount = fd.writeCount
  closed : after.closed = fd.closed
  eof : after.eof = true ↔ fd.eof = true ∨ 0 < limit ∧ str = []

/-- A read only fails when the kernel does. -/
theorem read_outcome (fd : FileDescriptor) (limit : Nat) (k : Kernel) :
    Outcome (fd.read limit k)
      (fun out => k.read fd (min bufferSize limit) = .ok out.1 ∧ Reads fd limit out.1 out.2) (¬ k.Lawful) := by
  rw [read]
  cases answer : k.read fd (min bufferSize limit) with
  | error message =>
    intro lawful
    obtain ⟨_, ok, _⟩ := lawful.read fd (min bufferSize limit)
    rw [answer] at ok
    cases ok
  | ok str =>
    change Outcome (ite _ _ _) _ _
    split
    · rename_i large
      intro lawful
      obtain ⟨_, ok, fits⟩ := lawful.read fd (min bufferSize limit)
      rw [answer] at ok
      cases ok
      omega
    · rename_i fits
      refine ⟨rfl, not_lt.mp fits, rfl, rfl, rfl, rfl, rfl, ?_⟩
      simp [markEof, registerRead]

/-- What writing makes of the descriptor: `n` bytes of the buffer went out, in
one or more pieces. -/
structure Writes (fd : FileDescriptor) (bytes : List UInt8) (n : Nat) (after : FileDescriptor) : Prop where
  size : n ≤ bytes.length
  sent : after.bytesOut = fd.bytesOut ++ bytes.take n
  received : after.received = fd.received
  reads : after.readCount = fd.readCount
  eof : after.eof = fd.eof
  closed : after.closed = fd.closed

theorem writeOnce_outcome (fd : FileDescriptor) (buffer : BufferViewList) (k : Kernel) :
    Outcome (fd.writeOnce buffer k)
      (fun out => Writes fd buffer.flatten out.1 out.2.2 ∧ out.2.1.flatten = buffer.flatten.drop out.1 ∧
        (buffer.size ≠ 0 → out.1 ≠ 0) ∧ out.2.2.writeCount = fd.writeCount + 1 ∧
        out.2.2.sent = fd.sent ++ [buffer.flatten.take out.1]) (¬ k.Lawful) := by
  rw [writeOnce]
  cases answer : k.writev fd buffer with
  | error message =>
    intro lawful
    obtain ⟨_, ok, _⟩ := lawful.writev fd buffer
    rw [answer] at ok
    cases ok
  | ok n =>
    have honest : k.Lawful → n ≤ buffer.size ∧ (buffer.size ≠ 0 → n ≠ 0) := by
      intro lawful
      obtain ⟨_, ok, bounds⟩ := lawful.writev fd buffer
      rw [answer] at ok
      cases ok
      exact bounds
    change Outcome (ite _ _ _) _ _
    split
    · rename_i nothing
      exact fun lawful => (honest lawful).2 nothing.2 nothing.1
    split
    · rename_i large
      exact fun lawful => absurd (honest lawful).1 (by omega)
    · rename_i some inside
      obtain ⟨rest, removed, content⟩ := BufferViewList.removePrefix_ok (not_lt.mp inside)
      rw [removed]
      have size := BufferViewList.size_eq buffer
      exact ⟨⟨by omega, by simp [bytesOut], rfl, rfl, rfl, rfl⟩, content,
        fun full empty => some ⟨empty, full⟩, rfl, rfl⟩

/-- Without `write_all` there is one turn. -/
theorem write_outcome (fd : FileDescriptor) (buffer : BufferViewList) (k : Kernel) :
    Outcome (fd.write buffer false k)
      (fun out => Writes fd buffer.flatten out.1 out.2 ∧ out.2.writeCount = fd.writeCount + 1)
      (¬ k.Lawful) := by
  rw [write, writeLoop]
  refine (fd.writeOnce_outcome buffer k).bind ?_
  rintro ⟨n, rest, after⟩ ⟨writes, _, _, counted, _⟩
  exact ⟨writes, counted⟩

theorem Writes.trans {bytes rest : List UInt8} {n m : Nat} {middle after : FileDescriptor}
    (first : Writes fd bytes n middle) (second : Writes middle rest m after)
    (left : rest = bytes.drop n) : Writes fd bytes (n + m) after := by
  have inside := first.size
  have more := second.size
  rw [left, List.length_drop] at more
  refine ⟨by omega, ?_, second.received.trans first.received, second.reads.trans first.reads,
    second.eof.trans first.eof, second.closed.trans first.closed⟩
  rw [second.sent, first.sent, left, List.append_assoc, List.take_add]

theorem writeLoop_outcome (k : Kernel) (fuel : Nat) (fd : FileDescriptor) (buffer : BufferViewList)
    (enough : buffer.size < fuel) :
    Outcome (fd.writeLoop true k fuel buffer)
      (fun out => out.1 = buffer.size ∧ Writes fd buffer.flatten buffer.size out.2) (¬ k.Lawful) := by
  induction fuel generalizing fd buffer with
  | zero => omega
  | succ fuel ih =>
    rw [writeLoop]
    refine (fd.writeOnce_outcome buffer k).bind ?_
    rintro ⟨n, rest, middle⟩ ⟨writes, left, progress, _⟩
    have total := BufferViewList.size_eq buffer
    have remaining := BufferViewList.size_eq rest
    have inside := writes.size
    simp only at left remaining inside
    rw [left, List.length_drop] at remaining
    change Outcome (ite _ _ _) _ _
    split
    · rename_i again
      have moved := progress (by omega)
      refine (ih middle rest (by omega)).bind ?_
      rintro ⟨m, after⟩ ⟨rfl, others⟩
      have whole : n + rest.size = buffer.size := by omega
      exact ⟨whole, by rw [← whole]; exact writes.trans others left⟩
    · rename_i done
      have whole : n = buffer.size := by
        simp only [true_and, not_not] at done
        omega
      exact ⟨whole, by rw [← whole]; exact writes⟩

/-- With `write_all`, every byte goes out, once and in order, however the kernel
cuts the writes; only the kernel can make it throw. -/
theorem write_all_outcome (fd : FileDescriptor) (buffer : BufferViewList) (k : Kernel) :
    Outcome (fd.write buffer true k)
      (fun out => out.1 = buffer.size ∧ out.2.bytesOut = fd.bytesOut ++ buffer.flatten ∧
        out.2.received = fd.received) (¬ k.Lawful) := by
  refine (writeLoop_outcome k _ fd buffer (Nat.lt_succ_self _)).weaken ?_
  rintro ⟨n, after⟩ ⟨rfl, writes⟩
  refine ⟨rfl, ?_, writes.received⟩
  rw [writes.sent, BufferViewList.size_eq, List.take_length]

theorem shutdown_outcome (fd : FileDescriptor) (k : Kernel) :
    Outcome (fd.shutdown .wr k) (· = fd.registerWrite) (¬ k.Lawful) := by
  rw [shutdown]
  cases answer : k.shutdown fd with
  | error message =>
    intro lawful
    rw [lawful.shutdown] at answer
    cases answer
  | ok done => rfl

theorem close_outcome (fd : FileDescriptor) (k : Kernel) :
    Outcome (fd.close k) (· = { fd with eof := true, closed := true }) (¬ k.Lawful) := by
  rw [close]
  cases answer : k.close fd with
  | error message =>
    intro lawful
    rw [lawful.close] at answer
    cases answer
  | ok done => rfl

end FileDescriptor
end Sponge
