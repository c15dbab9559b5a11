import Sponge.EventLoop
import Sponge.ByteStream

/-! `bidirectional_stream_copy`: standard input is copied to a socket and the
socket to standard output, by four rules over two byte streams. -/
namespace Sponge
open EventLoop

structure StreamCopy where
  socket : FileDescriptor
  input : FileDescriptor := {}
  output : FileDescriptor := {}
  outbound : ByteStream
  inbound : ByteStream
  outboundShutdown : Bool := false
  inboundShutdown : Bool := false

namespace StreamCopy

def maxCopyLength : Nat := 65536

def bufferSize : Nat := 1048576

/-- The socket is the caller's and may have been used before. -/
def start (socket : FileDescriptor) : StreamCopy where
  socket := socket
  outbound := .new bufferSize
  inbound := .new bufferSize

/-- The four rules, in the order in which they are added. -/
inductive Key where
  | readInput
  | writeSocket
  | readSocket
  | writeOutput
deriving DecidableEq, Repr

def rules : List Key := [.readInput, .writeSocket, .readSocket, .writeOutput]

/-- The callbacks that read: what fits the stream, and the end of the file. -/
def fill (fd : FileDescriptor) (stream : ByteStream) (k : Kernel) :
    Except String (FileDescriptor × ByteStream) := do
  let (data, fd) ← fd.read stream.remainingCapacity k
  let stream := (stream.write data).2
  return (fd, if fd.eof then stream.endInput else stream)

/-- The callbacks that write: only what was written is popped. -/
def drain (fd : FileDescriptor) (stream : ByteStream) (k : Kernel) :
    Except String (FileDescriptor × ByteStream) := do
  let bytesToWrite := min maxCopyLength stream.bufferSize
  let (bytesWritten, fd) ← fd.write [stream.peekOutput bytesToWrite] false k
  return (fd, stream.popOutput bytesWritten)

def rule : Key → Rule StreamCopy Kernel
  | .readInput => {
      fd := input
      direction := .input
      callback := fun k s => do
        let (input, outbound) ← fill s.input s.outbound k
        return { s with input, outbound }
      interest := fun s =>
        !s.outbound.error && decide (s.outbound.remainingCapacity > 0) && !s.inbound.error
      cancel := fun s => { s with outbound := s.outbound.endInput } }
  | .writeSocket => {
      fd := socket
      direction := .output
      callback := fun k s => do
        let (socket, outbound) ← drain s.socket s.outbound k
        if outbound.eof then
          return { s with socket := ← socket.shutdown .wr k, outbound, outboundShutdown := true }
        else return { s with socket, outbound }
      interest := fun s => !s.outbound.bufferEmpty || (s.outbound.eof && !s.outboundShutdown)
      cancel := fun s => { s with outbound := s.outbound.setError } }
  | .readSocket => {
      fd := socket
      direction := .input
      callback := fun k s => do
        let (socket, inbound) ← fill s.socket s.inbound k
        return { s with socket, inbound }
      interest := fun s =>
        !s.inbound.error && decide (s.inbound.remainingCapacity > 0) && !s.outbound.error
      cancel := fun s => { s with inbound := s.inbound.endInput } }
  | .writeOutput => {
      fd := output
      direction := .output
      callback := fun k s => do
        let (output, inbound) ← drain s.output s.inbound k
        if inbound.eof then
          return { s with output := ← output.close k, inbound, inboundShutdown := true }
        else return { s with output, inbound }
      interest := fun s => !s.inbound.bufferEmpty || (s.inbound.eof && !s.inboundShutdown)
      cancel := fun s => { s with inbound := s.inbound.setError } }

/-- What the kernel has answered so far decides how far the copy has come. -/
def copy (socket : FileDescriptor) (polls : List (Poll Key Kernel)) :
    Except String (Bool × Loop Key StreamCopy) :=
  untilExit rule polls ⟨rules, start socket⟩

variable {fd : FileDescriptor} {stream : ByteStream} {k : Kernel}

/-- What one callback that reads does. -/
structure Fills (fd : FileDescriptor) (stream : ByteStream) (after : FileDescriptor) (full : ByteStream) :
    Prop where
  bytes : ∃ data, after.bytesIn = fd.bytesIn ++ data ∧ full.buffer = stream.buffer ++ data
  out : after.bytesOut = fd.bytesOut
  counted : fd.readCount ≠ after.readCount
  closed : after.closed = fd.closed
  stays : fd.eof = true → after.eof = true
  capacity : full.capacity = stream.capacity
  error : full.error = stream.error
  inputEnd : full.inputEnd = true ↔ stream.inputEnd = true ∨ after.eof = true

theorem fill_outcome (fd : FileDescriptor) (stream : ByteStream) (k : Kernel) :
    Outcome (fill fd stream k) (fun out => Fills fd stream out.1 out.2) (¬ k.Lawful) := by
  refine (fd.read_outcome _ k).bind ?_
  rintro ⟨data, after⟩ ⟨_, reads⟩
  dsimp only at reads
  -- The read was limited by the room, so the write takes all of it.
  have size := reads.size
  have inside := stream.fits
  rw [ByteStream.remainingCapacity, ByteStream.bufferSize] at size
  have whole := stream.writeLen_of_fits data (by omega)
  have bytes : ∃ more, after.bytesIn = fd.bytesIn ++ more ∧
      (stream.write data).2.buffer = stream.buffer ++ more := by
    refine ⟨data, by simp [FileDescriptor.bytesIn, reads.received], ?_⟩
    simp [ByteStream.write, whole]
  have out : after.bytesOut = fd.bytesOut := by rw [FileDescriptor.bytesOut, reads.sent, FileDescriptor.bytesOut]
  have counted : fd.readCount ≠ after.readCount := by
    rw [reads.counted]
    simp
  have stays : fd.eof = true → after.eof = true := fun ended => reads.eof.mpr (Or.inl ended)
  cases ended : after.eof with
  | true =>
    simp only [ended, if_true]
    exact ⟨bytes, out, counted, reads.closed, stays, rfl, rfl, by simp [ByteStream.endInput, ended]⟩
  | false =>
    simp only [ended]
    exact ⟨bytes, out, counted, reads.closed, stays, rfl, rfl, by simp [ByteStream.write, ended]⟩

/-- What one callback that writes does. -/
structure Drains (fd : FileDescriptor) (stream : ByteStream) (after : FileDescriptor) (rest : ByteStream) :
    Prop where
  bytes : after.bytesOut ++ rest.buffer = fd.bytesOut ++ stream.buffer
  buffer : stream.buffer = [] → rest.buffer = []
  received : after.bytesIn = fd.bytesIn
  counted : after.writeCount = fd.writeCount + 1
  closed : after.closed = fd.closed
  eof : after.eof = fd.eof
  capacity : rest.capacity = stream.capacity
  error : rest.error = stream.error
  inputEnd : rest.inputEnd = stream.inputEnd

theorem drain_outcome (fd : FileDescriptor) (stream : ByteStream) (k : Kernel) :
    Outcome (drain fd stream k) (fun out => Drains fd stream out.1 out.2) (¬ k.Lawful) := by
  refine (fd.write_outcome _ k).bind ?_
  rintro ⟨n, after⟩ ⟨writes, counted⟩
  dsimp only at writes counted
  have size := writes.size
  have sent := writes.sent
  simp only [List.flatten_cons, List.flatten_nil, List.append_nil, ByteStream.peekOutput,
    List.take_take, List.length_take] at size sent
  have cut : stream.clampLen n = n := by
    rw [ByteStream.clampLen_eq]
    omega
  have popped : (stream.popOutput n).buffer = stream.buffer.drop n := by
    change stream.buffer.drop (stream.clampLen n) = _
    rw [cut]
  refine ⟨?_, ?_, by rw [FileDescriptor.bytesIn, writes.received, FileDescriptor.bytesIn], counted,
    writes.closed, writes.eof, rfl, rfl, rfl⟩
  · dsimp only
    rw [sent, min_eq_left (by omega), popped, List.append_assoc, List.take_append_drop]
  · intro empty
    dsimp only
    rw [popped, empty, List.drop_nil]

/-- One direction of the copy: what a rule read from `source` and the other wrote
to `sink`, with the bytes that both had behind them, and when either rule is gone. -/
structure Pipe (hangs : Key → Prop) (live : List Key) (polled : List (Key × Bool)) (reader writer : Key)
    (before offset : List UInt8) (source sink : FileDescriptor) (stream : ByteStream) (down : Bool) : Prop where
  bytes : before ++ sink.bytesOut ++ stream.buffer = offset ++ source.bytesIn
  capacity : stream.capacity = bufferSize
  opened : source.closed = false
  asked : ∀ p ∈ polled, p.1 = reader → source.eof = false
  ended : stream.inputEnd = true → source.eof = true ∨ reader ∉ live
  error : stream.error = true → writer ∉ live
  eof : down = true → stream.eof = true
  closes : sink.closed = true → down = true
  readerGone : reader ∉ live → stream.inputEnd = true ∧ (source.eof = true ∨ hangs reader)
  writerGone : writer ∉ live → stream.error = true ∧ (sink.closed = true ∨ hangs writer)

namespace Pipe

variable {hangs : Key → Prop} {live left : List Key} {polled rest : List (Key × Bool)} {reader writer : Key}
  {before offset : List UInt8} {source sink after : FileDescriptor} {full : ByteStream} {down : Bool}

/-- The flow of one direction is left alone, and so are its two rules. -/
theorem frame (pipe : Pipe hangs live polled reader writer before offset source sink stream down)
    (readers : reader ∈ live ↔ reader ∈ left) (writers : writer ∈ live ↔ writer ∈ left)
    (fewer : rest ⊆ polled) : Pipe hangs left rest reader writer before offset source sink stream down where
  __ := pipe
  asked p member := pipe.asked p (fewer member)
  ended := by
    rw [← readers]
    exact pipe.ended
  error := by
    rw [← writers]
    exact pipe.error
  readerGone := by
    rw [← readers]
    exact pipe.readerGone
  writerGone := by
    rw [← writers]
    exact pipe.writerGone

/-- The other direction writes to the source or reads from the sink. -/
theorem others (pipe : Pipe hangs live polled reader writer before offset source sink stream down)
    {far near : FileDescriptor} (received : far.bytesIn = source.bytesIn) (farEof : far.eof = source.eof)
    (farClosed : far.closed = source.closed) (sent : near.bytesOut = sink.bytesOut)
    (nearClosed : near.closed = sink.closed) :
    Pipe hangs live polled reader writer before offset far near stream down where
  __ := pipe
  bytes := by
    rw [received, sent]
    exact pipe.bytes
  opened := farClosed.trans pipe.opened
  asked p member same := farEof.trans (pipe.asked p member same)
  ended := by
    rw [farEof]
    exact pipe.ended
  closes := by
    rw [nearClosed]
    exact pipe.closes
  readerGone := by
    rw [farEof]
    exact pipe.readerGone
  writerGone := by
    rw [nearClosed]
    exact pipe.writerGone

/-- A rule is polled only while its source has not ended. -/
theorem polls (pipe : Pipe hangs live polled reader writer before offset source sink stream down) {k : Key}
    (flag : Bool) (going : k = reader → source.eof = false) :
    Pipe hangs live (polled ++ [(k, flag)]) reader writer before offset source sink stream down where
  __ := pipe
  asked p member same := by
    rcases List.mem_append.mp member with old | new
    · exact pipe.asked p old same
    · rw [List.mem_singleton.mp new] at same
      exact going same

/-- The reader is served: it is polled, so its source had not ended. -/
theorem fills (pipe : Pipe hangs live ((reader, true) :: rest) reader writer before offset source sink stream down)
    (distinct : ∀ p ∈ rest, p.1 ≠ reader) (member : reader ∈ live) (fills : Fills source stream after full) :
    Pipe hangs live rest reader writer before offset after sink full down := by
  obtain ⟨data, received, buffered⟩ := fills.bytes
  have going := pipe.asked _ List.mem_cons_self rfl
  have unended : stream.inputEnd = false := by
    rw [← Bool.not_eq_true]
    intro ended
    rcases pipe.ended ended with eof | absent
    · simp [going] at eof
    · exact absent member
  refine ⟨?_, fills.capacity.trans pipe.capacity, fills.closed.trans pipe.opened,
    fun p polled same => absurd same (distinct p polled), ?_, ?_, ?_, pipe.closes,
    fun absent => absurd member absent, ?_⟩
  · rw [received, buffered, ← List.append_assoc, pipe.bytes, List.append_assoc]
  · intro ended
    exact Or.inl ((fills.inputEnd.mp ended).resolve_left (by simp [unended]))
  · rw [fills.error]
    exact pipe.error
  · intro isDown
    have := (stream.eof_iff.mp (pipe.eof isDown)).2
    simp [unended] at this
  · rw [fills.error]
    exact pipe.writerGone

/-- The writer is served, and may shut the sink down at the end of the stream. -/
theorem drains (pipe : Pipe hangs live polled reader writer before offset source sink stream down)
    {drained : ByteStream} (drains : Drains sink stream after drained) :
    Pipe hangs live polled reader writer before offset source after drained down where
  bytes := by
    rw [List.append_assoc, drains.bytes, ← List.append_assoc]
    exact pipe.bytes
  capacity := drains.capacity.trans pipe.capacity
  opened := pipe.opened
  asked := pipe.asked
  ended := by
    rw [drains.inputEnd]
    exact pipe.ended
  error := by
    rw [drains.error]
    exact pipe.error
  eof isDown := by
    obtain ⟨empty, ended⟩ := stream.eof_iff.mp (pipe.eof isDown)
    exact drained.eof_iff.mpr ⟨drains.buffer empty, drains.inputEnd.trans ended⟩
  closes closed := pipe.closes (drains.closed.symm.trans closed)
  readerGone := by
    rw [drains.inputEnd]
    exact pipe.readerGone
  writerGone := by
    rw [drains.error, drains.closed]
    exact pipe.writerGone

theorem shuts (pipe : Pipe hangs live polled reader writer before offset source sink stream down)
    (ended : stream.eof = true) (sent : after.bytesOut = sink.bytesOut)
    (closed : sink.closed = true → after.closed = true) :
    Pipe hangs live polled reader writer before offset source after stream true where
  __ := pipe
  bytes := by
    rw [sent]
    exact pipe.bytes
  eof _ := ended
  closes _ := rfl
  writerGone absent := ⟨(pipe.writerGone absent).1, (pipe.writerGone absent).2.imp_left closed⟩

/-- The reader is cancelled. -/
theorem readerCancelled (pipe : Pipe hangs live polled reader writer before offset source sink stream down)
    (why : source.eof = true ∨ hangs reader) (absent : reader ∉ left)
    (writers : writer ∈ live ↔ writer ∈ left) (fewer : rest ⊆ polled) :
    Pipe hangs left rest reader writer before offset source sink stream.endInput down where
  bytes := pipe.bytes
  capacity := pipe.capacity
  opened := pipe.opened
  asked p member := pipe.asked p (fewer member)
  ended _ := Or.inr absent
  error := by
    rw [← writers]
    exact pipe.error
  eof isDown := (ByteStream.eof_iff _).mpr ⟨(stream.eof_iff.mp (pipe.eof isDown)).1, rfl⟩
  closes := pipe.closes
  readerGone _ := ⟨rfl, why⟩
  writerGone := by
    rw [← writers]
    exact pipe.writerGone

/-- The writer is cancelled. -/
theorem writerCancelled (pipe : Pipe hangs live polled reader writer before offset source sink stream down)
    (why : sink.closed = true ∨ hangs writer) (absent : writer ∉ left)
    (readers : reader ∈ live ↔ reader ∈ left) (fewer : rest ⊆ polled) :
    Pipe hangs left rest reader writer before offset source sink stream.setError down where
  bytes := pipe.bytes
  capacity := pipe.capacity
  opened := pipe.opened
  asked p member := pipe.asked p (fewer member)
  ended := by
    rw [← readers]
    exact pipe.ended
  error _ := absent
  eof := pipe.eof
  closes := pipe.closes
  readerGone := by
    rw [← readers]
    exact pipe.readerGone
  writerGone _ := ⟨rfl, why⟩

end Pipe

/-- Both directions, and what the rules still to come can rely on. -/
structure Copying (socket : FileDescriptor) (hangs : Key → Prop) (live : List Key) (polled : List (Key × Bool))
    (s : StreamCopy) : Prop where
  outbound : Pipe hangs live polled .readInput .writeSocket [] socket.bytesOut s.input s.socket s.outbound
    s.outboundShutdown
  inbound : Pipe hangs live polled .readSocket .writeOutput socket.bytesIn [] s.socket s.output s.inbound
    s.inboundShutdown
  distinct : live.Nodup
  turns : (polled.map Prod.fst).Nodup
  outputClosed : s.inboundShutdown = true → s.output.closed = true

namespace Copying

variable {socket : FileDescriptor} {hangs : Key → Prop} {live before after : List Key}
  {polled rest : List (Key × Bool)} {s : StreamCopy} {key : Key}

theorem start (socket : FileDescriptor) (opened : socket.closed = false) :
    Copying socket hangs rules [] (start socket) := by
  refine ⟨⟨?_, rfl, rfl, by simp, ?_, ?_, ?_, ?_, ?_, ?_⟩, ⟨?_, rfl, opened, by simp, ?_, ?_, ?_, ?_, ?_, ?_⟩,
    by decide, List.nodup_nil, by simp [StreamCopy.start]⟩
  all_goals simp [StreamCopy.start, ByteStream.new, FileDescriptor.bytesIn, FileDescriptor.bytesOut, rules, opened]

theorem mem_cut {j : Key} (other : j ≠ key) : j ∈ before ++ key :: after ↔ j ∈ before ++ after := by
  simp [other]

theorem poll (copying : Copying socket hangs (polled.map Prod.fst ++ key :: after) polled s)
    (stays : (rule key).defunct s = false) :
    Copying socket hangs (polled.map Prod.fst ++ key :: after) (polled ++ [(key, (rule key).interest s)]) s := by
  refine ⟨copying.outbound.polls _ ?_, copying.inbound.polls _ ?_, copying.distinct, ?_, copying.outputClosed⟩
  · rintro rfl
    simpa [rule, Rule.defunct, copying.outbound.opened] using stays
  · rintro rfl
    simpa [rule, Rule.defunct, copying.inbound.opened] using stays
  · have distinct := copying.distinct
    rw [List.nodup_append] at distinct
    rw [List.map_append, List.nodup_append]
    refine ⟨copying.turns, by simp, fun j member k new => ?_⟩
    have same : k = key := by simpa using new
    rw [same]
    exact distinct.2.2 j member key List.mem_cons_self

/-- A rule is cancelled because its descriptor is done for, or hangs up. -/
theorem cancelled (copying : Copying socket hangs (before ++ key :: after) polled s)
    (why : (rule key).defunct s = true ∨ hangs key) (fewer : rest.Sublist polled) :
    Copying socket hangs (before ++ after) rest ((rule key).cancel s) := by
  have absent : key ∉ before ++ after := by
    have distinct := copying.distinct
    rw [List.nodup_middle, List.nodup_cons] at distinct
    exact distinct.1
  have distinct := copying.distinct.sublist ((List.sublist_cons_self key after).append_left before)
  have turns := copying.turns.sublist (fewer.map Prod.fst)
  have outbound := copying.outbound
  have inbound := copying.inbound
  have opened := inbound.opened
  cases key with
  | readInput =>
    refine ⟨outbound.readerCancelled ?_ absent (mem_cut (by simp)) fewer.subset,
      inbound.frame (mem_cut (by simp)) (mem_cut (by simp)) fewer.subset, distinct, turns, copying.outputClosed⟩
    simpa [rule, Rule.defunct, outbound.opened] using why
  | writeSocket =>
    refine ⟨outbound.writerCancelled ?_ absent (mem_cut (by simp)) fewer.subset,
      inbound.frame (mem_cut (by simp)) (mem_cut (by simp)) fewer.subset, distinct, turns, copying.outputClosed⟩
    simpa [rule, Rule.defunct] using why
  | readSocket =>
    refine ⟨outbound.frame (mem_cut (by simp)) (mem_cut (by simp)) fewer.subset,
      inbound.readerCancelled ?_ absent (mem_cut (by simp)) fewer.subset, distinct, turns, copying.outputClosed⟩
    simpa [rule, Rule.defunct, opened] using why
  | writeOutput =>
    refine ⟨outbound.frame (mem_cut (by simp)) (mem_cut (by simp)) fewer.subset,
      inbound.writerCancelled ?_ absent (mem_cut (by simp)) fewer.subset, distinct, turns, copying.outputClosed⟩
    simpa [rule, Rule.defunct] using why

/-- The rules that have been gone through do not matter any more. -/
theorem skip {p : Key × Bool} (copying : Copying socket hangs live (p :: rest) s) :
    Copying socket hangs live rest s :=
  ⟨copying.outbound.frame Iff.rfl Iff.rfl (List.subset_cons_self _ _),
    copying.inbound.frame Iff.rfl Iff.rfl (List.subset_cons_self _ _), copying.distinct,
    (List.nodup_cons.mp copying.turns).2, copying.outputClosed⟩

/-- No callback waits busily, and none throws unless the kernel fails. -/
theorem service (copying : Copying socket hangs live ((key, true) :: rest) s) (member : key ∈ live)
    (k : Kernel) : Outcome ((rule key).service k s) (Copying socket hangs live rest) (¬ k.Lawful) := by
  have others : ∀ p ∈ rest, p.1 ≠ key := by
    intro p polled same
    exact (List.nodup_cons.mp copying.turns).1 (List.mem_map.mpr ⟨p, polled, same⟩)
  have quiet := copying.skip
  suffices callback : Outcome ((rule key).callback k s)
      (fun t => Copying socket hangs live rest t ∧ (rule key).serviceCount s ≠ (rule key).serviceCount t)
      (¬ k.Lawful) from
    (Rule.service_outcome callback (fun _ done => Or.inl done.2)).weaken (fun _ done => done.1)
  cases key with
  | readInput =>
    refine (fill_outcome s.input s.outbound k).bind ?_
    rintro ⟨input, outbound⟩ fills
    exact ⟨{ quiet with outbound := copying.outbound.fills others member fills }, fills.counted⟩
  | writeSocket =>
    refine (drain_outcome s.socket s.outbound k).bind ?_
    rintro ⟨socket, outbound⟩ drains
    have sent := quiet.outbound.drains drains
    have received := quiet.inbound.others drains.received drains.eof drains.closed rfl rfl
    have counted := drains.counted
    change Outcome (ite _ _ _) _ _
    split
    · rename_i ended
      refine (socket.shutdown_outcome k).bind ?_
      rintro _ rfl
      refine ⟨{ quiet with
        outbound := sent.shuts ended rfl id
        inbound := received.others rfl rfl rfl rfl rfl }, ?_⟩
      simp only [Rule.serviceCount, rule, FileDescriptor.registerWrite] at counted ⊢
      rw [counted]
      simp [UInt32.add_assoc]
    · refine ⟨{ quiet with outbound := sent, inbound := received }, ?_⟩
      simp only [Rule.serviceCount, rule] at counted ⊢
      rw [counted]
      simp
  | readSocket =>
    refine (fill_outcome s.socket s.inbound k).bind ?_
    rintro ⟨socket, inbound⟩ fills
    exact ⟨{ quiet with
      outbound := quiet.outbound.others rfl rfl rfl fills.out fills.closed
      inbound := copying.inbound.fills others member fills }, fills.counted⟩
  | writeOutput =>
    refine (drain_outcome s.output s.inbound k).bind ?_
    rintro ⟨output, inbound⟩ drains
    have sent := quiet.inbound.drains drains
    have counted := drains.counted
    change Outcome (ite _ _ _) _ _
    split
    · rename_i ended
      refine (output.close_outcome k).bind ?_
      rintro _ rfl
      refine ⟨{ quiet with
        inbound := sent.shuts ended rfl (fun _ => rfl)
        outputClosed := fun _ => rfl }, ?_⟩
      simp only [Rule.serviceCount, rule] at counted ⊢
      rw [counted]
      simp
    · refine ⟨{ quiet with
        inbound := sent
        outputClosed := fun isDown => drains.closed.trans (copying.outputClosed isDown) }, ?_⟩
      simp only [Rule.serviceCount, rule] at counted ⊢
      rw [counted]
      simp

theorem discipline (socket : FileDescriptor) (hangs : Key → Prop) :
    Discipline rule (Copying socket hangs) hangs (fun _ _ => True) (fun k => ¬ k.Lawful) where
  poll _ stays copying := copying.poll stays
  defunct _ gone copying := copying.cancelled (Or.inl gone) (.refl _)
  hangup _ hup copying := copying.cancelled (Or.inr hup) (List.sublist_cons_self _ _)
  service _ answer _ member copying := copying.service member answer
  skip copying := copying.skip

end Copying

/-- A rule of the copy is cancelled because it is asked for and only hangs up. -/
def Hangs (socket : FileDescriptor) (polls : List (Poll Key Kernel)) (key : Key) : Prop :=
  RunHangsUp rule polls ⟨rules, start socket⟩ key

theorem copy_copying (socket : FileDescriptor) (polls : List (Poll Key Kernel))
    (opened : socket.closed = false) :
    Outcome (copy socket polls) (fun out => Copying socket (Hangs socket polls) out.2.rules [] out.2.data)
      (∃ poll ∈ polls, poll.Guilty (fun k => ¬ k.Lawful)) :=
  (Copying.discipline socket (Hangs socket polls)).untilExit polls (fun poll _ => poll.fair_any) _
    (fun _ hup => hup) (Copying.start socket opened)

/-- The copy loses, repeats and reorders nothing in either direction, whatever the
kernel reports and however it cuts reads and writes; it shuts a side down only
after its last byte, and it throws only if `poll` or a system call fails. -/
theorem copy_faithful (socket : FileDescriptor) (polls : List (Poll Key Kernel))
    (opened : socket.closed = false) :
    Outcome (copy socket polls)
      (fun out =>
        out.2.data.socket.bytesOut ++ out.2.data.outbound.buffer =
            socket.bytesOut ++ out.2.data.input.bytesIn ∧
          socket.bytesIn ++ out.2.data.output.bytesOut ++ out.2.data.inbound.buffer =
            out.2.data.socket.bytesIn ∧
          out.2.data.outbound.buffer.length ≤ bufferSize ∧ out.2.data.inbound.buffer.length ≤ bufferSize ∧
          (out.2.data.outboundShutdown = true → out.2.data.outbound.eof = true) ∧
          (out.2.data.output.closed = true → out.2.data.inbound.eof = true))
      (∃ poll ∈ polls, poll.Guilty (fun k => ¬ k.Lawful)) := by
  refine (copy_copying socket polls opened).weaken ?_
  rintro ⟨returned, l⟩ copying
  have outbound := copying.outbound
  have inbound := copying.inbound
  refine ⟨by simpa using outbound.bytes, by simpa using inbound.bytes, ?_, ?_, outbound.eof,
    fun closed => inbound.eof (inbound.closes closed)⟩
  · exact outbound.capacity ▸ l.data.outbound.fits
  · exact inbound.capacity ▸ l.data.inbound.fits

/-- An error on either stream ends the interest of both readers, and the end of a
stream wakes only the writer behind the reader. -/
theorem settles : Settles rule rules := by
  refine .cons ?_ (.cons ?_ (.cons ?_ (.cons ?_ .nil)))
  · intro k member s quiet
    cases k with
    | readInput => simp at member
    | readSocket => exact quiet
    | writeSocket | writeOutput => exact ⟨by simp [rule, ByteStream.setError], quiet.2⟩
  · intro k member s quiet
    cases k with
    | readInput | writeSocket => simp at member
    | readSocket | writeOutput => exact quiet
  · intro k member s quiet
    cases k with
    | writeOutput => exact ⟨by simp [rule, ByteStream.setError], quiet.2⟩
    | _ => simp at member
  · simp

/-- A direction whose writer is quiet or gone has nothing left to deliver. -/
theorem Pipe.flushed {hangs : Key → Prop} {live : List Key} {reader writer : Key} {before offset : List UInt8}
    {source sink : FileDescriptor} {down : Bool}
    (pipe : Pipe hangs live [] reader writer before offset source sink stream down)
    (quiet : writer ∈ live → stream.bufferEmpty = true ∧ (stream.eof = true → down = true)) :
    hangs writer ∨ stream.buffer = [] := by
  by_cases member : writer ∈ live
  · exact Or.inr (stream.bufferEmpty_iff.mp (quiet member).1)
  · obtain ⟨_, closed | hup⟩ := pipe.writerGone member
    · exact Or.inr (stream.eof_iff.mp (pipe.eof (pipe.closes closed))).1
    · exact Or.inl hup

/-- When the copy returns by itself, standard output is closed behind all that the
socket had to say, and the socket has all that was read from standard input,
unless the rule that writes to one of the two was cancelled by a hangup. -/
theorem copy_finished (socket : FileDescriptor) (polls : List (Poll Key Kernel)) (l : Loop Key StreamCopy)
    (opened : socket.closed = false) (uninterrupted : ∀ poll ∈ polls, poll ≠ .interrupted)
    (returned : copy socket polls = .ok (true, l)) :
    (Hangs socket polls .writeSocket ∨ l.data.socket.bytesOut = socket.bytesOut ++ l.data.input.bytesIn) ∧
      (Hangs socket polls .writeOutput ∨ socket.bytesIn ++ l.data.output.bytesOut = l.data.socket.bytesIn) ∧
      (Hangs socket polls .writeSocket ∨ Hangs socket polls .writeOutput ∨ l.data.output.closed = true ∧
        (Hangs socket polls .readSocket ∨ l.data.socket.eof = true)) := by
  have copying := (copy_copying socket polls opened).of_ok returned
  have quiet := (untilExit_quiet settles).of_ok returned uninterrupted rfl
  obtain ⟨s, eq⟩ : ∃ s, s = l.data := ⟨_, rfl⟩
  simp only [← eq] at copying quiet ⊢
  have outbound := copying.outbound
  have inbound := copying.inbound
  have writeSocket : .writeSocket ∈ l.rules → s.outbound.bufferEmpty = true ∧
      (s.outbound.eof = true → s.outboundShutdown = true) := by
    intro member
    have := (quiet _ member).1
    simpa [rule, Bool.or_eq_false_iff] using this
  have writeOutput : .writeOutput ∈ l.rules → s.inbound.bufferEmpty = true ∧
      (s.inbound.eof = true → s.inboundShutdown = true) := by
    intro member
    have := (quiet _ member).1
    simpa [rule, Bool.or_eq_false_iff] using this
  have sent := outbound.flushed writeSocket
  have written := inbound.flushed writeOutput
  refine ⟨sent.imp_right (fun empty => ?_), written.imp_right (fun empty => ?_), ?_⟩
  · simpa [empty] using outbound.bytes
  · simpa [empty] using inbound.bytes
  rcases written with hup | flushed
  · exact Or.inr (Or.inl hup)
  have healthy : ∀ {stream : ByteStream} {writer}, (stream.error = true → writer ∉ l.rules) →
      writer ∈ l.rules → stream.error = false := by
    intro stream writer error member
    rw [← Bool.not_eq_true]
    exact fun set => error set member
  by_cases output : .writeOutput ∈ l.rules
  · by_cases out : .writeSocket ∈ l.rules
    · -- With both writers there, a reader of the socket would be interested, so there
      -- is none; then the end of the stream has closed standard output.
      exfalso
      have reader : .readSocket ∉ l.rules := by
        intro member
        have idle := (quiet _ member).1
        have room : s.inbound.remainingCapacity > 0 := by
          rw [ByteStream.remainingCapacity, ByteStream.bufferSize, flushed, inbound.capacity]
          decide
        simp [rule, healthy inbound.error output, healthy outbound.error out, room] at idle
      have ended := s.inbound.eof_iff.mpr ⟨flushed, (inbound.readerGone reader).1⟩
      have closed := copying.outputClosed ((writeOutput output).2 ended)
      have stays := (quiet _ output).2
      simp [rule, Rule.defunct, closed] at stays
    · obtain ⟨_, closed | hup⟩ := outbound.writerGone out
      · simp [inbound.opened] at closed
      · exact Or.inl hup
  · obtain ⟨_, closed | hup⟩ := inbound.writerGone output
    · refine Or.inr (Or.inr ⟨closed, ?_⟩)
      have ended := (s.inbound.eof_iff.mp (inbound.eof (inbound.closes closed))).2
      rcases inbound.ended ended with eof | absent
      · exact Or.inr eof
      · exact (inbound.readerGone absent).2.symm
    · exact Or.inr (Or.inl hup)

/-- One read gives the bytes, the next one is the end; every write is taken whole. -/
def oneRead (bytes : List UInt8) : Kernel where
  read fd _ := .ok (if fd.received = [] then bytes else [])
  writev _ views := .ok views.size
  shutdown _ := .ok ()
  close _ := .ok ()

/-- Three turns with every descriptor ready: two bytes come in on standard input
and one on the socket. -/
def smallCopy : List (Poll Key Kernel) :=
  List.replicate 3 (.ready (fun _ => { event := true })
    (fun key => oneRead (if key = .readInput then [104, 105] else [33])))

theorem copy_faithful_small :
    ∃ out, copy {} smallCopy = .ok out ∧ out.2.data.socket.bytesOut = [104, 105] ∧
      out.2.data.outboundShutdown = true ∧ out.2.data.outbound.eof = true := by
  have outcome := copy_faithful {} smallCopy rfl
  exact ⟨_, rfl, rfl, rfl, (outcome.of_ok rfl).2.2.2.2.1 rfl⟩

theorem copy_finished_small :
    ∃ l, copy {} smallCopy = .ok (true, l) ∧ l.data.output.bytesOut = [33] ∧
      (Hangs {} smallCopy .writeOutput ∨ l.data.output.bytesOut = l.data.socket.bytesIn) := by
  have calm : ∀ poll ∈ smallCopy, poll ≠ .interrupted := by
    intro poll member
    rw [List.eq_of_mem_replicate member]
    simp
  exact ⟨_, rfl, rfl, (copy_finished {} smallCopy _ rfl calm rfl).2.1⟩

end StreamCopy
end Sponge
