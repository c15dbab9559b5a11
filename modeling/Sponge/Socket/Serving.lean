import Sponge.Socket
import Sponge.Adapter.Honest
import Sponge.TCP.Emission
import Sponge.TCP.NoLoss

/-! What one turn of a socket's thread does. Every callback, every cancellation and
every tick is a sequence of acts of an endpoint whose application wrote what
`threadData` was read for and was given what was written to it; and the adapter
gets the segments of the connection's queue, each once and in order. -/
namespace Sponge
open EventLoop TCPConnection

namespace TCPSpongeSocket

variable {α δ : Type}

/-- The connection, with what its application wrote, was given, and has ended. -/
def endpoint (s : TCPSpongeSocket α) : Endpoint :=
  ⟨s.tcp, s.threadData.bytesIn, s.threadData.bytesOut, s.outboundShutdown⟩

/-- Endpoints in `R` stay there, as long as the network delivers only segments that
are `offered` and the application does not write after the end. -/
structure Steady (offered : TCPSegment → Prop) (R : Endpoint → Prop) : Prop where
  outbound : ∀ {e}, R e → Outbound e.accepted e.conn
  sendable : ∀ {e}, R e → e.conn.Sendable
  step : ∀ {e} act, R e → e.Orderly act → (∀ seg, act = .deliver seg → offered seg) → R (e.step act)

section Rules

/-- What the loop keeps about its rules: the descriptor to the application is read
only while the outbound stream goes on, and a rule that ended or hung up is gone. -/
structure Ruled (hangs : Key → Prop) (live : List Key) (polled : List (Key × Bool)) (down : Bool) : Prop where
  distinct : live.Nodup
  turns : (polled.map Prod.fst).Nodup
  going : (.readData, true) ∈ polled → .readData ∈ live → down = false
  reader : .readData ∉ live → down = true
  writer : .writeData ∉ live → hangs .writeData
  sender : .transmit ∉ live → hangs .transmit

variable {hangs : Key → Prop} {live before after : List Key} {polled rest : List (Key × Bool)} {down : Bool}
  {key : Key}

theorem ruled_start (hangs : Key → Prop) (down : Bool) : Ruled hangs rules [] down where
  distinct := by decide
  turns := List.nodup_nil
  going asked := by cases asked
  reader absent := absurd (by decide) absent
  writer absent := absurd (by decide) absent
  sender absent := absurd (by decide) absent

theorem Ruled.poll (ruled : Ruled hangs (polled.map Prod.fst ++ key :: after) polled down) {asked : Bool}
    (going : key = .readData → asked = true → down = false) :
    Ruled hangs (polled.map Prod.fst ++ key :: after) (polled ++ [(key, asked)]) down :=
  { ruled with
    turns := by
      have distinct := ruled.distinct
      rw [List.nodup_append] at distinct
      rw [List.map_append, List.nodup_append]
      refine ⟨ruled.turns, by simp, fun j member k new => ?_⟩
      have same : k = key := by simpa using new
      rw [same]
      exact distinct.2.2 j member key List.mem_cons_self
    going := fun member inside => by
      rcases List.mem_append.mp member with old | new
      · exact ruled.going old inside
      · cases List.mem_singleton.mp new
        exact going rfl rfl }

theorem Ruled.skip {p : Key × Bool} (ruled : Ruled hangs live (p :: rest) down) : Ruled hangs live rest down :=
  { ruled with
    turns := (List.nodup_cons.mp ruled.turns).2
    going := fun member => ruled.going (List.mem_cons_of_mem _ member) }

/-- The reader was served, and may have come to the end. -/
theorem Ruled.served (ruled : Ruled hangs live ((key, true) :: rest) down) {now : Bool}
    (same : key ≠ .readData → now = down) (ends : down = true → now = true) : Ruled hangs live rest now :=
  { ruled.skip with
    going := fun member inside => by
      by_cases served : key = .readData
      · have absent := (List.nodup_cons.mp ruled.turns).1
        exact absurd (List.mem_map.mpr ⟨_, member, rfl⟩) (served ▸ absent)
      · rw [same served]
        exact ruled.skip.going member inside
    reader := fun absent => ends (ruled.reader absent) }

/-- A rule is cancelled; the reader's cancellation ends the outbound stream. -/
theorem Ruled.cancelled (ruled : Ruled hangs (before ++ key :: after) polled down) (fewer : rest.Sublist polled)
    {now : Bool} (ends : key = .readData → now = true) (same : key ≠ .readData → now = down)
    (why : key = .writeData ∨ key = .transmit → hangs key) : Ruled hangs (before ++ after) rest now where
  distinct := ruled.distinct.sublist ((List.sublist_cons_self key after).append_left before)
  turns := ruled.turns.sublist (fewer.map Prod.fst)
  going member inside := by
    have absent : key ∉ before ++ after := by
      have distinct := ruled.distinct
      rw [List.nodup_middle, List.nodup_cons] at distinct
      exact distinct.1
    have other : key ≠ .readData := by
      rintro rfl
      exact absent inside
    rw [same other]
    refine ruled.going (fewer.subset member) ?_
    rw [List.mem_append, List.mem_cons] at *
    tauto
  reader absent := by
    by_cases reader : key = .readData
    · exact ends reader
    · rw [same reader]
      refine ruled.reader (fun inside => absent ?_)
      simpa [Ne.symm reader] using inside
  writer absent := by
    by_cases writer : key = .writeData
    · exact writer ▸ why (Or.inl writer)
    · exact ruled.writer (fun inside => absent (by simpa [Ne.symm writer] using inside))
  sender absent := by
    by_cases sender : key = .transmit
    · exact sender ▸ why (Or.inr sender)
    · exact ruled.sender (fun inside => absent (by simpa [Ne.symm sender] using inside))

end Rules

variable [FdAdapter α δ] [Device δ] [LawfulFdAdapter α]

/-- What the thread keeps between two callbacks. -/
structure Served (R : Endpoint → Prop) (s : TCPSpongeSocket α) : Prop where
  runs : R s.endpoint
  kept : LawfulFdAdapter.Kept (s.tcp.segmentsOut.take s.taken) s.datagramAdapter
  taken : s.taken ≤ s.tcp.segmentsOut.length
  opened : s.threadData.closed = false

/-- The answers of a network that offers these segments only. -/
structure Fair (offered : TCPSegment → Prop) (key : Key) (answers : Answers δ) : Prop where
  whole : Device.Whole answers.device
  honest : key = .receive → ∀ {reader after : α} {seg}, FdAdapter.read answers.device reader = .ok (some seg, after) →
    ∃ sent, offered sent ∧ sent.Same seg

/-- A system call failed. -/
def Guilty (answers : Answers δ) : Prop := ¬ answers.thread.Lawful ∨ ¬ Device.Lawful answers.device

variable {offered : TCPSegment → Prop} {R : Endpoint → Prop} {s t : TCPSpongeSocket α}

/-- One act of the endpoint, of which the adapter does not hear. -/
theorem Served.act (served : Served R s) (steady : Steady offered R) (act : Act) (orderly : s.endpoint.Orderly act)
    (offers : ∀ seg, act = .deliver seg → offered seg) (eq : t.endpoint = s.endpoint.step act)
    (taken : t.taken = s.taken) (adapter : t.datagramAdapter = s.datagramAdapter)
    (closed : t.threadData.closed = s.threadData.closed) : Served R t := by
  obtain ⟨new, sends⟩ := s.endpoint.step_sends (steady.outbound served.runs) act
  have out : t.tcp.segmentsOut = s.tcp.segmentsOut ++ new :=
    (congrArg (fun e => e.conn.segmentsOut) eq).trans sends.out
  refine ⟨eq ▸ steady.step act served.runs orderly offers, ?_, ?_, closed.trans served.opened⟩
  · rw [out, taken, adapter, List.take_append_of_le_length served.taken]
    exact served.kept
  · rw [out, taken, List.length_append]
    exact Nat.le_add_right_of_le served.taken

/-- What a callback of `key` makes of the socket: it is no busy wait. -/
def Serves (R : Endpoint → Prop) (key : Key) (s t : TCPSpongeSocket α) : Prop :=
  Served R t ∧ ((key ≠ .readData → t.outboundShutdown = s.outboundShutdown) ∧
    (s.outboundShutdown = true → t.outboundShutdown = true)) ∧
    ((rule (δ := δ) key).serviceCount s ≠ (rule (δ := δ) key).serviceCount t ∨ (rule (δ := δ) key).interest t = false)

variable {answers : Answers δ}

theorem receive_outcome (steady : Steady offered R) (served : Served R s)
    (fair : Fair (α := α) offered .receive answers) :
    Outcome ((rule .receive).callback answers s) (Serves (δ := δ) R .receive s) (Guilty answers) := by
  refine ((LawfulFdAdapter.read answers.device fair.whole served.kept).and
    (Outcome.of_forall (fun _ eq => eq))).mono (fun _ => id) Or.inr |>.bind ?_
  rintro ⟨ret, adapter⟩ ⟨⟨kept, counted⟩, eq⟩
  have read : Served R { s with datagramAdapter := adapter } := { served with kept := kept }
  cases ret with
  | none => exact ⟨read, ⟨fun _ => rfl, id⟩, Or.inl counted⟩
  | some seg =>
    obtain ⟨sent, known, same⟩ := fair.honest rfl eq
    refine ⟨read.act steady (.deliver sent) trivial ?_ ?_ rfl rfl rfl, ⟨fun _ => rfl, id⟩, Or.inl counted⟩
    · intro other eq
      cases eq
      exact known
    · simp only [endpoint, Endpoint.step, same.segmentReceived]

theorem write_whole (c : TCPConnection) {data : List UInt8} (fits : data.length ≤ c.remainingOutboundCapacity) :
    (c.write data).1 = data.length := by
  unfold TCPConnection.write
  split
  · rename_i empty
    exact empty.symm
  · have room := c.sender.stream.fits
    rw [remainingOutboundCapacity, ByteStream.remainingCapacity, ByteStream.bufferSize] at fits
    exact c.sender.stream.writeLen_of_fits data (by omega)

theorem readData_outcome (steady : Steady offered R) (served : Served R s) (going : s.outboundShutdown = false) :
    Outcome ((rule .readData).callback answers s) (Serves (δ := δ) R .readData s) (Guilty answers) := by
  refine (s.threadData.read_outcome _ answers.thread).mono (fun _ => id) Or.inl |>.bind ?_
  rintro ⟨data, threadData⟩ ⟨_, reads⟩
  dsimp only at reads
  have whole := write_whole s.tcp (reads.size.trans (min_le_right _ _))
  have out : threadData.bytesOut = s.threadData.bytesOut := by
    rw [FileDescriptor.bytesOut, reads.sent, FileDescriptor.bytesOut]
  have wrote : Served R { s with tcp := (s.tcp.write data).2, threadData := threadData } := by
    refine served.act steady (.write data) going (fun _ none => by cases none) ?_ rfl rfl reads.closed
    simp only [endpoint, Endpoint.step, out, whole, List.take_length]
    simp [FileDescriptor.bytesIn, reads.received]
  have counted : s.threadData.readCount ≠ threadData.readCount := by
    rw [reads.counted]
    simp
  dsimp only
  generalize s.tcp.write data = written at whole wrote
  obtain ⟨amount, tcp⟩ := written
  change Outcome (ite _ _ _) _ _
  rw [if_neg (not_not.mpr whole)]
  split
  · have ended := wrote.act (t := { s with
        tcp := tcp.endInputStream, threadData := threadData, outboundShutdown := true })
      steady .endInputStream trivial (fun _ none => by cases none) rfl rfl rfl rfl
    exact ⟨ended, ⟨fun other => absurd rfl other, fun _ => rfl⟩, Or.inl counted⟩
  · exact ⟨wrote, ⟨fun _ => rfl, id⟩, Or.inl counted⟩

theorem popInbound_eq (c : TCPConnection) (len : Nat) : c.popInbound len = (c.readInbound len).2 := by
  simp [popInbound, TCPConnection.readInbound, TCPReceiver.read, StreamReassembler.readOutput, ByteStream.read,
    ByteStream.popOutput, ByteStream.clampLen_eq, inboundStream, TCPReceiver.streamOut]

theorem writeData_outcome (steady : Steady offered R) (served : Served R s) :
    Outcome ((rule .writeData).callback answers s) (Serves (δ := δ) R .writeData s) (Guilty answers) := by
  refine (s.threadData.write_outcome _ answers.thread).mono (fun _ => id) Or.inl |>.bind ?_
  rintro ⟨n, threadData⟩ ⟨writes, counted⟩
  dsimp only at writes counted
  have size := writes.size
  have sent := writes.sent
  simp only [List.flatten_cons, List.flatten_nil, List.append_nil, ByteStream.peekOutput, List.take_take,
    List.length_take] at size sent
  rw [min_eq_left (size.trans (min_le_left _ _))] at sent
  have taken : (s.tcp.readInbound n).1 = s.tcp.inboundStream.buffer.take n := ByteStream.read_fst _ _
  have gave : Served R { s with tcp := s.tcp.popInbound n, threadData := threadData } := by
    refine served.act steady (.read n) trivial (fun _ none => by cases none) ?_ rfl rfl writes.closed
    simp only [endpoint, Endpoint.step, popInbound_eq, sent, taken]
    simp [FileDescriptor.bytesIn, writes.received]
  change Outcome (ite _ _ _) _ _
  split
  · refine (threadData.shutdown_outcome answers.thread).mono (fun _ => id) Or.inl |>.bind ?_
    rintro _ rfl
    refine ⟨{ gave with }, ⟨fun _ => rfl, id⟩, Or.inl ?_⟩
    simp only [Rule.serviceCount, rule, FileDescriptor.registerWrite, counted]
    simp [UInt32.add_assoc]
  · refine ⟨gave, ⟨fun _ => rfl, id⟩, Or.inl ?_⟩
    simp only [Rule.serviceCount, rule, counted]
    simp

/-- The adapter takes the segments one by one. -/
theorem writes_outcome (whole : Device.Whole answers.device) {written segs : List TCPSegment} {adapter : α}
    (sendable : ∀ seg ∈ segs, seg.Sendable) (kept : LawfulFdAdapter.Kept written adapter) :
    Outcome (segs.foldlM (fun adapter seg => FdAdapter.write answers.device seg adapter) adapter)
      (LawfulFdAdapter.Kept (written ++ segs)) (Guilty answers) := by
  induction segs generalizing written adapter with
  | nil =>
    rw [List.append_nil]
    exact kept
  | cons seg rest ih =>
    rw [List.foldlM_cons]
    refine (LawfulFdAdapter.write answers.device whole (sendable seg List.mem_cons_self) kept).mono
      (fun _ => id) Or.inr |>.bind (fun after kept => ?_)
    have others := ih (fun other member => sendable other (List.mem_cons_of_mem _ member)) kept
    rwa [List.append_assoc, List.singleton_append] at others

theorem transmit_outcome (steady : Steady offered R) (served : Served R s)
    (whole : Device.Whole answers.device) :
    Outcome ((rule .transmit).callback answers s) (Serves (δ := δ) R .transmit s) (Guilty answers) := by
  have sendable : ∀ seg ∈ s.waiting, seg.Sendable :=
    fun seg member => (steady.sendable served.runs).out seg (List.mem_of_mem_drop member)
  refine (writes_outcome whole sendable served.kept).bind (fun adapter kept => ?_)
  rw [waiting, List.take_append_drop] at kept
  refine ⟨⟨served.runs, ?_, Nat.le_refl _, served.opened⟩, ⟨fun _ => rfl, id⟩, Or.inr ?_⟩
  · rw [List.take_length]
    exact kept
  · simp [rule, waiting]

/-- The socket, as the rest of a turn can rely on it. -/
structure Serving (R : Endpoint → Prop) (hangs : Key → Prop) (live : List Key) (polled : List (Key × Bool))
    (s : TCPSpongeSocket α) : Prop extends Served R s where
  ruled : Ruled hangs live polled s.outboundShutdown

variable {hangs : Key → Prop} {live before after : List Key} {polled rest : List (Key × Bool)} {key : Key}

theorem callback_outcome (steady : Steady offered R) (served : Served R s)
    (going : key = .readData → s.outboundShutdown = false) (fair : Fair (α := α) offered key answers) :
    Outcome ((rule key).callback answers s) (Serves (δ := δ) R key s) (Guilty answers) := by
  cases key with
  | receive => exact receive_outcome steady served fair
  | readData => exact readData_outcome steady served (going rfl)
  | writeData => exact writeData_outcome steady served
  | transmit => exact transmit_outcome steady served fair.whole

theorem Serving.service (serving : Serving R hangs live ((key, true) :: rest) s) (steady : Steady offered R)
    (member : key ∈ live) (fair : Fair (α := α) offered key answers) :
    Outcome ((rule key).service answers s) (Serving R hangs live rest) (Guilty answers) := by
  have going : key = .readData → s.outboundShutdown = false := by
    rintro rfl
    exact serving.ruled.going List.mem_cons_self member
  have callback := callback_outcome steady serving.toServed going fair
  refine (Rule.service_outcome callback (fun _ done => done.2.2)).weaken ?_
  rintro t ⟨served, ⟨same, ends⟩, _⟩
  exact ⟨served, serving.ruled.served same ends⟩

/-- Cancelling the reader ends the stream, cancelling another rule does nothing. -/
theorem Serving.cancelled (serving : Serving R hangs (before ++ key :: after) polled s)
    (steady : Steady offered R) (why : key = .writeData ∨ key = .transmit → hangs key)
    (fewer : rest.Sublist polled) :
    Serving R hangs (before ++ after) rest ((rule (δ := δ) key).cancel s) := by
  cases key with
  | readData =>
    refine ⟨serving.act steady .endInputStream trivial (fun _ none => by cases none) rfl rfl rfl rfl, ?_⟩
    exact serving.ruled.cancelled fewer (fun _ => rfl) (fun other => absurd rfl other) why
  | _ => exact ⟨serving.toServed, serving.ruled.cancelled fewer nofun (fun _ => rfl) why⟩

/-- The descriptors are open, so only a reader can be defunct. -/
theorem Served.defunct (served : Served R s) (gone : (rule (δ := δ) key).defunct s = true) :
    ¬ (key = .writeData ∨ key = .transmit) := by
  have opened := LawfulFdAdapter.opened served.kept
  rintro (rfl | rfl)
  · simp [Rule.defunct, rule, served.opened] at gone
  · simp [Rule.defunct, rule, opened] at gone

theorem discipline (steady : Steady offered R) (hangs : Key → Prop) :
    Discipline (rule (δ := δ)) (Serving (α := α) R hangs) hangs (Fair (α := α) offered) Guilty where
  poll key stays serving := by
    refine ⟨serving.toServed, serving.ruled.poll ?_⟩
    rintro rfl asked
    simp only [rule, Bool.and_eq_true, Bool.not_eq_true'] at asked
    exact asked.1.2
  defunct key gone serving :=
    serving.cancelled steady (fun output => absurd output (serving.defunct gone)) (.refl _)
  hangup key hup serving := serving.cancelled steady (fun _ => hup) (List.sublist_cons_self _ _)
  service key answers fair member serving := serving.service steady member fair
  skip serving := ⟨serving.toServed, serving.ruled.skip⟩

/-- The turns of a network that offers these segments only, in which only these
rules are hung up on. -/
structure Turn.Respects (hangs : Key → Prop) (offered : TCPSegment → Prop) (turn : Turn δ) : Prop where
  poll : turn.poll.Fair (Fair (α := α) offered)
  hups : ∀ key, turn.poll.OnlyHangsUp key → hangs key
  device : Device.Whole turn.device

/-- The kernel is to blame for an exception in this turn. -/
def Turn.Guilty (turn : Turn δ) : Prop :=
  turn.poll.Guilty TCPSpongeSocket.Guilty ∨ ¬ Device.Lawful turn.device

theorem Served.tick (served : Served R s) (steady : Steady offered R) {k : δ} (whole : Device.Whole k)
    (ms : Nat) : Outcome (FdAdapter.tick k ms s.datagramAdapter)
      (fun adapter => Served R { s with tcp := s.tcp.tick ms, datagramAdapter := adapter })
      (¬ Device.Lawful k) := by
  refine (LawfulFdAdapter.tick k ms whole served.kept).weaken (fun adapter kept => ?_)
  have aged : Served R { s with datagramAdapter := adapter } := { served with kept := kept }
  exact aged.act steady (.tick ms) trivial (fun _ none => by cases none) rfl rfl rfl rfl

/-- One pass of the loop. -/
theorem pass_outcome (steady : Steady offered R) {turn : Turn δ} (respects : turn.Respects (α := α) hangs offered)
    (l : Loop Key (TCPSpongeSocket α)) (serving : Serving R hangs l.rules [] l.data) :
    Outcome (pass turn l) (fun out => Serving R hangs out.2.rules [] out.2.data) turn.Guilty := by
  refine ((discipline steady hangs).waitNextEvent turn.poll respects.poll l
    (fun key hup => respects.hups key hup.2) serving).mono (fun _ => id) Or.inl |>.bind ?_
  rintro ⟨ret, next⟩ kept
  change Outcome (ite _ _ _) _ _
  split
  · exact kept
  split
  · refine (kept.tick steady respects.device turn.elapsed).mono (fun _ => id) Or.inr |>.bind ?_
    exact fun adapter aged => ⟨aged, kept.ruled⟩
  · exact kept

/-- Every pass of the loop. -/
theorem tcpLoop_outcome (steady : Steady offered R) (condition : TCPSpongeSocket α → Bool) (turns : List (Turn δ))
    (respects : ∀ turn ∈ turns, turn.Respects (α := α) hangs offered) (l : Loop Key (TCPSpongeSocket α))
    (serving : Serving R hangs l.rules [] l.data) :
    Outcome (tcpLoop condition turns l) (fun out => Serving R hangs out.2.rules [] out.2.data)
      (∃ turn ∈ turns, turn.Guilty) := by
  induction turns generalizing l with
  | nil => exact serving
  | cons turn turns ih =>
    rw [tcpLoop]
    split
    · refine ((pass_outcome steady (respects turn List.mem_cons_self) l serving).mono (fun _ => id)
        (fun bad => ⟨turn, List.mem_cons_self, bad⟩)).bind ?_
      rintro ⟨stops, next⟩ kept
      change Outcome (ite _ _ _) _ _
      split
      · exact kept
      · refine (ih (fun other member => respects other (List.mem_cons_of_mem _ member)) next kept).mono
          (fun _ => id) ?_
        rintro ⟨other, member, bad⟩
        exact ⟨other, List.mem_cons_of_mem _ member, bad⟩
    · exact serving

end TCPSpongeSocket
end Sponge
