import Sponge.TCP.Outbound

/-! The operations of a connection as moves of its two halves. Each one advances
the sender, leaves the receiver alone or gives it the incoming segment, and puts
on the outbound queue only segments of the sender with the receiver's
acknowledgement. -/
namespace Sponge.TCPConnection
open TCPSender

variable {c d e : TCPConnection} {accepted more final : List UInt8} {r : TCPReceiver} {seg : TCPSegment}

/-- What holds of a connection that has accepted these bytes. -/
structure Outbound (accepted : List UInt8) (c : TCPConnection) : Prop where
  settled : ∃ sent, Settled c.sender accepted sent
  queued : ∀ seg ∈ c.sender.segmentsOut, c.sender.Queued accepted seg
  out : ∀ seg ∈ c.segmentsOut, c.sender.Carries accepted seg
  began : c.receiver.syn = true → c.sender.synSent = true

/-- From `c` to `d`, with receiver `r` afterwards up to its error flag. -/
structure Effect (accepted : List UInt8) (c : TCPConnection) (more : List UInt8) (r : TCPReceiver)
    (d : TCPConnection) : Prop where
  outbound : Outbound more d
  grown : accepted <+: more
  isn : d.sender.isn = c.sender.isn
  fin : c.sender.finSent = true → d.sender.finSent = true ∧ d.sender.nextSeqno = c.sender.nextSeqno
  receiver : d.receiver = r ∨ d.receiver = r.setError
  acks : ∀ seg ∈ d.segmentsOut, seg ∈ c.segmentsOut ∨
    (seg.header.ack = true → r.ackno = some seg.header.ackno)

theorem Effect.refl (outbound : Outbound accepted c) : Effect accepted c accepted c.receiver c :=
  ⟨outbound, List.prefix_rfl, rfl, fun finished => ⟨finished, rfl⟩, Or.inl rfl, fun _ member => Or.inl member⟩

theorem Effect.trans (first : Effect accepted c more r d) (second : Effect more d final d.receiver e) :
    Effect accepted c final r e := by
  refine ⟨second.outbound, first.grown.trans second.grown, second.isn.trans first.isn, ?_, ?_, ?_⟩
  · intro finished
    obtain ⟨finished, next⟩ := first.fin finished
    obtain ⟨finished, later⟩ := second.fin finished
    exact ⟨finished, later.trans next⟩
  · rcases first.receiver with eq | eq <;> rcases second.receiver with same | same <;> rw [same, eq]
    · exact Or.inl rfl
    · exact Or.inr rfl
    · exact Or.inr rfl
    · exact Or.inr rfl
  · intro seg member
    rcases second.acks seg member with member | acks
    · exact first.acks seg member
    · refine Or.inr (fun flag => ?_)
      have known := acks flag
      rcases first.receiver with eq | eq <;> rw [eq] at known <;> exact known

/-- A move of the sender, with whatever the timers and flags of the connection become. -/
theorem Outbound.move (outbound : Outbound accepted c) {u : TCPSender}
    (advance : Advance accepted c.sender more u) :
    Effect accepted c more c.receiver { c with sender := u } := by
  refine ⟨⟨advance.settled, ?_, fun seg member => (outbound.out seg member).advance advance,
    fun syn => advance.opened (outbound.began syn)⟩, advance.grown, advance.isn, advance.fin,
    Or.inl rfl, fun _ member => Or.inl member⟩
  intro seg member
  rcases advance.out seg member with member | queued
  · obtain ⟨carries, flag⟩ := outbound.queued seg member
    exact ⟨carries.advance advance, flag⟩
  · exact queued

/-- The receiver's fields do not change what a segment carries. -/
theorem setSeg_carries (c : TCPConnection) (carries : c.sender.Carries accepted seg) :
    c.sender.Carries accepted (c.setSeg seg) := by
  unfold setSeg
  split <;> exact carries

theorem setSeg_acks (c : TCPConnection) (plain : seg.header.ack = false)
    (flag : (c.setSeg seg).header.ack = true) : c.receiver.ackno = some (c.setSeg seg).header.ackno := by
  unfold setSeg at flag ⊢
  split at flag
  · simp [plain] at flag
  · assumption

theorem Outbound.flush (outbound : Outbound accepted c) :
    Effect accepted c accepted c.receiver c.flush := by
  obtain ⟨sent, settled⟩ := outbound.settled
  have moved := outbound.move (settled.advance_take [] (List.nil_subset _))
  refine ⟨⟨moved.outbound.settled, moved.outbound.queued, ?_, outbound.began⟩, moved.grown, rfl,
    moved.fin, Or.inl rfl, ?_⟩
  · intro seg member
    rcases List.mem_append.mp member with member | member
    · exact moved.outbound.out seg member
    · obtain ⟨raw, queued, rfl⟩ := List.mem_map.mp member
      exact c.setSeg_carries (outbound.queued raw queued).1
  · intro seg member
    rcases List.mem_append.mp member with member | member
    · exact Or.inl member
    · obtain ⟨raw, queued, rfl⟩ := List.mem_map.mp member
      exact Or.inr (c.setSeg_acks (outbound.queued raw queued).2)

theorem cleanShutdown_eq (c : TCPConnection) : ∃ linger active,
    c.cleanShutdown = { c with lingerAfterStreamsFinish := linger, active := active } := by
  unfold cleanShutdown stopLinger
  dsimp only
  split_ifs <;> exact ⟨_, _, rfl⟩

/-- The connection's own flags and timer do not matter here. -/
theorem Outbound.flags (outbound : Outbound accepted c) (linger active : Bool) (time : Nat) :
    Effect accepted c accepted c.receiver
      { c with
        lingerAfterStreamsFinish := linger
        active := active
        timeSinceLastSegmentReceived := time } :=
  ⟨⟨outbound.settled, outbound.queued, outbound.out, outbound.began⟩, List.prefix_rfl, rfl,
    fun finished => ⟨finished, rfl⟩, Or.inl rfl, fun _ member => Or.inl member⟩

theorem Outbound.sendSegsFromSender (outbound : Outbound accepted c) :
    Effect accepted c accepted c.receiver c.sendSegsFromSender := by
  have flushed := outbound.flush
  obtain ⟨linger, active, eq⟩ := c.flush.cleanShutdown_eq
  rw [TCPConnection.sendSegsFromSender, eq]
  exact flushed.trans (flushed.outbound.flags linger active _)

theorem Outbound.kill (outbound : Outbound accepted c) :
    Effect accepted c accepted c.receiver c.kill := by
  obtain ⟨sent, settled⟩ := outbound.settled
  have moved := outbound.move settled.advance_setError
  exact ⟨⟨moved.outbound.settled, moved.outbound.queued, moved.outbound.out, outbound.began⟩,
    List.prefix_rfl, rfl, moved.fin, Or.inr rfl, fun _ member => Or.inl member⟩

theorem Outbound.uncleanShutdown (outbound : Outbound accepted c) :
    Effect accepted c accepted c.receiver c.uncleanShutdown := by
  have killed := outbound.kill
  unfold TCPConnection.uncleanShutdown
  dsimp only
  split
  · exact killed
  · rename_i seg rest queue
    refine killed.trans ?_
    obtain ⟨sent, settled⟩ := killed.outbound.settled
    have front := killed.outbound.queued seg (by rw [queue]; exact List.mem_cons_self)
    have moved := killed.outbound.move (settled.advance_take rest (by rw [queue]; exact List.subset_cons_self _ _))
    refine ⟨⟨moved.outbound.settled, moved.outbound.queued, ?_, killed.outbound.began⟩, List.prefix_rfl, rfl,
      moved.fin, Or.inl rfl, ?_⟩
    · intro other member
      rcases List.mem_append.mp member with member | member
      · exact moved.outbound.out other member
      · rw [List.mem_singleton.mp member]
        exact c.kill.setSeg_carries front.1
    · intro other member
      rcases List.mem_append.mp member with member | member
      · exact Or.inl member
      · rw [List.mem_singleton.mp member]
        exact Or.inr (c.kill.setSeg_acks front.2)

theorem Outbound.connect (outbound : Outbound accepted c) :
    Effect accepted c accepted c.receiver c.connect := by
  obtain ⟨sent, settled⟩ := outbound.settled
  have moved := outbound.move settled.advance_fillWindow
  exact moved.trans moved.outbound.sendSegsFromSender

theorem Outbound.write (outbound : Outbound accepted c) (data : List UInt8) :
    Effect accepted c (accepted ++ data.take (c.write data).1) c.receiver (c.write data).2 := by
  unfold TCPConnection.write
  split
  · simpa using Effect.refl outbound
  · obtain ⟨sent, settled⟩ := outbound.settled
    have wrote := settled.advance_write data
    obtain ⟨_, settled⟩ := wrote.settled
    have moved := outbound.move (wrote.trans settled.advance_fillWindow)
    exact moved.trans moved.outbound.sendSegsFromSender

theorem Outbound.endInputStream (outbound : Outbound accepted c) :
    Effect accepted c accepted c.receiver c.endInputStream := by
  obtain ⟨sent, settled⟩ := outbound.settled
  have moved := outbound.move settled.advance_endInput
  exact moved.trans moved.outbound.sendSegsFromSender

theorem Outbound.tick (outbound : Outbound accepted c) (ms : Nat) :
    Effect accepted c accepted c.receiver (c.tick ms) := by
  unfold TCPConnection.tick
  split
  · exact .refl outbound
  obtain ⟨sent, settled⟩ := outbound.settled
  have moved := outbound.move (settled.advance_tick ms)
  have timed := moved.trans (moved.outbound.flags c.lingerAfterStreamsFinish c.active
    (FixedWidth.add 64 c.timeSinceLastSegmentReceived ms))
  dsimp only
  split
  · have stopped := timed.trans timed.outbound.uncleanShutdown
    exact stopped.trans stopped.outbound.sendSegsFromSender
  · exact timed.trans timed.outbound.sendSegsFromSender

/-- A move of the sender together with a new receiver. -/
theorem Outbound.receive (outbound : Outbound accepted c) {u : TCPSender}
    (advance : Advance accepted c.sender more u) (opened : u.synSent = true) (r : TCPReceiver) :
    Effect accepted c more r { c with receiver := r, sender := u } := by
  have moved := outbound.move advance
  exact ⟨⟨moved.outbound.settled, moved.outbound.queued, moved.outbound.out, fun _ => opened⟩,
    moved.grown, moved.isn, moved.fin, Or.inl rfl, fun _ member => Or.inl member⟩

theorem Outbound.synSent_of_next (outbound : Outbound accepted c) (next : c.sender.nextSeqno ≠ 0) :
    c.sender.synSent = true := by
  obtain ⟨sent, settled⟩ := outbound.settled
  by_contra unsent
  apply next
  rw [settled.next, settled.closed (by simpa using unsent)]
  rfl

theorem Outbound.answer (outbound : Outbound accepted c) (opened : c.sender.synSent = true)
    (seg : TCPSegment) : Effect accepted c accepted c.receiver (c.answer seg) := by
  unfold TCPConnection.answer
  split
  · obtain ⟨sent, settled⟩ := outbound.settled
    exact outbound.move (settled.advance_sendEmptySegment opened)
  · exact .refl outbound

theorem Outbound.established (outbound : Outbound accepted c) (opened : c.sender.synSent = true)
    (seg : TCPSegment) :
    Effect accepted c accepted (c.receiver.segmentReceived seg) (c.established seg) := by
  obtain ⟨sent, settled⟩ := outbound.settled
  have advance := settled.advance_ackReceived seg.header.ackno seg.header.win
  have delivered := outbound.receive advance (advance.opened opened) (c.receiver.segmentReceived seg)
  unfold TCPConnection.established
  dsimp only
  split
  · obtain ⟨_, settled⟩ := advance.settled
    have emptied := delivered.trans (delivered.outbound.move
      (settled.advance_sendEmptySegment (advance.opened opened)))
    exact emptied.trans emptied.outbound.uncleanShutdown
  · have answered := delivered.trans (delivered.outbound.answer (advance.opened opened) seg)
    exact answered.trans answered.outbound.sendSegsFromSender

theorem ackno_isNone (r : TCPReceiver) : r.ackno.isNone = true ↔ r.syn = false := by
  unfold TCPReceiver.ackno
  split <;> simp_all

/-- Past the listening state the SYN is out. -/
theorem Outbound.opened (outbound : Outbound accepted c) (begun : c.listening = false) :
    c.sender.synSent = true := by
  rw [listening, Bool.and_eq_false_iff] at begun
  rcases begun with heard | next
  · apply outbound.began
    by_contra silent
    rw [Bool.not_eq_true] at silent
    simp [(ackno_isNone c.receiver).mpr silent] at heard
  · exact outbound.synSent_of_next (by simpa using next)

/-- An incoming segment reaches the receiver or is dropped. -/
theorem Outbound.dispatch (outbound : Outbound accepted c) (seg : TCPSegment) :
    ∃ r, (r = c.receiver ∨ r = c.receiver.segmentReceived seg) ∧
      Effect accepted c accepted r (c.dispatch seg) := by
  obtain ⟨sent, settled⟩ := outbound.settled
  unfold TCPConnection.dispatch
  split
  · split
    · exact ⟨_, Or.inl rfl, .refl outbound⟩
    · have received := outbound.receive settled.advance_fillWindow (fillWindow_synSent _)
        (c.receiver.segmentReceived seg)
      exact ⟨_, Or.inr rfl, received.trans received.outbound.sendSegsFromSender⟩
  rename_i begun
  have opened := outbound.opened (by simpa using begun)
  split
  · split
    · split
      · exact ⟨_, Or.inr rfl, outbound.receive (settled.advance_sendEmptySegment opened) opened _⟩
      · exact ⟨_, Or.inl rfl, .refl outbound⟩
    split
    · exact ⟨_, Or.inl rfl, outbound.kill⟩
    · exact ⟨_, Or.inr rfl, outbound.established opened seg⟩
  · exact ⟨_, Or.inr rfl, outbound.established opened seg⟩

theorem Outbound.segmentReceived (outbound : Outbound accepted c) (seg : TCPSegment) :
    ∃ r, (r = c.receiver ∨ r = c.receiver.segmentReceived seg) ∧
      Effect accepted c accepted r (c.segmentReceived seg) := by
  unfold TCPConnection.segmentReceived
  split
  · exact ⟨_, Or.inl rfl, .refl outbound⟩
  · have reset := outbound.flags c.lingerAfterStreamsFinish c.active 0
    obtain ⟨r, origin, effect⟩ := reset.outbound.dispatch seg
    exact ⟨r, origin, effect.outbound, effect.grown, effect.isn, effect.fin, effect.receiver, effect.acks⟩

theorem Outbound.readInbound (outbound : Outbound accepted c) (len : Nat) :
    Effect accepted c accepted (c.receiver.read len).2 (c.readInbound len).2 :=
  ⟨⟨outbound.settled, outbound.queued, outbound.out, outbound.began⟩, List.prefix_rfl, rfl,
    fun finished => ⟨finished, rfl⟩, Or.inl rfl, fun _ member => Or.inl member⟩

theorem new_outbound (cfg : TCPConfig) (random : WrappingInt32) : Outbound [] (new cfg random) :=
  ⟨⟨[], new_settled _ _ _⟩, by simp [new, TCPSender.new], by simp [new], by simp [new, TCPReceiver.new]⟩

end Sponge.TCPConnection
