import Sponge.TCP.Sender.Settled
import Sponge.TCP.Connection

/-! What a connection sends. Every segment on its outbound queue carries the SYN
at the ISN, or bytes accepted by `write` at their own sequence numbers, whatever
the peer sends. Proved for one move of the sender and lifted through the
operations of the connection. -/
namespace Sponge.TCPSender

/-- What a segment of a sender can carry: the bare SYN, or a run of the accepted
bytes; a FIN is at the end of sequence space. -/
def Carries (s : TCPSender) (accepted : List UInt8) (seg : TCPSegment) : Prop :=
  (seg.header.syn = true ∧ seg.header.fin = false ∧ seg.payload = [] ∧ seg.header.seqno = s.isn) ∨
  (seg.header.syn = false ∧ ∃ offset, seg.header.seqno = wrap (1 + offset) s.isn ∧
    SliceAt accepted offset seg.payload ∧ offset + seg.payload.length ≤ accepted.length + 1 ∧
    (seg.header.fin = true → s.finSent = true ∧ offset + seg.payload.length + 2 = s.nextSeqno))

variable {s u v : TCPSender} {accepted more final : List UInt8} {sent : List TCPSegment}

/-- On the sender's own queue the receiver's fields are not filled in yet. -/
def Queued (s : TCPSender) (accepted : List UInt8) (seg : TCPSegment) : Prop :=
  Carries s accepted seg ∧ seg.header.ack = false

theorem Encodes.queued (inv : Encodes s accepted sent) {seg : TCPSegment} (member : seg ∈ sent) :
    Queued s accepted seg := by
  have opened : s.synSent = true := by
    by_contra unsent
    rw [inv.closed (by simpa using unsent)] at member
    cases member
  obtain ⟨data, eq, _⟩ := inv.opened opened
  have split := member
  rw [eq] at split
  rcases List.mem_cons.mp split with rfl | member
  · exact ⟨Or.inl ⟨rfl, rfl, rfl, rfl⟩, rfl⟩
  · obtain ⟨before, after, rfl⟩ := List.append_of_mem member
    obtain ⟨isData, seqno, _, last, slice, next⟩ := inv.data_at eq
    refine ⟨Or.inr ⟨by rw [isData.header], _, seqno, slice, ?_, ?_⟩, by rw [isData.header]⟩
    · have total := congrArg List.length inv.unread
      rw [eq] at total
      simp only [payloads_cons, payloads_append, List.length_append] at total
      omega
    · intro fin
      refine ⟨inv.finSent.mpr ⟨seg, by rw [eq]; simp, fin⟩, ?_⟩
      rw [last fin, seqLen_nil] at next
      have length : seg.lengthInSequenceSpace = seg.payload.length + 1 := by
        rw [TCPSegment.lengthInSequenceSpace, fin, isData.header]
        rfl
      omega

/-- An empty segment stands at the next sequence number. -/
theorem Encodes.queued_empty (inv : Encodes s accepted sent) (opened : s.synSent = true) :
    Queued s accepted { header := { seqno := wrap s.nextSeqno s.isn } } := by
  have next := inv.next_eq
  have total := congrArg List.length inv.unread
  rw [List.length_append, ← inv.read] at total
  rw [opened] at next
  simp only [if_true] at next
  refine ⟨Or.inr ⟨rfl, s.nextSeqno - 1, ?_, .nil _ _, ?_, by simp⟩, rfl⟩
  · rw [Nat.add_sub_of_le (by omega)]
  · split at next <;> simp only [List.length_nil] <;> omega

/-- What every move of a sender keeps, while it may accept more bytes. -/
structure Advance (accepted : List UInt8) (s : TCPSender) (more : List UInt8) (u : TCPSender) : Prop where
  settled : ∃ sent, Settled u more sent
  grown : accepted <+: more
  isn : u.isn = s.isn
  opened : s.synSent = true → u.synSent = true
  fin : s.finSent = true → u.finSent = true ∧ u.nextSeqno = s.nextSeqno
  out : ∀ seg ∈ u.segmentsOut, seg ∈ s.segmentsOut ∨ Queued u more seg

theorem Carries.advance {seg : TCPSegment} (carries : Carries s accepted seg)
    (advance : Advance accepted s more u) : Carries u more seg := by
  obtain ⟨rest, rfl⟩ := advance.grown
  rcases carries with ⟨syn, fin, empty, seqno⟩ | ⟨syn, offset, seqno, slice, bound, fin⟩
  · exact Or.inl ⟨syn, fin, empty, by rw [advance.isn]; exact seqno⟩
  · refine Or.inr ⟨syn, offset, by rw [advance.isn]; exact seqno, slice.extend rest, ?_, ?_⟩
    · rw [List.length_append]
      omega
    · intro set
      obtain ⟨finished, next⟩ := advance.fin (fin set).1
      exact ⟨finished, by rw [next]; exact (fin set).2⟩

theorem Advance.trans (first : Advance accepted s more u) (second : Advance more u final v) :
    Advance accepted s final v := by
  refine ⟨second.settled, first.grown.trans second.grown, second.isn.trans first.isn,
    fun opened => second.opened (first.opened opened), ?_, ?_⟩
  · intro finished
    obtain ⟨finished, next⟩ := first.fin finished
    obtain ⟨finished, later⟩ := second.fin finished
    exact ⟨finished, later.trans next⟩
  · intro seg member
    rcases second.out seg member with member | carries
    · exact (first.out seg member).imp_right (fun queued => ⟨queued.1.advance second, queued.2⟩)
    · exact Or.inr carries

theorem Encodes.synSent_of_finSent (inv : Encodes s accepted sent) (finished : s.finSent = true) :
    s.synSent = true := by
  obtain ⟨seg, member, _⟩ := inv.finSent.mp finished
  by_contra unsent
  rw [inv.closed (by simpa using unsent)] at member
  cases member

/-- After the FIN nothing is filled into the window. -/
theorem fillWindow_finSent (opened : s.synSent = true) (finished : s.finSent = true) :
    s.fillWindow = s := by
  rcases s.fillWindow_cases with ⟨unsent, _⟩ | ⟨_, _, eq⟩ | ⟨filling, _⟩
  · simp [opened] at unsent
  · exact eq
  · simp [filling.2.2] at finished

/-- A move made of pushes by `segmentHandler`. -/
theorem Emits.advance {new : List TCPSegment} (emits : Emits accepted sent s u new)
    (settled : Settled u accepted (sent ++ new)) (isn : u.isn = s.isn)
    (opened : s.synSent = true → u.synSent = true)
    (fin : s.finSent = true → u.finSent = true ∧ u.nextSeqno = s.nextSeqno) :
    Advance accepted s accepted u := by
  refine ⟨⟨_, settled⟩, List.prefix_rfl, isn, opened, fin, ?_⟩
  intro seg member
  rw [emits.out] at member
  exact (List.mem_append.mp member).imp_right
    (fun member => settled.toEncodes.queued (List.mem_append_right _ member))

theorem Settled.advance_fillWindow (inv : Settled s accepted sent) :
    Advance accepted s accepted s.fillWindow := by
  obtain ⟨new, emits, settled⟩ := inv.fillWindow
  obtain ⟨_, pushes⟩ := s.fillWindow_pushes
  refine emits.advance settled pushes.isn (fun _ => s.fillWindow_synSent) (fun finished => ?_)
  rw [fillWindow_finSent (inv.toEncodes.synSent_of_finSent finished) finished]
  exact ⟨finished, rfl⟩

theorem Settled.advance_endInput (inv : Settled s accepted sent) :
    Advance accepted s accepted s.endInput.fillWindow := by
  obtain ⟨new, emits, settled⟩ := inv.endInput_fillWindow
  obtain ⟨_, pushes⟩ := s.endInput.fillWindow_pushes
  refine emits.advance settled pushes.isn (fun _ => s.endInput.fillWindow_synSent) (fun finished => ?_)
  rw [fillWindow_finSent (s := s.endInput) (inv.toEncodes.synSent_of_finSent finished) finished]
  exact ⟨finished, rfl⟩

theorem Settled.advance_ackReceived (inv : Settled s accepted sent) (ackno : WrappingInt32)
    (window : UInt16) : Advance accepted s accepted (s.ackReceived ackno window) := by
  obtain ⟨new, emits, settled⟩ := inv.ackReceived ackno window
  obtain ⟨u, ⟨_, syn, fin, next⟩, eq⟩ := s.ackReceived_fill ackno window
  refine emits.advance settled (s.ackReceived_isn ackno window) ?_ ?_
  · intro opened
    rcases eq with eq | eq <;> rw [eq]
    · exact syn.trans opened
    · exact u.fillWindow_synSent
  · intro finished
    have opened := inv.toEncodes.synSent_of_finSent finished
    rcases eq with eq | eq <;> rw [eq]
    · exact ⟨fin.trans finished, next⟩
    · rw [fillWindow_finSent (syn.trans opened) (fin.trans finished)]
      exact ⟨fin.trans finished, next⟩

theorem Settled.advance_write (inv : Settled s accepted sent) (data : List UInt8) :
    Advance accepted s (accepted ++ data.take (s.write data).1) (s.write data).2 :=
  ⟨⟨_, inv.write data⟩, List.prefix_append _ _, rfl, id, fun finished => ⟨finished, rfl⟩,
    fun _ member => Or.inl member⟩

theorem Settled.advance_tick (inv : Settled s accepted sent) (ms : Nat) :
    Advance accepted s accepted (s.tick ms) := by
  obtain ⟨again, _, _, _, front, eq⟩ := s.tick_eq ms
  refine ⟨⟨_, inv.tick ms⟩, List.prefix_rfl, by rw [eq], by rw [eq]; exact id,
    by rw [eq]; exact fun finished => ⟨finished, rfl⟩, ?_⟩
  intro seg member
  have queued : seg ∈ sent → Queued (s.tick ms) accepted seg := (inv.tick ms).toEncodes.queued
  rw [eq] at member
  exact (List.mem_append.mp member).imp_right
    (fun member => queued (inv.outstanding.subset (front.subset member)))

theorem Settled.advance_sendEmptySegment (inv : Settled s accepted sent) (opened : s.synSent = true) :
    Advance accepted s accepted s.sendEmptySegment := by
  refine ⟨⟨_, inv.frame rfl ⟨rfl, rfl, rfl⟩⟩, List.prefix_rfl, rfl, id, fun finished => ⟨finished, rfl⟩, ?_⟩
  intro seg member
  rcases List.mem_append.mp member with member | member
  · exact Or.inl member
  · rw [List.mem_singleton.mp member]
    exact Or.inr (inv.toEncodes.queued_empty opened)

/-- Taking segments off the sender's queue, or an error on its stream. -/
theorem Settled.advance_take (inv : Settled s accepted sent) (rest : List TCPSegment)
    (fewer : rest ⊆ s.segmentsOut) : Advance accepted s accepted { s with segmentsOut := rest } :=
  ⟨⟨_, inv.frame rfl ⟨rfl, rfl, rfl⟩⟩, List.prefix_rfl, rfl, id, fun finished => ⟨finished, rfl⟩,
    fun _ member => Or.inl (fewer member)⟩

theorem Settled.advance_setError (inv : Settled s accepted sent) :
    Advance accepted s accepted { s with stream := s.stream.setError } :=
  ⟨⟨_, inv.frame rfl ⟨rfl, rfl, rfl⟩⟩, List.prefix_rfl, rfl, id, fun finished => ⟨finished, rfl⟩,
    fun _ member => Or.inl member⟩

end Sponge.TCPSender
