import Sponge.TCP.Sender.Runs

/-! Which segments an acknowledgement retires. The source keeps the base and the
end of the front segment in 32 bits, so an end is compared by its low 32 bits.
The invariant names the highest accepted absolute acknowledgement, of which the
base is the low half. -/
namespace Sponge.TCPSender

/-- Absolute ends of segments laid out from `a`. -/
def ends : Nat → List TCPSegment → List Nat
  | _, [] => []
  | a, seg :: rest => (a + seg.lengthInSequenceSpace) :: ends (a + seg.lengthInSequenceSpace) rest

theorem ends_append (a : Nat) (left right : List TCPSegment) :
    ends a (left ++ right) = ends a left ++ ends (a + seqLen left) right := by
  induction left generalizing a with
  | nil => rfl
  | cons seg rest ih => simp [ends, ih, Nat.add_assoc]

theorem mem_ends_le {e : Nat} (member : e ∈ ends a segs) : a ≤ e ∧ e ≤ a + seqLen segs := by
  induction segs generalizing a with
  | nil => simp [ends] at member
  | cons seg rest ih =>
    simp only [ends, List.mem_cons] at member
    rw [seqLen_cons]
    rcases member with rfl | member
    · omega
    · have := ih member
      omega

/-- A sequence number within the extent of a queue is in one of its segments. -/
theorem exists_covering {n : Nat} (low : a ≤ n) (high : n < a + seqLen segs) :
    ∃ before seg after, segs = before ++ seg :: after ∧ a + seqLen before ≤ n ∧
      n < a + seqLen before + seg.lengthInSequenceSpace := by
  induction segs generalizing a with
  | nil =>
    rw [seqLen_nil] at high
    omega
  | cons seg rest ih =>
    rw [seqLen_cons] at high
    by_cases inside : n < a + seg.lengthInSequenceSpace
    · exact ⟨[], seg, rest, rfl, by simpa using low, by simpa using inside⟩
    · obtain ⟨before, found, after, split, low, high⟩ :=
        ih (a := a + seg.lengthInSequenceSpace) (by omega) (by omega)
      refine ⟨seg :: before, found, after, by rw [split]; rfl, ?_, ?_⟩ <;> rw [seqLen_cons] <;> omega

theorem seqLen_mem_ends (nonempty : segs ≠ []) : a + seqLen segs ∈ ends a segs := by
  induction segs generalizing a with
  | nil => contradiction
  | cons seg rest ih =>
    rw [seqLen_cons, ends, ← Nat.add_assoc]
    cases rest with
    | nil => simp
    | cons other rest => exact List.mem_cons_of_mem _ (ih (by simp))

/-- The stored end of a segment is the low half of its absolute end. -/
theorem endOfFront_eq {isn : WrappingInt32} {base a : Nat} {seg : TCPSegment} (narrow : base < 2 ^ 32)
    (placed : seg.header.seqno = wrap a isn) :
    endOfFront isn base seg = (a + seg.lengthInSequenceSpace) % 2 ^ 32 := by
  have low := unwrap_wrap_mod a base isn (by omega)
  rw [endOfFront, FixedWidth.trunc, placed]
  omega

theorem Laid.endOfFront_ends {isn : WrappingInt32} {base a bound : Nat} {segs : List TCPSegment}
    (narrow : base < 2 ^ 32) (laid : Laid isn a segs)
    (reached : ∀ seg ∈ segs, endOfFront isn base seg ≤ bound) : ∀ e ∈ ends a segs, e % 2 ^ 32 ≤ bound := by
  induction segs generalizing a with
  | nil => simp [ends]
  | cons seg rest ih =>
    obtain ⟨placed, _, laid⟩ := laid
    intro e member
    simp only [ends, List.mem_cons] at member
    rcases member with rfl | member
    · rw [← endOfFront_eq narrow placed]
      exact reached seg List.mem_cons_self
    · exact ih laid (fun other mem => reached other (List.mem_cons_of_mem _ mem)) e member

/-- The first sequence number that is still outstanding, or the next one to be
used when none is. -/
def unackedFrom (s : TCPSender) : Nat := s.nextSeqno - s.bytesInFlight

/-- `highest` is the highest acknowledgement the sender has accepted. -/
structure Acked (highest : Nat) (s : TCPSender) : Prop where
  base : s.rcvBase = highest % 2 ^ 32
  reached : highest ≤ s.nextSeqno
  first : s.unackedFrom ≤ highest
  ahead : ∀ seg ∈ s.outstandingSegments.head?, highest < s.unackedFrom + seg.lengthInSequenceSpace

variable {s : TCPSender} {accepted : List UInt8} {sent : List TCPSegment} {highest : Nat}

/-- The queue lies back to back up to the next sequence number. -/
theorem Encodes.queue_laid (inv : Encodes s accepted sent) :
    Laid s.isn s.unackedFrom s.outstandingSegments ∧
      s.nextSeqno = s.unackedFrom + seqLen s.outstandingSegments := by
  obtain ⟨gone, eq⟩ := inv.outstanding
  have laid := inv.laid
  have next := inv.next
  have flight := inv.flight
  rw [← eq, laid_append, Nat.zero_add] at laid
  rw [← eq, seqLen_append] at next
  have first : s.unackedFrom = seqLen gone := by rw [unackedFrom, flight]; omega
  exact ⟨first ▸ laid.2, by rw [first, next]⟩

theorem new_acked (capacity : Nat) (timeout : UInt16) (isn : WrappingInt32) :
    Acked 0 (new capacity timeout isn) :=
  ⟨rfl, Nat.le_refl _, Nat.le_refl _, by simp [new]⟩

theorem Acked.lt_ends (acked : Acked highest s) :
    ∀ e ∈ ends s.unackedFrom s.outstandingSegments, highest < e := by
  have ahead := acked.ahead
  cases queue : s.outstandingSegments with
  | nil => simp [ends]
  | cons front rest =>
    have first := ahead front (by simp [queue])
    intro e member
    simp only [ends, List.mem_cons] at member
    rcases member with rfl | member
    · exact first
    · exact first.trans_le (mem_ends_le member).1

/-- An emission appends to the queue and moves nothing else. -/
theorem Acked.pushes {u : TCPSender} {new : List TCPSegment} (acked : Acked highest s)
    (inv : Encodes s accepted sent) (pushes : Pushes s u new) : Acked highest u := by
  obtain ⟨_, next⟩ := inv.queue_laid
  have first : u.unackedFrom = s.unackedFrom := by
    simp only [unackedFrom, pushes.next, pushes.flight, inv.flight]
    omega
  have reached := acked.reached
  refine ⟨pushes.rcvBase.trans acked.base, by rw [pushes.next]; omega, first ▸ acked.first, ?_⟩
  rw [first, pushes.queue]
  cases queue : s.outstandingSegments with
  | nil =>
    -- Nothing was outstanding, so the new segments start at the next sequence number.
    rw [queue, seqLen_nil] at next
    intro seg member
    have := pushes.positive seg (List.mem_of_mem_head? (by simpa using member))
    omega
  | cons front rest =>
    intro seg member
    exact acked.ahead seg (by simpa [queue] using member)

theorem Acked.setWindow (acked : Acked highest s) (window : UInt16) :
    Acked highest (s.setWindow window) := ⟨acked.base, acked.reached, acked.first, acked.ahead⟩

/-- `ackReceived` takes an acknowledgement as new. -/
def Accepts (s : TCPSender) (ackno : WrappingInt32) : Prop :=
  unwrap ackno s.isn s.rcvBase ≤ s.nextSeqno ∧ s.rcvBase < unwrap ackno s.isn s.rcvBase

instance (s : TCPSender) (ackno : WrappingInt32) : Decidable (s.Accepts ackno) :=
  inferInstanceAs (Decidable (_ ∧ _))

theorem ackReceived_of_accepts {ackno : WrappingInt32} (accepts : s.Accepts ackno) (window : UInt16) :
    s.ackReceived ackno window =
      ((s.setWindow window).acknowledge (unwrap ackno s.isn s.rcvBase)).fillWindow := by
  rw [ackReceived, if_neg (not_lt.mpr accepts.1)]
  exact if_neg (not_le.mpr accepts.2)

/-- Ignored, taken for its window only, or taken as new. -/
theorem ackReceived_cases (s : TCPSender) (ackno : WrappingInt32) (window : UInt16) :
    (s.nextSeqno < unwrap ackno s.isn s.rcvBase ∧ s.ackReceived ackno window = s) ∨
    (unwrap ackno s.isn s.rcvBase ≤ s.rcvBase ∧ s.ackReceived ackno window = s.setWindow window) ∨
    s.Accepts ackno := by
  by_cases ahead : s.nextSeqno < unwrap ackno s.isn s.rcvBase
  · exact Or.inl ⟨ahead, if_pos ahead⟩
  by_cases old : unwrap ackno s.isn s.rcvBase ≤ s.rcvBase
  · refine Or.inr (Or.inl ⟨old, ?_⟩)
    rw [ackReceived, if_neg ahead]
    exact if_pos old
  · exact Or.inr (Or.inr ⟨not_lt.mp ahead, not_le.mp old⟩)

/-- Only the acknowledgement state changes before the window is filled again. -/
theorem ackReceived_fill (s : TCPSender) (ackno : WrappingInt32) (window : UInt16) :
    ∃ u, (u.stream = s.stream ∧ u.synSent = s.synSent ∧ u.finSent = s.finSent ∧
      u.nextSeqno = s.nextSeqno) ∧
      (s.ackReceived ackno window = u ∨ s.ackReceived ackno window = u.fillWindow) := by
  rcases s.ackReceived_cases ackno window with ⟨_, eq⟩ | ⟨_, eq⟩ | accepts
  · exact ⟨s, ⟨rfl, rfl, rfl, rfl⟩, Or.inl eq⟩
  · exact ⟨s.setWindow window, ⟨rfl, rfl, rfl, rfl⟩, Or.inl eq⟩
  · obtain ⟨_, _, _, ackEq⟩ := (s.setWindow window).acknowledge_eq (unwrap ackno s.isn s.rcvBase)
    refine ⟨_, ?_, Or.inr (ackReceived_of_accepts accepts window)⟩
    rw [ackEq]
    exact ⟨rfl, rfl, rfl, rfl⟩

/-- The state an acknowledgement must meet for the 32-bit comparison to be
right: an old one lies in the block of the highest, and behind a new one either
nothing is outstanding or some segment ends in that block. -/
def AckSafe (highest : Nat) (s : TCPSender) (a : Nat) : Prop :=
  (a ≤ highest ∧ a / 2 ^ 32 = highest / 2 ^ 32) ∨
  (highest < a ∧ (a = s.nextSeqno ∨
    ∃ e ∈ ends s.unackedFrom s.outstandingSegments, a < e ∧ e / 2 ^ 32 = highest / 2 ^ 32))

/-- A safe old acknowledgement is not taken as new, and a safe new one is read
exactly or past every stored end. -/
theorem Acked.decode (acked : Acked highest s) {a : Nat} (near : a ≤ highest + 2 ^ 31 ∧ highest ≤ a + 2 ^ 31)
    (safe : AckSafe highest s a) (accepts : s.Accepts (wrap a s.isn)) :
    highest < a ∧ unwrap (wrap a s.isn) s.isn s.rcvBase % 2 ^ 32 = a % 2 ^ 32 ∧
      (a / 2 ^ 32 = highest / 2 ^ 32 → unwrap (wrap a s.isn) s.isn s.rcvBase = a % 2 ^ 32) ∧
      (a / 2 ^ 32 ≠ highest / 2 ^ 32 → 2 ^ 32 ≤ unwrap (wrap a s.isn) s.isn s.rcvBase) := by
  obtain ⟨_, new⟩ := accepts
  have base := acked.base
  rw [unwrap_wrap_eq a s.rcvBase s.isn (by omega)] at new ⊢
  rw [base] at new ⊢
  rcases safe with ⟨old, block⟩ | ⟨fresh, _⟩
  · exfalso
    split_ifs at new <;> omega
  · refine ⟨fresh, ?_, ?_, ?_⟩ <;> split_ifs at new ⊢ <;> omega

/-- What the pop loop does to a laid-out queue. -/
theorem Encodes.popped_spec (inv : Encodes s accepted sent) (a : Nat) :
    ∃ gone, s.outstandingSegments = gone ++ (s.popped a).1 ∧
      (s.popped a).2.1 = seqLen (s.popped a).1 ∧
      (∀ e ∈ ends s.unackedFrom gone, e % 2 ^ 32 ≤ a) ∧
      ∀ seg ∈ (s.popped a).1.head?,
        a < (s.unackedFrom + seqLen gone + seg.lengthInSequenceSpace) % 2 ^ 32 := by
  have narrow : FixedWidth.trunc 32 a < 2 ^ 32 := Nat.mod_lt _ (by decide)
  obtain ⟨gone, split, flight, reached, stopped⟩ := popAcked_spec s.isn (FixedWidth.trunc 32 a) a
    s.outstandingSegments s.bytesInFlight false inv.flight
  obtain ⟨laid, _⟩ := inv.queue_laid
  rw [split, laid_append] at laid
  refine ⟨gone, split, flight, laid.1.endOfFront_ends narrow reached, ?_⟩
  intro seg member
  change seg ∈ (popAcked s.isn (FixedWidth.trunc 32 a) a s.outstandingSegments s.bytesInFlight
    false).1.head? at member
  obtain ⟨rest, eq⟩ := List.head?_eq_some_iff.mp member
  have placed := laid.2
  rw [eq] at placed
  rw [← endOfFront_eq narrow placed.1]
  exact stopped seg member

/-- What the pop loop removes is acknowledged from then on. -/
theorem Encodes.acknowledge_unackedFrom (inv : Encodes s accepted sent) (a : Nat) {gone : List TCPSegment}
    (split : s.outstandingSegments = gone ++ (s.popped a).1) (flight : (s.popped a).2.1 = seqLen (s.popped a).1) :
    (s.acknowledge a).unackedFrom = s.unackedFrom + seqLen gone := by
  obtain ⟨_, next⟩ := inv.queue_laid
  obtain ⟨_, _, _, eq⟩ := s.acknowledge_eq a
  rw [eq]
  simp only [unackedFrom, flight] at *
  rw [split, seqLen_append] at next
  omega

/-- A safe acknowledgement taken as new covers everything that the loop pops. -/
theorem Acked.covers_popped (acked : Acked highest s) (inv : Encodes s accepted sent) {a : Nat}
    (near : a ≤ highest + 2 ^ 31 ∧ highest ≤ a + 2 ^ 31) (safe : AckSafe highest s a)
    (accepts : s.Accepts (wrap a s.isn)) {gone : List TCPSegment}
    (split : s.outstandingSegments = gone ++ (s.popped (unwrap (wrap a s.isn) s.isn s.rcvBase)).1)
    (reached : ∀ e ∈ ends s.unackedFrom gone, e % 2 ^ 32 ≤ unwrap (wrap a s.isn) s.isn s.rcvBase) :
    s.unackedFrom + seqLen gone ≤ a := by
  obtain ⟨fresh, low, inside, _⟩ := acked.decode near safe accepts
  generalize decoded : unwrap (wrap a s.isn) s.isn s.rcvBase = u at *
  obtain ⟨_, next⟩ := inv.queue_laid
  by_contra past
  have goneLe : s.unackedFrom + seqLen gone ≤ s.nextSeqno := by
    rw [next, split, seqLen_append]
    omega
  have nonempty : gone ≠ [] := by
    rintro rfl
    have := acked.first
    simp at past
    omega
  have last := reached _ (seqLen_mem_ends (a := s.unackedFrom) nonempty)
  rcases safe with ⟨old, _⟩ | ⟨_, whole | ⟨e, member, ahead, block⟩⟩
  · omega
  · omega
  · have exact := inside (by omega)
    rw [split, ends_append, List.mem_append] at member
    rcases member with member | member
    · -- The segment that should have stopped the loop was popped.
      have := reached e member
      omega
    · -- The loop went past the acknowledgement but stopped before that segment.
      have := (mem_ends_le member).1
      omega

/-- A safe acknowledgement taken as new retires exactly what it covers. -/
theorem Acked.retires (acked : Acked highest s) (inv : Encodes s accepted sent) {a : Nat}
    (bound : a ≤ s.nextSeqno) (near : a ≤ highest + 2 ^ 31 ∧ highest ≤ a + 2 ^ 31)
    (safe : AckSafe highest s a) (accepts : s.Accepts (wrap a s.isn)) :
    ∃ gone, s.outstandingSegments = gone ++ (s.popped (unwrap (wrap a s.isn) s.isn s.rcvBase)).1 ∧
      highest < a ∧ s.unackedFrom + seqLen gone ≤ a ∧
      Acked a (s.acknowledge (unwrap (wrap a s.isn) s.isn s.rcvBase)) := by
  obtain ⟨fresh, low, inside, across⟩ := acked.decode near safe accepts
  obtain ⟨gone, split, flight, reached, stopped⟩ := inv.popped_spec (unwrap (wrap a s.isn) s.isn s.rcvBase)
  have covered := acked.covers_popped inv near safe accepts split reached
  have first := inv.acknowledge_unackedFrom _ split flight
  generalize unwrap (wrap a s.isn) s.isn s.rcvBase = u at *
  obtain ⟨_, _, _, eq⟩ := s.acknowledge_eq u
  refine ⟨gone, split, fresh, covered, by rw [eq]; exact low, by rw [eq]; exact bound, first ▸ covered, ?_⟩
  rw [first, eq]
  intro seg member
  have after := stopped seg member
  by_contra behind
  -- A segment that ends at or before the acknowledgement is not a stopping point.
  have unacked : highest < s.unackedFrom + seqLen gone + seg.lengthInSequenceSpace := by
    obtain ⟨rest, queue⟩ := List.head?_eq_some_iff.mp member
    change (s.popped u).1 = seg :: rest at queue
    apply acked.lt_ends
    rw [split, queue, ends_append, ends]
    simp
  by_cases block : a / 2 ^ 32 = highest / 2 ^ 32
  · have := inside block
    omega
  · have := across block
    omega

theorem Acked.same {u : TCPSender} (acked : Acked highest s) (base : u.rcvBase = s.rcvBase)
    (next : u.nextSeqno = s.nextSeqno) (flight : u.bytesInFlight = s.bytesInFlight)
    (queue : u.outstandingSegments = s.outstandingSegments) : Acked highest u := by
  have first : u.unackedFrom = s.unackedFrom := by rw [unackedFrom, next, flight, unackedFrom]
  exact ⟨base.trans acked.base, next ▸ acked.reached, first ▸ acked.first, by
    rw [first, queue]
    exact acked.ahead⟩

theorem Acked.tick (acked : Acked highest s) (ms : Nat) : Acked highest (s.tick ms) := by
  obtain ⟨_, _, _, _, _, eq⟩ := s.tick_eq ms
  rw [eq]
  exact acked.same rfl rfl rfl rfl

/-- The acknowledged base after an acknowledgement, given the one before. -/
def nextHighest (highest : Nat) (s : TCPSender) (a : Nat) : Nat :=
  if s.Accepts (wrap a s.isn) then max highest a else highest

/-- The effect of a safe acknowledgement that is taken as new. -/
theorem Acked.accept (acked : Acked highest s) (inv : Encodes s accepted sent) {a : Nat}
    (bound : a ≤ s.nextSeqno) (near : a ≤ highest + 2 ^ 31 ∧ highest ≤ a + 2 ^ 31)
    (safe : AckSafe highest s a) (accepts : s.Accepts (wrap a s.isn)) (window : UInt16) :
    ∃ gone rest new, s.outstandingSegments = gone ++ rest ∧
      (s.ackReceived (wrap a s.isn) window).outstandingSegments = rest ++ new ∧
      (s.ackReceived (wrap a s.isn) window).segmentsOut = s.segmentsOut ++ new ∧
      highest < a ∧ s.unackedFrom + seqLen gone ≤ a ∧
      Acked a (s.ackReceived (wrap a s.isn) window) := by
  obtain ⟨gone, split, fresh, covered, retired⟩ := (acked.setWindow window).retires
    (inv.setWindow window) bound near safe accepts
  obtain ⟨new, pushes⟩ := fillWindow_pushes
    ((s.setWindow window).acknowledge (unwrap (wrap a s.isn) s.isn s.rcvBase))
  rw [ackReceived_of_accepts accepts]
  refine ⟨gone, _, new, split, ?_, ?_, fresh, covered,
    retired.pushes ((inv.setWindow window).acknowledge _) pushes⟩
  · obtain ⟨_, _, _, ackEq⟩ := (s.setWindow window).acknowledge_eq
      (unwrap (wrap a s.isn) s.isn s.rcvBase)
    rw [pushes.queue, ackEq]
    rfl
  · rw [pushes.out, acknowledge_segmentsOut]
    rfl

theorem Acked.ackReceived (acked : Acked highest s) (inv : Encodes s accepted sent) {a : Nat}
    (bound : a ≤ s.nextSeqno) (near : a ≤ highest + 2 ^ 31 ∧ highest ≤ a + 2 ^ 31)
    (safe : AckSafe highest s a) (window : UInt16) :
    Acked (nextHighest highest s a) (s.ackReceived (wrap a s.isn) window) := by
  by_cases accepts : s.Accepts (wrap a s.isn)
  · obtain ⟨_, _, _, _, _, _, fresh, _, after⟩ := acked.accept inv bound near safe accepts window
    rwa [nextHighest, if_pos accepts, Nat.max_eq_right fresh.le]
  · rw [nextHighest, if_neg accepts]
    rcases s.ackReceived_cases (wrap a s.isn) window with ⟨_, eq⟩ | ⟨_, eq⟩ | taken
    · rwa [eq]
    · rw [eq]
      exact acked.setWindow window
    · exact absurd taken accepts

end Sponge.TCPSender
