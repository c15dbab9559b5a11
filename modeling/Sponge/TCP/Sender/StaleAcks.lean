import Sponge.TCP.Sender.Window

/-! The right edge of the send window against the pairs of acknowledgement and
window that have been delivered, in whatever order. A stale pair changes the
window and keeps the base. -/
namespace Sponge.TCPSender

/-- A run together with the pairs given to `ackReceived`, oldest first. -/
structure Advertised where
  history : History
  delivered : List (Nat × UInt16)

namespace Advertised

def step (t : Advertised) (op : Op Nat) : Advertised where
  history := t.history.step (op.map (wrap · t.history.sender.isn))
  delivered := match op with
    | .ackReceived a window => t.delivered ++ [(a, window)]
    | _ => t.delivered

def start (capacity : Nat) (timeout : UInt16) (isn : WrappingInt32) : Advertised :=
  ⟨.start capacity timeout isn, []⟩

/-- The largest right edge among pairs that acknowledge no more than `next`,
with the initial window as the pair of 0 and 1. -/
def rightEdge (next : Nat) (pairs : List (Nat × UInt16)) : Nat :=
  ((((0, 1) :: pairs).filter (fun pair => decide (pair.1 ≤ next))).map
    (fun pair => pair.1 + max 1 pair.2.toNat)).foldr max ⊥

/-- The send window ends where some delivered pair said it may. -/
def EdgeAdvertised (t : Advertised) : Prop :=
  t.history.sender.rcvBase + t.history.sender.receiverWindowSize ≤
    rightEdge t.history.sender.nextSeqno t.delivered

/-- A pair that is ignored, or one that does not enlarge the window without
moving the base. -/
def Timely (t : Advertised) : Op Nat → Prop
  | .ackReceived a window =>
    t.history.sender.nextSeqno < a % 2 ^ 32 ∨
    (a ≤ t.history.sender.nextSeqno ∧
      (a < t.history.sender.rcvBase → window.toNat ≤ max 1 t.history.sender.receiverWindowSize))
  | _ => True

/-- Pairs in the order a receiver sends them: neither the acknowledgement nor
the right edge decreases. -/
def SentInOrder (pairs : List (Nat × UInt16)) : Prop :=
  pairs.Pairwise (fun early late => early.1 ≤ late.1 ∧
    early.1 + early.2.toNat ≤ late.1 + late.2.toNat)

/-- Acknowledgements are drawn from `pairs`, in any order and any number of times. -/
def DrawnFrom (pairs : List (Nat × UInt16)) (_ : Advertised) : Op Nat → Prop
  | .ackReceived a window => (a, window) ∈ pairs
  | _ => True

theorem le_rightEdge {next a : Nat} {window : UInt16} {pairs : List (Nat × UInt16)}
    (member : (a, window) ∈ (0, 1) :: pairs) (sent : a ≤ next) :
    a + max 1 window.toNat ≤ rightEdge next pairs :=
  List.le_max_of_le (List.mem_map.mpr
    ⟨(a, window), List.mem_filter.mpr ⟨member, by simpa using sent⟩, rfl⟩) le_rfl

/-- The edge only grows, with time and with more pairs. -/
theorem rightEdge_mono {next later : Nat} {pairs more : List (Nat × UInt16)} (ordered : next ≤ later)
    (subset : pairs ⊆ more) : rightEdge next pairs ≤ rightEdge later more := by
  apply List.max_le_of_forall_le
  intro v member
  obtain ⟨⟨a, window⟩, kept, rfl⟩ := List.mem_map.mp member
  obtain ⟨member, sent⟩ := List.mem_filter.mp kept
  exact le_rightEdge (List.cons_subset_cons _ subset member) ((of_decide_eq_true sent).trans ordered)

/-- The invariant: a zero window counts as one here too. -/
def EdgeBounded (t : Advertised) : Prop :=
  Bounded t.history.sender ∧
    t.history.sender.edge ≤ rightEdge t.history.sender.nextSeqno t.delivered

variable {t : Advertised}

theorem step_delivered (t : Advertised) (op : Op Nat) : t.delivered ⊆ (t.step op).delivered := by
  cases op with
  | ackReceived a window => exact List.subset_append_left _ _
  | _ => exact List.Subset.refl _

theorem step_next_le (t : Advertised) (op : Op Nat) :
    t.history.sender.nextSeqno ≤ (t.step op).history.sender.nextSeqno := nextSeqno_le_apply _ _

theorem EdgeBounded.bounded (inv : EdgeBounded t) (op : Op Nat) :
    Bounded (t.step op).history.sender := inv.1.apply _

/-- Operations that do not move the edge forward keep the invariant. -/
theorem EdgeBounded.keep (inv : EdgeBounded t) (op : Op Nat)
    (same : (t.step op).history.sender.edge ≤ t.history.sender.edge) : EdgeBounded (t.step op) :=
  ⟨inv.bounded op, same.trans (inv.2.trans (rightEdge_mono (t.step_next_le op) (t.step_delivered op)))⟩

theorem edge_pushes {s u : TCPSender} {new : List TCPSegment} (pushes : Pushes s u new) :
    u.edge = s.edge := by
  rw [edge, edge, pushes.rcvBase, pushes.window]

theorem EdgeBounded.ack (inv : EdgeBounded t) (small : t.history.sender.nextSeqno < 2 ^ 31) {a : Nat}
    {window : UInt16} (timely : t.Timely (.ackReceived a window)) :
    EdgeBounded (t.step (.ackReceived a window)) := by
  have base := inv.1.base
  have decoded := unwrap_wrap_of_small a t.history.sender.rcvBase t.history.sender.isn (by omega)
  have delivered : (a, window) ∈ (0, 1) :: (t.step (.ackReceived a window)).delivered :=
    List.mem_cons_of_mem _ (List.mem_append_right _ (List.mem_singleton.mpr rfl))
  rcases t.history.sender.ackReceived_cases (wrap a t.history.sender.isn) window with
    ⟨ahead, eq⟩ | ⟨old, eq⟩ | accepts
  · exact inv.keep (.ackReceived a window) (congrArg edge eq).le
  · obtain ⟨sent, stale⟩ := timely.resolve_left (by omega)
    have after : (t.step (.ackReceived a window)).history.sender = t.history.sender.setWindow window := eq
    rcases Nat.lt_or_ge a t.history.sender.rcvBase with below | above
    · have shrinks := stale below
      apply inv.keep (.ackReceived a window)
      rw [after]
      simp only [edge, setWindow]
      omega
    · -- A repetition of the newest acknowledgement: its own edge is among the delivered ones.
      refine ⟨inv.bounded _, ?_⟩
      have own := le_rightEdge delivered sent
      rw [after]
      simp only [edge, setWindow]
      omega
  · have sent : a ≤ t.history.sender.nextSeqno := (timely.resolve_left (by
      have := accepts.1
      omega)).1
    obtain ⟨_, _, _, ackEq⟩ := (t.history.sender.setWindow window).acknowledge_eq
      (unwrap (wrap a t.history.sender.isn) t.history.sender.isn t.history.sender.rcvBase)
    obtain ⟨new, pushes⟩ := fillWindow_pushes ((t.history.sender.setWindow window).acknowledge
      (unwrap (wrap a t.history.sender.isn) t.history.sender.isn t.history.sender.rcvBase))
    have after : (t.step (.ackReceived a window)).history.sender = _ := ackReceived_of_accepts accepts window
    have own := le_rightEdge delivered (sent.trans (t.step_next_le (.ackReceived a window)))
    refine ⟨inv.bounded _, le_of_eq_of_le ?_ own⟩
    rw [after, edge_pushes pushes, ackEq]
    simp only [edge, setWindow, FixedWidth.trunc, decoded]
    omega

theorem EdgeBounded.step (inv : EdgeBounded t) (small : t.history.sender.nextSeqno < 2 ^ 31)
    (op : Op Nat) (timely : t.Timely op) : EdgeBounded (t.step op) := by
  cases op with
  | write data => exact inv.keep (.write data) le_rfl
  | endInput => exact inv.keep .endInput le_rfl
  | fillWindow =>
    obtain ⟨new, pushes⟩ := t.history.sender.fillWindow_pushes
    exact inv.keep .fillWindow (edge_pushes pushes).le
  | ackReceived a window => exact inv.ack small timely
  | tick ms =>
    obtain ⟨_, _, _, _, _, eq⟩ := t.history.sender.tick_eq ms
    exact inv.keep (.tick ms) (congrArg edge eq).le
  | sendEmptySegment => exact inv.keep .sendEmptySegment le_rfl

/-- A run in which no stale pair enlarges the window. -/
abbrev TimelyRun (capacity : Nat) (timeout : UInt16) (isn : WrappingInt32) : Advertised → Prop :=
  Run.Reaches step Timely (start capacity timeout isn)

theorem TimelyRun.edgeBounded {capacity : Nat} {timeout : UInt16} {isn : WrappingInt32}
    (run : TimelyRun capacity timeout isn t) : t.history.sender.nextSeqno < 2 ^ 31 → EdgeBounded t := by
  apply run.invariant (P := fun u => u.history.sender.nextSeqno < 2 ^ 31 → EdgeBounded u)
  · exact fun _ => ⟨⟨Nat.le_refl _, (by decide : 1 < 2 ^ 16)⟩,
      le_rightEdge List.mem_cons_self (Nat.zero_le _)⟩
  · intro u op inv timely small
    have before := (u.step_next_le op).trans_lt small
    exact (inv before).step before op timely

/-- In every run without a stale pair of a larger window, whatever the order of
delivery, the send window ends where some delivered pair said it may. -/
theorem run_edge_advertised (capacity : Nat) (timeout : UInt16) (isn : WrappingInt32) (t : Advertised)
    (run : TimelyRun capacity timeout isn t) (small : t.history.sender.nextSeqno < 2 ^ 31) :
    t.EdgeAdvertised := by
  have bound := (TimelyRun.edgeBounded run small).2
  have window := le_max_right 1 t.history.sender.receiverWindowSize
  rw [edge] at bound
  rw [EdgeAdvertised]
  omega

/-- Fifty bytes are sent and acknowledged in order. -/
def inOrder : Advertised :=
  ((((start 200 1000 ⟨0⟩).step .fillWindow).step (.ackReceived 1 100)).step
    (.write (List.replicate 50 0))).step .fillWindow

theorem inOrder_timely : TimelyRun 200 1000 ⟨0⟩ inOrder := by
  have opened : TimelyRun 200 1000 ⟨0⟩ ((start 200 1000 ⟨0⟩).step .fillWindow) :=
    (show TimelyRun 200 1000 ⟨0⟩ (start 200 1000 ⟨0⟩) from .refl _).snoc .fillWindow trivial
  exact ((opened.snoc (.ackReceived 1 100) (by unfold Timely; decide)).snoc
    (.write (List.replicate 50 0)) trivial).snoc .fillWindow trivial

theorem run_edge_advertised_inOrder :
    TimelyRun 200 1000 ⟨0⟩ inOrder ∧ inOrder.history.sender.nextSeqno < 2 ^ 31 ∧
      inOrder.EdgeAdvertised :=
  ⟨inOrder_timely, by decide, run_edge_advertised 200 1000 ⟨0⟩ inOrder inOrder_timely (by decide)⟩

/-- The pair (51, 50) is overtaken by an old copy of (1, 100): the window of the
old pair is combined with the base of the new one. -/
theorem stale_pair_enlarges_window :
    ¬ ∀ (pairs : List (Nat × UInt16)) (capacity : Nat) (timeout : UInt16) (isn : WrappingInt32)
      (t : Advertised), SentInOrder pairs →
      Run.Reaches step (DrawnFrom pairs) (start capacity timeout isn) t →
      t.history.sender.nextSeqno < 2 ^ 31 → t.EdgeAdvertised := by
  intro law
  have run : Run.Reaches step (DrawnFrom [(1, 100), (51, 50)]) (start 200 1000 ⟨0⟩) inOrder := by
    have opened : Run.Reaches step (DrawnFrom [(1, 100), (51, 50)]) (start 200 1000 ⟨0⟩)
        ((start 200 1000 ⟨0⟩).step .fillWindow) :=
      (show Run.Reaches step (DrawnFrom [(1, 100), (51, 50)]) (start 200 1000 ⟨0⟩)
        (start 200 1000 ⟨0⟩) from .refl _).snoc .fillWindow trivial
    exact ((opened.snoc (.ackReceived 1 100) (by unfold DrawnFrom; decide)).snoc
      (.write (List.replicate 50 0)) trivial).snoc .fillWindow trivial
  have overtaken := (run.snoc (.ackReceived 51 50) (by unfold DrawnFrom; decide)).snoc
    (.ackReceived 1 100) (by unfold DrawnFrom; decide)
  have bound := law _ _ _ _ _ (by unfold SentInOrder; decide) overtaken (by decide)
  revert bound
  unfold EdgeAdvertised
  decide

end Advertised
end Sponge.TCPSender
