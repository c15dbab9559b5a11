import Sponge.NetworkSimulator

/-! What a host's check says: datagrams are compared as they are serialised, and
the check passes if what was received is what was expected, in any order. -/
namespace Sponge

/-- The bytes of a well-formed datagram. -/
def IPv4Datagram.wire (d : IPv4Datagram) : Buffer := d.headerOut.bytes ++ d.payload.concatenate

namespace NetworkSimulator.Host

variable {x d : IPv4Datagram} {host after : Host} {list : List IPv4Datagram}

theorem sameBytes_ok (left : x.WellFormed) (right : d.WellFormed) :
    sameBytes x d = .ok (decide (x.wire = d.wire)) := by
  rw [sameBytes, left.serialize, right.serialize]
  exact congrArg Except.ok (beq_eq_decide _ _)

theorem anyM_sameBytes (fine : ∀ x ∈ list, x.WellFormed) (right : d.WellFormed) :
    (list.anyM fun x => sameBytes x d) = .ok (decide (d.wire ∈ list.map IPv4Datagram.wire)) := by
  induction list with
  | nil => rfl
  | cons x rest ih =>
    obtain ⟨left, others⟩ := List.forall_mem_cons.mp fine
    rw [List.anyM_cons, sameBytes_ok left right, ih others]
    by_cases same : x.wire = d.wire
    · simp [same, bind, Except.bind]
      rfl
    · simp [same, Ne.symm same, bind, Except.bind]

/-- The loop erases one datagram with the bytes of `d`. -/
theorem eraseExpected_ok (fine : ∀ x ∈ list, x.WellFormed) (right : d.WellFormed) :
    ∃ rest, eraseExpected d list = .ok rest ∧ rest ⊆ list ∧
      rest.map IPv4Datagram.wire = (list.map IPv4Datagram.wire).erase d.wire := by
  induction list with
  | nil => exact ⟨[], rfl, List.Subset.refl _, rfl⟩
  | cons x rest ih =>
    obtain ⟨left, others⟩ := List.forall_mem_cons.mp fine
    rw [eraseExpected, sameBytes_ok left right]
    by_cases same : x.wire = d.wire
    · refine ⟨rest, by simp [same, bind, Except.bind]; rfl, List.subset_cons_self _ _, ?_⟩
      rw [List.map_cons, same, List.erase_cons_head]
    · obtain ⟨kept, eq, fewer, erased⟩ := ih others
      refine ⟨x :: kept, by simp [same, bind, Except.bind, eq]; rfl, List.cons_subset_cons x fewer, ?_⟩
      rw [List.map_cons, List.map_cons, List.erase_cons_tail (by simpa using same), erased]

/-- Nothing is received any more, and what is expected is less. -/
theorem checkReceived_frame (checked : host.checkReceived list = .ok after) :
    ∃ expected, after = { host with
      interface := { host.interface with datagramsOut := [] }
      expectingToReceive := expected } := by
  induction list generalizing host with
  | nil =>
    cases checked
    exact ⟨host.expectingToReceive, rfl⟩
  | cons d rest ih =>
    obtain ⟨found, _, checked⟩ := Run.bind_eq_ok.mp checked
    split at checked
    · obtain ⟨removed, erased, checked⟩ := Run.bind_eq_ok.mp checked
      obtain ⟨expected, _, eq⟩ := Run.bind_eq_ok.mp erased
      cases eq
      exact @ih { host with expectingToReceive := expected } checked
    · cases checked

/-- A host that passed expects nothing and has nothing left. -/
theorem check_frame (checked : host.check = .ok after) :
    after = { host with interface := { host.interface with datagramsOut := [] }, expectingToReceive := [] } := by
  obtain ⟨received, loop, rest⟩ := Run.bind_eq_ok.mp checked
  obtain ⟨expected, rfl⟩ := checkReceived_frame loop
  split at rest
  · rename_i none
    cases rest
    rw [← none]
  · cases rest

/-- The loop passes if what was received is among what was expected, by induction
on what was received; the rest is left over. -/
theorem checkReceived_ok_iff (received : ∀ d ∈ list, d.WellFormed)
    (expected : ∀ d ∈ host.expectingToReceive, d.WellFormed) :
    (∃ after, host.checkReceived list = .ok after ∧ after.expectingToReceive = []) ↔
      (list.map IPv4Datagram.wire).Perm (host.expectingToReceive.map IPv4Datagram.wire) := by
  induction list generalizing host with
  | nil =>
    rw [List.map_nil, List.nil_perm, List.map_eq_nil_iff]
    constructor
    · rintro ⟨after, checked, empty⟩
      cases checked
      exact empty
    · exact fun empty => ⟨_, rfl, empty⟩
  | cons d rest ih =>
    obtain ⟨first, others⟩ := List.forall_mem_cons.mp received
    rw [List.map_cons, List.cons_perm_iff_perm_erase, checkReceived, expecting, anyM_sameBytes expected first]
    by_cases member : d.wire ∈ host.expectingToReceive.map IPv4Datagram.wire
    · obtain ⟨left, eq, fewer, erased⟩ := eraseExpected_ok expected first
      have next := @ih { host with expectingToReceive := left } others fun x member => expected x (fewer member)
      simp only [member, removeExpectation, eq, ← erased, true_and]
      exact next
    · simp [member, bind, Except.bind]

/-- The check of a host passes exactly if the datagrams that it has received are
those it expects, in any order, compared byte by byte. -/
theorem check_passes_iff {host : Host} (received : ∀ d ∈ host.interface.datagramsOut, d.WellFormed)
    (expected : ∀ d ∈ host.expectingToReceive, d.WellFormed) :
    (∃ after, host.check = .ok after) ↔
      (host.interface.datagramsOut.map IPv4Datagram.wire).Perm (host.expectingToReceive.map IPv4Datagram.wire) := by
  rw [← checkReceived_ok_iff received expected]
  constructor
  · rintro ⟨after, checked⟩
    obtain ⟨left, loop, rest⟩ := Run.bind_eq_ok.mp checked
    split at rest
    · exact ⟨left, loop, ‹_›⟩
    · cases rest
  · rintro ⟨after, loop, empty⟩
    refine ⟨after, ?_⟩
    rw [check, loop]
    simp only [bind, Except.bind, empty]
    rfl

/-- Two datagrams came in the other order. -/
def swapped : Host where
  name := "cherrypie"
  myAddress := 0xc0a80002
  interface := { toNetworkInterface := .new (.repeated 2) 0xc0a80002
                 datagramsOut := [Router.datagramTo 1, Router.datagramTo 2] }
  nextHop := 0xc0a80001
  expectingToReceive := [Router.datagramTo 2, Router.datagramTo 1]

theorem check_passes_iff_swapped : ∃ after, swapped.check = .ok after := by
  have empty : ∀ dst, (Router.datagramTo dst).WellFormed := fun dst =>
    ⟨rfl, (by decide : 5 ≤ (5 : UInt8).toNat ∧ (5 : UInt8).toNat ≤ 15),
      (by decide : 0 = ((20 : UInt16) - 4 * UInt16.ofNat (5 : UInt8).toNat).toNat)⟩
  refine (@check_passes_iff swapped ?_ ?_).mpr (List.Perm.swap _ _ _)
  · simp [swapped, empty]
  · simp [swapped, empty]

end NetworkSimulator.Host
end Sponge
