import Sponge.Router

/-! Which route the router selects. The documentation asks for the longest prefix
whose own bits agree with the destination; the loop compares the whole stored
prefix, so a route with a bit set below its prefix length is never selected. -/
namespace Sponge

namespace RouteEntry

/-- Number of bits below the prefix. -/
def hostBits (entry : RouteEntry) : Nat := 32 - entry.prefixLength.toNat

/-- The most significant bits, as many as the prefix length says, agree. -/
def Applies (entry : RouteEntry) (dst : UInt32) : Prop :=
  entry.routePrefix.toNat / 2 ^ entry.hostBits = dst.toNat / 2 ^ entry.hostBits

instance (entry : RouteEntry) (dst : UInt32) : Decidable (entry.Applies dst) :=
  inferInstanceAs (Decidable (_ = _))

/-- No bit is set below the prefix length. -/
def Clean (entry : RouteEntry) : Prop := entry.routePrefix.toNat % 2 ^ entry.hostBits = 0

instance (entry : RouteEntry) : Decidable entry.Clean := inferInstanceAs (Decidable (_ = _))

/-- The next hop, or the destination itself on an attached network. -/
def hop (entry : RouteEntry) (dst : UInt32) : UInt32 := entry.nextHop.getD dst

/-- The call that forwards `dgram` on this route. -/
def call (entry : RouteEntry) (dgram : IPv4Datagram) : SendCall where
  interfaceNum := entry.interfaceNum
  dgram := { dgram with header := { dgram.header with ttl := dgram.header.ttl - 1 } }
  nextHop := entry.hop dgram.header.dst

theorem mask_toNat {entry : RouteEntry} (short : entry.prefixLength.toNat ≤ 32) :
    entry.mask.toNat = ((2 ^ 32 - 1) <<< entry.hostBits) % 2 ^ 32 := by
  unfold mask hostBits
  by_cases all : entry.prefixLength = 0
  · rw [if_pos all, all]
    decide
  · have some : entry.prefixLength.toNat ≠ 0 := fun zero => all (UInt8.toNat_inj.mp zero)
    have shift : (32 - UInt32.ofNat entry.prefixLength.toNat).toNat = 32 - entry.prefixLength.toNat := by
      have size : (UInt32.ofNat entry.prefixLength.toNat).toNat = entry.prefixLength.toNat := by
        rw [UInt32.toNat_ofNat', Nat.mod_eq_of_lt (by omega)]
      have le : UInt32.ofNat entry.prefixLength.toNat ≤ 32 := by
        rw [UInt32.le_iff_toNat_le, size]
        exact short
      rw [UInt32.toNat_sub_of_le _ _ le, size]
      rfl
    rw [if_neg all, UInt32.toNat_shiftLeft, shift, Nat.mod_eq_of_lt (by omega : 32 - entry.prefixLength.toNat < 32)]
    rfl

/-- Masking keeps the bits of the prefix. -/
theorem and_mask_toNat {entry : RouteEntry} (short : entry.prefixLength.toNat ≤ 32) (dst : UInt32) :
    (dst &&& entry.mask).toNat = dst.toNat / 2 ^ entry.hostBits * 2 ^ entry.hostBits := by
  rw [UInt32.toNat_and, mask_toNat short, ← Nat.shiftRight_eq_div_pow, ← Nat.shiftLeft_eq]
  apply Nat.eq_of_testBit_eq
  intro bit
  have outside : 32 ≤ bit → dst.toNat.testBit bit = false := by
    intro high
    exact Nat.testBit_lt_two_pow (lt_of_lt_of_le dst.toNat_lt (Nat.pow_le_pow_right (by decide) high))
  simp only [Nat.testBit_and, Nat.testBit_mod_two_pow, Nat.testBit_shiftLeft, Nat.testBit_two_pow_sub_one,
    Nat.testBit_shiftRight]
  by_cases low : entry.hostBits ≤ bit
  · rw [Nat.add_sub_cancel' low]
    by_cases high : bit < 32
    · simp [low, high]
      omega
    · simp [outside (by omega)]
  · simp [low]

/-- The comparison of the loop: the prefix agrees and nothing stands below it. -/
theorem and_mask_eq_iff {entry : RouteEntry} (short : entry.prefixLength.toNat ≤ 32) (dst : UInt32) :
    (dst &&& entry.mask) = entry.routePrefix ↔ entry.Clean ∧ entry.Applies dst := by
  have parts := Nat.div_add_mod entry.routePrefix.toNat (2 ^ entry.hostBits)
  rw [← UInt32.toNat_inj, and_mask_toNat short, Clean, Applies]
  constructor
  · intro eq
    rw [← eq]
    exact ⟨Nat.mul_mod_left _ _, Nat.mul_div_cancel _ (Nat.two_pow_pos _)⟩
  · rintro ⟨clean, agrees⟩
    rw [clean, agrees, Nat.mul_comm] at parts
    exact parts

end RouteEntry

namespace Router

/-- The first of the applicable routes with the greatest prefix length. -/
def bestRoute (table : List RouteEntry) (dst : UInt32) : Option RouteEntry :=
  (table.filter (fun entry => entry.Applies dst)).argmax (fun entry => entry.prefixLength.toNat)

/-- The loop has found `chosen`, by its place in the table. -/
def Found (table : List RouteEntry) (m : Match) : Option RouteEntry → Prop
  | none => m = {}
  | some entry => ∃ n : Nat, table[n]? = some entry ∧ m = ⟨n, entry.prefixLength.toNat⟩

theorem Found.snoc {table : List RouteEntry} {m : Match} {chosen : Option RouteEntry}
    (found : Found table m chosen) (entry : RouteEntry) : Found (table ++ [entry]) m chosen := by
  cases chosen with
  | none => exact found
  | some best =>
    obtain ⟨n, place, eq⟩ := found
    have inside := (List.getElem?_eq_some_iff.mp place).1
    exact ⟨n, (List.getElem?_append_left inside).trans place, eq⟩

/-- One more route in the table: only a clean one that applies and is longer counts. -/
theorem bestRoute_clean_snoc (table : List RouteEntry) (entry : RouteEntry) (dst : UInt32) :
    bestRoute ((table ++ [entry]).filter (fun entry => entry.Clean)) dst =
      if entry.Clean ∧ entry.Applies dst then
        match bestRoute (table.filter (fun entry => entry.Clean)) dst with
        | none => some entry
        | some old => if old.prefixLength.toNat < entry.prefixLength.toNat then some entry else some old
      else bestRoute (table.filter (fun entry => entry.Clean)) dst := by
  by_cases clean : entry.Clean
  · by_cases applies : entry.Applies dst
    · have more : bestRoute ((table ++ [entry]).filter (fun entry => entry.Clean)) dst =
          ((table.filter (fun entry => entry.Clean)).filter (fun entry => entry.Applies dst) ++ [entry]).argmax
            (fun entry => entry.prefixLength.toNat) := by
        simp [bestRoute, List.filter_append, clean, applies]
      rw [more, List.argmax_concat, if_pos ⟨clean, applies⟩, bestRoute]
      cases List.argmax (fun entry : RouteEntry => entry.prefixLength.toNat)
        ((table.filter (fun entry => entry.Clean)).filter (fun entry => entry.Applies dst)) <;> rfl
    · simp [bestRoute, List.filter_append, clean, applies]
  · simp [List.filter_append, clean]

/-- The loop over the table: the best one of the clean routes. -/
theorem longestMatch_found {table : List RouteEntry} (short : ∀ entry ∈ table, entry.prefixLength.toNat ≤ 32)
    (dst : UInt32) :
    Found table (longestMatch table dst) (bestRoute (table.filter (fun entry => entry.Clean)) dst) := by
  induction table using List.reverseRecOn with
  | nil => rfl
  | append_singleton table entry ih =>
    have before := (ih (fun other member => short other (List.mem_append_left _ member)))
    have agrees := RouteEntry.and_mask_eq_iff (short entry (by simp)) dst
    have last : longestMatch (table ++ [entry]) dst =
        matchEntry dst (longestMatch table dst) (entry, table.length) := by
      simp [longestMatch, List.zipIdx_append]
    rw [last, matchEntry]
    generalize longestMatch table dst = m at before ⊢
    have here : (table ++ [entry])[table.length]? = some entry := by simp
    simp only [agrees, bestRoute_clean_snoc]
    by_cases selected : entry.Clean ∧ entry.Applies dst
    · rw [if_pos selected]
      cases best : bestRoute (table.filter (fun entry => entry.Clean)) dst with
      | none =>
        rw [best] at before
        subst before
        rw [if_pos ⟨selected, by simp; omega⟩]
        exact ⟨table.length, here, rfl⟩
      | some old =>
        rw [best] at before
        have length : m.matchLen = old.prefixLength.toNat := by
          obtain ⟨n, _, rfl⟩ := before
          rfl
        by_cases longer : old.prefixLength.toNat < entry.prefixLength.toNat
        · simp only [longer, if_true]
          rw [if_pos ⟨selected, by omega⟩]
          exact ⟨table.length, here, rfl⟩
        · simp only [longer, if_false]
          rw [if_neg (by omega)]
          exact before.snoc entry
    · rw [if_neg selected, if_neg (fun both => selected both.1)]
      exact before.snoc entry

/-- What the code forwards: over the best of the clean routes. -/
theorem forward_eq {table : List RouteEntry} (short : ∀ entry ∈ table, entry.prefixLength.toNat ≤ 32)
    (dgram : IPv4Datagram) :
    forward table dgram = if dgram.header.ttl ≤ 1 then none else
      (bestRoute (table.filter (fun entry => entry.Clean)) dgram.header.dst).map fun entry => entry.call dgram := by
  have found := longestMatch_found short dgram.header.dst
  unfold forward
  by_cases expired : dgram.header.ttl ≤ 1
  · rw [if_pos expired, if_pos expired]
  rw [if_neg expired, if_neg expired]
  generalize longestMatch table dgram.header.dst = m at found ⊢
  cases best : bestRoute (table.filter (fun entry => entry.Clean)) dgram.header.dst with
  | none =>
    rw [best] at found
    subst found
    rfl
  | some entry =>
    rw [best] at found
    obtain ⟨n, place, rfl⟩ := found
    have index : ¬ (n : Int) = -1 := by omega
    simp only [if_neg index, Int.toNat_natCast, place, Option.map_some]
    cases hop : entry.nextHop <;> simp [RouteEntry.call, RouteEntry.hop, hop]

/-- Taking away elements that were not first leaves the first one in place. -/
theorem argmax_filter {α : Type} {rank : α → Nat} {keep : α → Bool} {items : List α} {best : α}
    (first : items.argmax rank = some best) (kept : keep best = true) :
    (items.filter keep).argmax rank = some best := by
  induction items using List.reverseRecOn with
  | nil => simp at first
  | append_singleton items item ih =>
    rw [List.argmax_concat] at first
    cases before : items.argmax rank with
    | none =>
      obtain rfl := List.argmax_eq_none.mp before
      obtain rfl : item = best := by simpa using first
      simp [kept]
    | some old =>
      simp only [before] at first
      split at first
      case isTrue longer =>
        obtain rfl : item = best := by simpa using first
        rw [List.filter_append, show [item].filter keep = [item] by simp [kept], List.argmax_concat]
        cases left : (items.filter keep).argmax rank with
        | none => rfl
        | some other =>
          have bound := List.le_of_mem_argmax (List.mem_of_mem_filter (List.argmax_mem left)) before
          simp only [if_pos (lt_of_le_of_lt bound longer)]
      case isFalse shorter =>
        obtain rfl : old = best := by simpa using first
        have stays := ih before
        rw [List.filter_append]
        by_cases more : keep item = true
        · rw [show [item].filter keep = [item] by simp [more], List.argmax_concat]
          simp only [stays, if_neg shorter]
        · simpa [more] using stays

theorem bestRoute_mem {table : List RouteEntry} {dst : UInt32} {entry : RouteEntry}
    (best : bestRoute table dst = some entry) : entry ∈ table ∧ entry.Applies dst := by
  simpa using List.mem_filter.mp (List.argmax_mem best)

/-- A clean route that wins among all routes wins among the clean ones. -/
theorem bestRoute_clean {table : List RouteEntry} {dst : UInt32} {entry : RouteEntry}
    (best : bestRoute table dst = some entry) (clean : entry.Clean) :
    bestRoute (table.filter (fun entry => entry.Clean)) dst = some entry := by
  rw [bestRoute, List.filter_comm]
  exact argmax_filter best (by simpa using clean)

/-- The datagram takes the documented route, and is dropped if there is none. -/
def RoutedAsDocumented (r : Router) (dgram : IPv4Datagram) : Prop :=
  let documented := (bestRoute r.routingTable dgram.header.dst).map fun entry => entry.call dgram
  forward r.routingTable dgram = documented ∧
    r.routeOneDatagram dgram = match documented with
      | none => .ok ([], r)
      | some call => do
        let r ← r.sendDatagram call
        return ([call], r)

/-- A datagram with time to live takes the documented route if and only if that
route has no bit set below its prefix length, or the best of the routes without
such bits leads to the same interface and next hop. -/
theorem routed_as_documented_iff {r : Router} {dgram : IPv4Datagram}
    (short : ∀ entry ∈ r.routingTable, entry.prefixLength.toNat ≤ 32) (alive : 2 ≤ dgram.header.ttl.toNat) :
    RoutedAsDocumented r dgram ↔
      ∀ best, bestRoute r.routingTable dgram.header.dst = some best → best.Clean ∨
        ∃ other, bestRoute (r.routingTable.filter (fun entry => entry.Clean)) dgram.header.dst = some other ∧
          other.interfaceNum = best.interfaceNum ∧
          other.hop dgram.header.dst = best.hop dgram.header.dst := by
  have ttl : ¬ dgram.header.ttl ≤ 1 := by
    rw [UInt8.le_iff_toNat_le, show (1 : UInt8).toNat = 1 from rfl]
    omega
  have decided := forward_eq short dgram
  rw [if_neg ttl] at decided
  have performed : RoutedAsDocumented r dgram ↔ forward r.routingTable dgram =
      (bestRoute r.routingTable dgram.header.dst).map fun entry => entry.call dgram := by
    constructor
    · exact And.left
    · exact fun same => ⟨same, same ▸ rfl⟩
  rw [performed, decided]
  cases documented : bestRoute r.routingTable dgram.header.dst with
  | none =>
    have nothing : bestRoute (r.routingTable.filter (fun entry => entry.Clean)) dgram.header.dst = none := by
      rw [bestRoute, List.filter_comm, List.argmax_eq_none.mp documented]
      rfl
    simp [nothing]
  | some best =>
    have only : ∀ b, some best = some b ↔ b = best := fun b => by simp [eq_comm]
    simp only [only, forall_eq]
    by_cases clean : best.Clean
    · simp [clean, bestRoute_clean documented clean]
    · simp only [clean, false_or]
      cases bestRoute (r.routingTable.filter (fun entry => entry.Clean)) dgram.header.dst with
      | none => simp
      | some other => simp [RouteEntry.call]

/-- The route of the network simulator that carries host bits. -/
def mitRoute : RouteEntry := ⟨0x801e4cff, 16, some 0x801e0001, 6⟩

/-- A datagram without payload for `dst`. -/
def datagramTo (dst : UInt32) : IPv4Datagram := { header := { len := 20, dst := dst } }

/-- The default route and the network 10.0.0.0/8 of the simulator. -/
def twoRoutes : Router where
  interfaces := []
  routingTable := [⟨0, 0, some 0xab434c01, 0⟩, ⟨0x0a000000, 8, none, 1⟩]

theorem routed_as_documented_iff_twoRoutes :
    RoutedAsDocumented twoRoutes (datagramTo 0x0a000002) ∧
      bestRoute twoRoutes.routingTable 0x0a000002 = some ⟨0x0a000000, 8, none, 1⟩ := by
  have best : bestRoute twoRoutes.routingTable 0x0a000002 = some ⟨0x0a000000, 8, none, 1⟩ := by decide
  refine ⟨(routed_as_documented_iff (by decide) (by decide)).mpr ?_, best⟩
  intro other found
  obtain rfl := Option.some.inj (found.symm.trans best)
  exact .inl (by decide)

/-- The route of the simulator is not taken by a datagram for its own network. -/
theorem host_bits_hide_a_route :
    ¬ ∀ (r : Router) (dgram : IPv4Datagram), (∀ entry ∈ r.routingTable, entry.prefixLength.toNat ≤ 32) →
      (∀ entry ∈ r.routingTable, entry.interfaceNum < r.interfaces.length) →
      2 ≤ dgram.header.ttl.toNat → RoutedAsDocumented r dgram := by
  intro law
  have routed := (law ⟨List.replicate 7 (.new (.repeated 2) 0x0a000001), [mitRoute]⟩ (datagramTo 0x801e0002)
    (by decide) (by decide) (by decide)).1
  exact absurd routed (by decide)

end Router
end Sponge
