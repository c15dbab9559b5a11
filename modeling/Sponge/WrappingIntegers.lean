import Sponge.Lib.FixedWidth

/-! 32-bit sequence numbers relative to an initial sequence number, and their
translation to and from 64-bit absolute sequence numbers. The signed offset and
the signed 64-bit intermediate result of `unwrap` are the source's own. -/
namespace Sponge

structure WrappingInt32 where
  rawValue : UInt32
deriving DecidableEq, Repr

/-- `operator-`: the number of increments from `b` to `a`, as an `int32_t`. -/
def WrappingInt32.offset (a b : WrappingInt32) : Int :=
  FixedWidth.toSigned 32 (a.rawValue - b.rawValue).toNat

def wrap (n : Nat) (isn : WrappingInt32) : WrappingInt32 :=
  ⟨UInt32.ofNat n + isn.rawValue⟩

def unwrap (n isn : WrappingInt32) (checkpoint : Nat) : Nat :=
  let chpoWrap := wrap checkpoint isn
  let offset := n.offset chpoWrap
  -- The sum is unsigned and is then stored in an `int64_t`.
  let res := FixedWidth.toSigned 64 (FixedWidth.ofInt 64 (checkpoint + offset))
  let res := if res < 0 then res + 2 ^ 32 else res
  FixedWidth.ofInt 64 res

theorem wrap_toNat (n : Nat) (isn : WrappingInt32) :
    (wrap n isn).rawValue.toNat = (n + isn.rawValue.toNat) % 2 ^ 32 := by
  simp [wrap, UInt32.toNat_add]

/-- Every 32-bit value is the wrapped form of its distance from the ISN. -/
theorem wrap_surjective (n isn : WrappingInt32) : ∃ v < 2 ^ 32, wrap v isn = n := by
  refine ⟨(n.rawValue - isn.rawValue).toNat, UInt32.toNat_lt _, ?_⟩
  have bound := n.rawValue.toNat_lt
  simp [wrap]

theorem offset_wrap (v c : Nat) (isn : WrappingInt32) :
    (wrap v isn).offset (wrap c isn) =
      if (v + (2 ^ 32 - c % 2 ^ 32)) % 2 ^ 32 < 2 ^ 31
      then (((v + (2 ^ 32 - c % 2 ^ 32)) % 2 ^ 32 : Nat) : Int)
      else (((v + (2 ^ 32 - c % 2 ^ 32)) % 2 ^ 32 : Nat) : Int) - 2 ^ 32 := by
  have bound := isn.rawValue.toNat_lt
  have raw : ((wrap v isn).rawValue - (wrap c isn).rawValue).toNat =
      (v + (2 ^ 32 - c % 2 ^ 32)) % 2 ^ 32 := by
    rw [UInt32.toNat_sub, wrap_toNat, wrap_toNat]
    omega
  rw [WrappingInt32.offset, raw, FixedWidth.toSigned, Nat.mod_mod]

/-- The exact value of `unwrap` for every checkpoint that leaves room in an
`int64_t`. All uses below are arithmetic consequences of this equation. -/
theorem unwrap_wrap_eq (v c : Nat) (isn : WrappingInt32) (room : c + 2 ^ 31 ≤ 2 ^ 63) :
    unwrap (wrap v isn) isn c =
      if (v + (2 ^ 32 - c % 2 ^ 32)) % 2 ^ 32 < 2 ^ 31
      then c + (v + (2 ^ 32 - c % 2 ^ 32)) % 2 ^ 32
      else if c + (v + (2 ^ 32 - c % 2 ^ 32)) % 2 ^ 32 < 2 ^ 32
      then c + (v + (2 ^ 32 - c % 2 ^ 32)) % 2 ^ 32
      else c + (v + (2 ^ 32 - c % 2 ^ 32)) % 2 ^ 32 - 2 ^ 32 := by
  simp only [unwrap, offset_wrap]
  generalize distance : (v + (2 ^ 32 - c % 2 ^ 32)) % 2 ^ 32 = d
  have bound : d < 2 ^ 32 := by omega
  simp only [FixedWidth.ofInt, FixedWidth.toSigned]
  split_ifs <;> omega

theorem unwrap_wrap_mod (v c : Nat) (isn : WrappingInt32) (room : c + 2 ^ 31 ≤ 2 ^ 63) :
    unwrap (wrap v isn) isn c % 2 ^ 32 = v % 2 ^ 32 := by
  rw [unwrap_wrap_eq v c isn room]
  split_ifs <;> omega

/-- A checkpoint less than half the range away recovers an absolute number of 63
bits, however large the checkpoint is. -/
theorem unwrap_wrap_near (v c : Nat) (isn : WrappingInt32) (room : v < 2 ^ 63)
    (above : v < c + 2 ^ 31) (below : c < v + 2 ^ 31) :
    unwrap (wrap v isn) isn c = v := by
  have distance : (wrap v isn).offset (wrap c isn) = (v : Int) - c := by
    rw [offset_wrap]
    split_ifs <;> omega
  simp only [unwrap, distance, FixedWidth.ofInt, FixedWidth.toSigned]
  split_ifs <;> omega

theorem wrap_eq_iff {a b : Nat} {isn : WrappingInt32} :
    wrap a isn = wrap b isn ↔ a % 2 ^ 32 = b % 2 ^ 32 := by
  have bound := isn.rawValue.toNat_lt
  constructor
  · intro same
    have raw := congrArg (fun n => n.rawValue.toNat) same
    simp only [wrap_toNat] at raw
    omega
  · intro same
    have raw : (wrap a isn).rawValue.toNat = (wrap b isn).rawValue.toNat := by
      rw [wrap_toNat, wrap_toNat]
      omega
    exact congrArg WrappingInt32.mk (UInt32.toNat.inj raw)

/-- No absolute number with the same wrapped form is nearer to the checkpoint. -/
theorem unwrap_wrap_le (v c : Nat) (isn : WrappingInt32) (room : c + 2 ^ 31 ≤ 2 ^ 63) :
    |(unwrap (wrap v isn) isn c : Int) - c| ≤ |(v : Int) - c| := by
  rw [unwrap_wrap_eq v c isn room, Int.abs_eq_natAbs, Int.abs_eq_natAbs]
  split_ifs <;> omega

/-- `unwrap` is the inverse of `wrap` that stays closest to the checkpoint, and
its signed intermediate result is never negative. -/
theorem unwrap_closest (n isn : WrappingInt32) (c : Nat) (room : c + 2 ^ 31 ≤ 2 ^ 63) :
    (wrap (unwrap n isn c) isn = n ∧ unwrap n isn c < 2 ^ 63 ∧
      ∀ v, wrap v isn = n → |(unwrap n isn c : Int) - c| ≤ |(v : Int) - c|) ∧
    ∀ v : Nat, |(v : Int) - c| < 2 ^ 31 → unwrap (wrap v isn) isn c = v := by
  refine ⟨⟨?_, ?_, ?_⟩, ?_⟩
  · obtain ⟨v, _, rfl⟩ := wrap_surjective n isn
    exact wrap_eq_iff.mpr (unwrap_wrap_mod v c isn room)
  · obtain ⟨v, _, rfl⟩ := wrap_surjective n isn
    rw [unwrap_wrap_eq v c isn room]
    split_ifs <;> omega
  · rintro v rfl
    exact unwrap_wrap_le v c isn room
  · intro v near
    obtain ⟨below, above⟩ := abs_lt.mp near
    exact unwrap_wrap_near v c isn (by omega) (by omega) (by omega)

/-- Half the range ahead of the checkpoint and half the range behind it are
equally close; the code takes the one behind. -/
theorem unwrap_closest_half :
    let n := wrap (2 ^ 33 + 2 ^ 31) ⟨7⟩
    unwrap n ⟨7⟩ (2 ^ 33) = 2 ^ 33 - 2 ^ 31 ∧
    ((wrap (unwrap n ⟨7⟩ (2 ^ 33)) ⟨7⟩ = n ∧ unwrap n ⟨7⟩ (2 ^ 33) < 2 ^ 63 ∧
      ∀ v, wrap v ⟨7⟩ = n → |(unwrap n ⟨7⟩ (2 ^ 33) : Int) - (2 ^ 33 : Nat)| ≤ |(v : Int) - (2 ^ 33 : Nat)|) ∧
    ∀ v : Nat, |(v : Int) - (2 ^ 33 : Nat)| < 2 ^ 31 → unwrap (wrap v ⟨7⟩) ⟨7⟩ (2 ^ 33) = v) :=
  ⟨by decide +kernel, unwrap_closest _ ⟨7⟩ (2 ^ 33) (by decide)⟩

/-- With a 31-bit checkpoint, `unwrap` returns the least absolute value. -/
theorem unwrap_wrap_of_small (v c : Nat) (isn : WrappingInt32) (small : c < 2 ^ 31) :
    unwrap (wrap v isn) isn c = v % 2 ^ 32 := by
  rw [unwrap_wrap_eq v c isn (by omega)]
  split_ifs <;> omega

end Sponge
