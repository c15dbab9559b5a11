import Mathlib.Tactic

/-! Unsigned and two's-complement arithmetic of a fixed width, on `Nat` and
`Int`. Operations reduce their exact result; a value that already fits is
returned unchanged, which is how callers with a range invariant discharge them. -/
namespace FixedWidth

/-- Conversion of an exact integer result to the unsigned type of width `w`. -/
def ofInt (w : Nat) (z : Int) : Nat := (z % 2 ^ w).toNat

def trunc (w n : Nat) : Nat := n % 2 ^ w

def add (w a b : Nat) : Nat := (a + b) % 2 ^ w

def sub (w a b : Nat) : Nat := ofInt w (a - b)

/-- Two's-complement reading of the low `w` bits. -/
def toSigned (w n : Nat) : Int :=
  if n % 2 ^ w < 2 ^ (w - 1) then ((n % 2 ^ w : Nat) : Int) else ((n % 2 ^ w : Nat) : Int) - 2 ^ w

theorem add_of_lt (fits : a + b < 2 ^ w) : add w a b = a + b := Nat.mod_eq_of_lt fits

/-- A difference that does not go below zero is reduced like a sum. -/
theorem sub_eq_mod (le : b ≤ a) : sub w a b = (a - b) % 2 ^ w := by
  have cast : (a : Int) - b = ((a - b : Nat) : Int) := by omega
  rw [sub, ofInt, cast]
  norm_cast

theorem sub_of_le (le : b ≤ a) (fits : a < 2 ^ w) : sub w a b = a - b := by
  rw [sub_eq_mod le, Nat.mod_eq_of_lt (by omega)]

theorem ofInt_lt (w : Nat) (z : Int) : ofInt w z < 2 ^ w := by
  have positive : (0 : Int) < 2 ^ w := by positivity
  have upper := Int.emod_lt_of_pos z positive
  have lower := Int.emod_nonneg z positive.ne'
  have cast : (ofInt w z : Int) < ((2 ^ w : Nat) : Int) := by
    rw [ofInt, Int.toNat_of_nonneg lower]
    exact_mod_cast upper
  exact_mod_cast cast

/-- A difference gives up what the subtrahend gains, until it is zero. -/
theorem sub_add_of_le (le : p ≤ sub w a b) : sub w a (b + p) = sub w a b - p := by
  have positive : (0 : Int) < 2 ^ w := by positivity
  have lower := Int.emod_nonneg ((a : Int) - b) positive.ne'
  have upper := Int.emod_lt_of_pos ((a : Int) - b) positive
  rw [sub, ofInt] at le
  have rest : ((a : Int) - (b + p : Nat)) % 2 ^ w = ((a : Int) - b) % 2 ^ w - p := by
    rw [Nat.cast_add, ← sub_sub, ← Int.emod_sub_emod, Int.emod_eq_of_lt (by omega) (by omega)]
  rw [sub, sub, ofInt, ofInt, rest]
  omega

theorem sub_lt (w a b : Nat) : sub w a b < 2 ^ w := ofInt_lt w _

end FixedWidth
