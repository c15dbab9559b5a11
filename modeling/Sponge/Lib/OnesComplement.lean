import Mathlib.Tactic

/-! One's complement sums. A sum is brought back to `w` bits by adding its carries
in again at the low end, which keeps it modulo `2 ^ w - 1`; zero alone stays
zero, so a nonzero multiple of the modulus becomes all ones. -/
namespace OnesComplement

variable {w n m : Nat}

/-- All ones. -/
def ones (w : Nat) : Nat := 2 ^ w - 1

/-- The `w`-bit value of a sum. -/
def reduce (w n : Nat) : Nat := if n = 0 then 0 else (n - 1) % ones w + 1

theorem ones_pos (wide : 0 < w) : 0 < ones w := by
  have := Nat.one_lt_two_pow (Nat.pos_iff_ne_zero.mp wide)
  rw [ones]
  omega

theorem reduce_le (wide : 0 < w) (n : Nat) : reduce w n ≤ ones w := by
  unfold reduce
  split
  · exact Nat.zero_le _
  · exact Nat.mod_lt _ (ones_pos wide)

/-- A positive sum is its value and a multiple of the modulus. -/
theorem reduce_add (w : Nat) (positive : 0 < n) : n = ones w * ((n - 1) / ones w) + reduce w n := by
  have split := Nat.div_add_mod (n - 1) (ones w)
  rw [reduce, if_neg (by omega)]
  omega

theorem reduce_of_lt (small : n < 2 ^ w) : reduce w n = n := by
  unfold reduce
  split
  · omega
  · rw [Nat.mod_eq_of_lt (by rw [ones]; omega)]
    omega

/-- Multiples of the modulus do not count, next to a positive sum. -/
theorem reduce_add_mul (positive : 0 < n) (k : Nat) : reduce w (n + ones w * k) = reduce w n := by
  have shift : n + ones w * k - 1 = (n - 1) + ones w * k := by omega
  rw [reduce, reduce, if_neg (by omega), if_neg (by omega), shift, Nat.add_mul_mod_self_left]

/-- Adding the carries in again changes nothing. -/
theorem reduce_carry (w n : Nat) : reduce w (n / 2 ^ w + n % 2 ^ w) = reduce w n := by
  have split := Nat.div_add_mod n (2 ^ w)
  have modulus : 2 ^ w = ones w + 1 := by
    have := Nat.one_le_two_pow (n := w)
    rw [ones]
    omega
  generalize n / 2 ^ w = high at *
  generalize n % 2 ^ w = low at *
  rw [modulus, Nat.add_mul, Nat.one_mul] at split
  rcases Nat.eq_zero_or_pos (high + low) with zero | positive
  · obtain ⟨rfl, rfl⟩ : high = 0 ∧ low = 0 := by omega
    rw [← split]
    simp
  · rw [← split, Nat.add_assoc, Nat.add_comm (ones w * high), reduce_add_mul positive]

/-- The value is all ones exactly for the positive multiples of the modulus. -/
theorem reduce_eq_ones_iff (wide : 0 < w) : reduce w n = ones w ↔ 0 < n ∧ ones w ∣ n := by
  have big := ones_pos wide
  rcases Nat.eq_zero_or_pos n with rfl | positive
  · exact iff_of_false big.ne (by simp)
  have split := reduce_add w positive
  constructor
  · intro full
    refine ⟨positive, ?_⟩
    rw [split, full]
    exact Nat.dvd_add (Nat.dvd_mul_right _ _) (Nat.dvd_refl _)
  · rintro ⟨_, divides⟩
    have rest : ones w ∣ reduce w n := by
      rw [split] at divides
      exact (Nat.dvd_add_right (Nat.dvd_mul_right _ _)).mp divides
    have some : 0 < reduce w n := by
      rw [reduce, if_neg (by omega)]
      exact Nat.succ_pos _
    exact Nat.le_antisymm (reduce_le wide n) (Nat.le_of_dvd some rest)

/-- A sum verifies once the complement of its value is added to it. -/
theorem reduce_complement (wide : 0 < w) (n : Nat) :
    reduce w (n + (ones w - reduce w n)) = ones w := by
  rw [reduce_eq_ones_iff wide]
  have big := ones_pos wide
  have range := reduce_le wide n
  rcases Nat.eq_zero_or_pos n with rfl | positive
  · simp [reduce, big]
  · have split := reduce_add w positive
    have whole : n + (ones w - reduce w n) = ones w * ((n - 1) / ones w) + ones w := by omega
    exact ⟨by omega, by rw [whole]; exact Nat.dvd_add (Nat.dvd_mul_right _ _) (Nat.dvd_refl _)⟩

/-- Addition with the carry brought around to the low end. -/
def plus (w a b : Nat) : Nat := if a + b < 2 ^ w then a + b else a + b - 2 ^ w + 1

/-- The one's complement sum of words of `w` bits. -/
def total (w : Nat) (words : List Nat) : Nat := words.foldl (plus w) 0

theorem reduce_reduce_add (w n m : Nat) : reduce w (reduce w n + m) = reduce w (n + m) := by
  rcases Nat.eq_zero_or_pos n with rfl | positive
  · have zero : reduce w 0 = 0 := if_pos rfl
    rw [zero]
  · have split := reduce_add w positive
    have kept : 0 < reduce w n := by
      rw [reduce, if_neg (by omega)]
      exact Nat.succ_pos _
    calc reduce w (reduce w n + m)
        = reduce w (reduce w n + m + ones w * ((n - 1) / ones w)) := (reduce_add_mul (by omega) _).symm
      _ = reduce w (n + m) := congrArg (reduce w) (by omega)

/-- One carry is all that two words can leave. -/
theorem plus_eq_reduce (wide : 0 < w) (first : n ≤ ones w) (second : m ≤ ones w) :
    plus w n m = reduce w (n + m) := by
  have big := ones_pos wide
  have modulus : 2 ^ w = ones w + 1 := by
    rw [ones] at *
    omega
  unfold plus
  split
  · rename_i small
    exact (reduce_of_lt small).symm
  · have once : n + m = (n + m - 2 ^ w + 1) + ones w * 1 := by omega
    rw [once, reduce_add_mul (Nat.succ_pos _), reduce_of_lt (by omega)]
    omega

theorem foldl_plus (wide : 0 < w) {words : List Nat} (small : ∀ word ∈ words, word ≤ ones w) (n : Nat) :
    words.foldl (plus w) (reduce w n) = reduce w (n + words.sum) := by
  induction words generalizing n with
  | nil => rfl
  | cons word rest ih =>
    have step : plus w (reduce w n) word = reduce w (n + word) := by
      rw [plus_eq_reduce wide (reduce_le wide n) (small word List.mem_cons_self), reduce_reduce_add]
    rw [List.foldl_cons, step, ih (fun other member => small other (List.mem_cons_of_mem _ member)),
      List.sum_cons, Nat.add_assoc]

/-- Summing first and bringing the carries around once at the end is the same. -/
theorem total_eq (wide : 0 < w) {words : List Nat} (small : ∀ word ∈ words, word ≤ ones w) :
    total w words = reduce w words.sum := by
  have folded := foldl_plus wide small 0
  rwa [Nat.zero_add] at folded

end OnesComplement
