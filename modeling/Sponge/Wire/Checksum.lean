import Sponge.Lib.OnesComplement
import Sponge.Wire.Fields
import Sponge.Wire.IPv4

/-! The Internet checksum as a one's complement sum of 16-bit words. The source
adds bytes to a 32-bit sum, high and low halves in turn, which is the sum of the
words as long as it does not overflow. -/
namespace Sponge.InternetChecksum
open OnesComplement

/-- The 16-bit words of a string of bytes, the last one filled up with a zero. -/
def words : Buffer → List Nat
  | [] => []
  | [high] => [high.toNat * 256]
  | high :: low :: rest => (high.toNat * 256 + low.toNat) :: words rest

/-- What the bytes add to the sum; `parity` is set at the low half of a word. -/
def weigh : Bool → Buffer → Nat
  | _, [] => 0
  | parity, byte :: rest => (if parity then byte.toNat else byte.toNat * 256) + weigh (!parity) rest

/-- The one's complement sum of `start` and the words of `data` is all ones. -/
def Verifies (start : Nat) (data : Buffer) : Prop := reduce 16 (start + (words data).sum) = ones 16

instance (start : Nat) (data : Buffer) : Decidable (Verifies start data) := inferInstanceAs (Decidable (_ = _))

theorem weigh_eq_words : ∀ data : Buffer, weigh false data = (words data).sum
  | [] => rfl
  | [high] => by simp [weigh, words]
  | high :: low :: rest => by
    have ih := weigh_eq_words rest
    simp only [weigh, words, List.sum_cons, Bool.not_false, Bool.not_true, if_true, Bool.false_eq_true,
      if_false, ih]
    omega

theorem weigh_append (parity : Bool) (left right : Buffer) :
    weigh parity (left ++ right) = weigh parity left + weigh (parity ^^ decide (left.length % 2 = 1)) right := by
  induction left generalizing parity with
  | nil => simp [weigh]
  | cons byte rest ih =>
    have turned : ((!parity) ^^ decide (rest.length % 2 = 1)) =
        (parity ^^ decide ((byte :: rest).length % 2 = 1)) := by
      rcases Nat.mod_two_eq_zero_or_one rest.length with even | odd
      · have next : (rest.length + 1) % 2 = 1 := by omega
        cases parity <;> simp [even, next]
      · have next : (rest.length + 1) % 2 = 0 := by omega
        cases parity <;> simp [odd, next]
    rw [List.cons_append, weigh, weigh, ih, turned]
    omega

/-- Parts that begin at an even offset are weighed apart. -/
theorem weigh_append_even {left : Buffer} (even : left.length % 2 = 0) (right : Buffer) :
    weigh false (left ++ right) = weigh false left + weigh false right := by
  simp [weigh_append, even]

theorem weigh_le (parity : Bool) (data : Buffer) : weigh parity data ≤ 65280 * data.length := by
  induction data generalizing parity with
  | nil => exact Nat.le_refl _
  | cons byte rest ih =>
    have bound := byte.toNat_lt
    have later := ih (!parity)
    rw [weigh, List.length_cons]
    split <;> omega

theorem weigh_u16 (val : UInt16) : weigh false (NetUnparser.u16 val) = val.toNat := by
  have small := val.toNat_lt
  have low : val.toNat &&& 255 = val.toNat % 2 ^ 8 := Nat.and_two_pow_sub_one_eq_mod _ 8
  have high : val.toNat >>> 8 &&& 255 = val.toNat / 2 ^ 8 % 2 ^ 8 := by
    rw [Nat.shiftRight_eq_div_pow]
    exact Nat.and_two_pow_sub_one_eq_mod _ 8
  change (UInt8.ofNat (val.toNat >>> 8 &&& 255)).toNat * 256 + ((UInt8.ofNat (val.toNat &&& 255)).toNat + 0) = _
  rw [low, high, UInt8.toNat_ofNat', UInt8.toNat_ofNat']
  omega

/-- Without overflow, `add` adds the weight. -/
theorem add_sum (check : InternetChecksum) {data : Buffer}
    (fits : check.sum + weigh check.parity data < 2 ^ 32) :
    (check.add data).sum = check.sum + weigh check.parity data := by
  induction data generalizing check with
  | nil => rfl
  | cons byte rest ih =>
    rw [weigh] at fits ⊢
    have byteSum : (check.addByte byte).sum =
        check.sum + if check.parity then byte.toNat else byte.toNat * 256 := by
      rw [addByte, Nat.shiftLeft_eq]
      exact FixedWidth.add_of_lt (lt_of_le_of_lt (by rw [← Nat.add_assoc]; exact Nat.le_add_right _ _) fits)
    have step := ih (check.addByte byte) (by
      rw [byteSum]
      change _ + weigh (!check.parity) rest < _
      omega)
    change ((check.addByte byte).add rest).sum = _
    rw [step, byteSum]
    change _ + weigh (!check.parity) rest = _
    omega

theorem foldCarries_eq (fuel n : Nat) (enough : n ≤ fuel) : foldCarries fuel n = reduce 16 n := by
  induction fuel generalizing n with
  | zero =>
    obtain rfl : n = 0 := by omega
    rfl
  | succ fuel ih =>
    rw [foldCarries]
    split
    · have halves : (n >>> 16) + (n &&& 0xffff) = n / 2 ^ 16 + n % 2 ^ 16 := by
        rw [Nat.shiftRight_eq_div_pow, show 0xffff = 2 ^ 16 - 1 from rfl, Nat.and_two_pow_sub_one_eq_mod]
      rw [halves, ih _ (by omega), reduce_carry]
    · exact (reduce_of_lt (by omega)).symm

/-- The value is the complement of the one's complement sum. -/
theorem value_toNat (check : InternetChecksum) : check.value.toNat = ones 16 - reduce 16 check.sum := by
  have range := reduce_le (w := 16) (by decide) check.sum
  have bits : ones 16 = 65535 ∧ UInt16.size = 65536 := ⟨rfl, rfl⟩
  rw [value, foldCarries_eq _ _ (Nat.le_refl _), UInt16.toNat_not, UInt16.toNat_ofNat',
    Nat.mod_eq_of_lt (by omega)]
  omega

theorem value_eq_zero_iff (check : InternetChecksum) : check.value = 0 ↔ reduce 16 check.sum = ones 16 := by
  have range := reduce_le (w := 16) (by decide) check.sum
  have value := check.value_toNat
  rw [← UInt16.toNat_inj, value, UInt16.toNat_zero]
  omega

/-- What the source computes is the Internet checksum, for data of any length
that keeps the sum below 2^32. -/
theorem value_add_eq_zero_iff {start : Nat} {data : Buffer} (fits : start + 65280 * data.length < 2 ^ 32) :
    (({ sum := start } : InternetChecksum).add data).value = 0 ↔ Verifies start data := by
  have weight := weigh_le false data
  rw [value_eq_zero_iff, Verifies, ← weigh_eq_words,
    add_sum { sum := start } (by change start + weigh false data < _; omega)]

theorem add_append (check : InternetChecksum) (left right : Buffer) :
    check.add (left ++ right) = (check.add left).add right := List.foldl_append

theorem weigh_field {front : Buffer} (even : front.length % 2 = 0) (val : UInt16) (back : Buffer) :
    weigh false (front ++ NetUnparser.u16 val ++ back) = weigh false front + val.toNat + weigh false back := by
  have next : (front ++ NetUnparser.u16 val).length % 2 = 0 := by
    rw [List.length_append, NetUnparser.u16_length]
    omega
  rw [weigh_append_even next, weigh_append_even even, weigh_u16]

/-- A checksum field at an even offset verifies once it holds the value that was
computed while it was zero. -/
theorem Verifies.patched {start : Nat} {front back : Buffer} (even : front.length % 2 = 0)
    (fits : start + weigh false (front ++ NetUnparser.u16 0 ++ back) < 2 ^ 32) :
    Verifies start (front ++ NetUnparser.u16
      (({ sum := start } : InternetChecksum).add (front ++ NetUnparser.u16 0 ++ back)).value ++ back) := by
  have sum : (({ sum := start } : InternetChecksum).add (front ++ NetUnparser.u16 0 ++ back)).sum =
      start + (weigh false front + weigh false back) := by
    rw [add_sum ({ sum := start } : InternetChecksum) fits]
    change start + weigh false _ = _
    rw [weigh_field even, UInt16.toNat_zero, Nat.add_zero]
  rw [Verifies, ← weigh_eq_words, weigh_field even, value_toNat, sum]
  refine Eq.trans (congrArg (reduce 16) ?_) (reduce_complement (by decide) (start + (weigh false front + weigh false back)))
  omega

/-- The same, under a bound on the length alone. -/
theorem verifies_patched {start : Nat} {front back : Buffer} (even : front.length % 2 = 0)
    (fits : start + 65280 * (front.length + 2 + back.length) < 2 ^ 32) :
    Verifies start (front ++ NetUnparser.u16
      (({ sum := start } : InternetChecksum).add (front ++ NetUnparser.u16 0 ++ back)).value ++ back) := by
  have first := weigh_le false front
  have last := weigh_le false back
  refine Verifies.patched even ?_
  rw [weigh_field even, UInt16.toNat_zero]
  omega

/-- One 16-bit word for every two bytes, and one for the last byte of an odd number. -/
theorem words_bound : ∀ data : Buffer,
    (∀ word ∈ words data, word ≤ ones 16) ∧ (words data).sum ≤ 65535 * ((data.length + 1) / 2)
  | [] => ⟨by simp [words], Nat.le_refl _⟩
  | [high] => by
    have bound := high.toNat_lt
    have full : ones 16 = 65535 := rfl
    simp only [words, List.mem_singleton, forall_eq, List.sum_singleton, List.length_singleton]
    omega
  | high :: low :: rest => by
    obtain ⟨small, sum⟩ := words_bound rest
    have bounds := And.intro high.toNat_lt low.toNat_lt
    have full : ones 16 = 65535 := rfl
    have halves : (rest.length + 1 + 1 + 1) / 2 = (rest.length + 1) / 2 + 1 := by omega
    simp only [words, List.mem_cons, List.sum_cons, List.length_cons, halves]
    refine ⟨?_, by omega⟩
    rintro word (rfl | member)
    · omega
    · exact small word member

theorem foldl_add (check : InternetChecksum) (chunks : List Buffer) :
    chunks.foldl add check = check.add chunks.flatten := by
  induction chunks generalizing check with
  | nil => rfl
  | cons chunk rest ih => rw [List.foldl_cons, ih, List.flatten_cons, add_append]

/-- The value as RFC 1071 has it: the complement of the one's complement sum of
the initial value, as two words, and the words of the data. -/
theorem value_add_toNat {start : Nat} {data : Buffer} (small : start < 2 ^ 32)
    (fits : start + (words data).sum < 2 ^ 32) :
    (({ sum := start } : InternetChecksum).add data).value.toNat =
      ones 16 - total 16 (start / 2 ^ 16 :: start % 2 ^ 16 :: words data) := by
  have full : ones 16 = 65535 := rfl
  have narrow : ∀ word ∈ start / 2 ^ 16 :: start % 2 ^ 16 :: words data, word ≤ ones 16 := by
    intro word member
    rcases List.mem_cons.mp member with rfl | member
    · omega
    rcases List.mem_cons.mp member with rfl | member
    · omega
    · exact (words_bound data).1 word member
  have carried : reduce 16 (start / 2 ^ 16 + (start % 2 ^ 16 + (words data).sum)) =
      reduce 16 (start + (words data).sum) := by
    rw [← Nat.add_assoc, ← reduce_reduce_add, reduce_carry, reduce_reduce_add]
  rw [value_toNat, add_sum { sum := start } (by rw [weigh_eq_words]; exact fits), total_eq (by decide) narrow,
    List.sum_cons, List.sum_cons, carried, weigh_eq_words]

/-- The checksum of data in chunks of any lengths: the loop of `value` ends, the
result is the one of RFC 1071 whatever the chunks are, and it makes the data
verify once it is stored in the zeroed field. -/
theorem value_of_chunks (start : Nat) (chunks : List Buffer)
    (fits : start + 65535 * ((chunks.flatten.length + 1) / 2) < 2 ^ 32) :
    let check := chunks.foldl add { sum := start }
    (∀ fuel, check.sum ≤ fuel → foldCarries fuel check.sum = foldCarries check.sum check.sum ∧
      foldCarries fuel check.sum ≤ 0xffff) ∧
    check.value.toNat = ones 16 - total 16 (start / 2 ^ 16 :: start % 2 ^ 16 :: words chunks.flatten) ∧
    (∀ others : List Buffer, others.flatten = chunks.flatten → (others.foldl add { sum := start }).value = check.value) ∧
    ∀ front back : Buffer, front.length % 2 = 0 → chunks.flatten = front ++ NetUnparser.u16 0 ++ back →
      ∀ patched : List Buffer, patched.flatten = front ++ NetUnparser.u16 check.value ++ back →
        (patched.foldl add { sum := start }).value = 0 := by
  dsimp only
  obtain ⟨_, bound⟩ := words_bound chunks.flatten
  refine ⟨?_, ?_, ?_, ?_⟩
  · intro fuel enough
    rw [foldCarries_eq _ _ enough, foldCarries_eq _ _ (Nat.le_refl _)]
    exact ⟨rfl, reduce_le (by decide) _⟩
  · rw [foldl_add]
    exact value_add_toNat (by omega) (by omega)
  · intro others same
    rw [foldl_add, foldl_add, same]
  · intro front back even zeroed patched filled
    rw [foldl_add, zeroed] at filled
    have verifies : Verifies start patched.flatten := by
      rw [filled]
      refine Verifies.patched even ?_
      rw [← zeroed, weigh_eq_words]
      omega
    have length : patched.flatten.length = chunks.flatten.length := by
      rw [filled, zeroed]
      simp only [List.length_append, NetUnparser.u16_length]
    obtain ⟨_, other⟩ := words_bound patched.flatten
    rw [length] at other
    rw [foldl_add, value_eq_zero_iff, add_sum _ (by change start + weigh false _ < _; rw [weigh_eq_words]; omega)]
    change reduce 16 (start + weigh false _) = _
    rw [weigh_eq_words]
    exact verifies

/-- A header of five bytes in two odd chunks, with its field at offset two. -/
theorem value_of_chunks_odd :
    let check := ([[1], [2, 0, 0, 5]] : List Buffer).foldl add { sum := 0x1fffe }
    check.value = 0xf9fd ∧
    (∀ fuel, check.sum ≤ fuel → foldCarries fuel check.sum = foldCarries check.sum check.sum ∧
      foldCarries fuel check.sum ≤ 0xffff) ∧
    check.value.toNat = ones 16 - total 16 [1, 0xfffe, 0x102, 0, 0x500] ∧
    (([[1, 2], [0xf9], [0xfd, 5]] : List Buffer).foldl add { sum := 0x1fffe }).value = 0 := by
  obtain ⟨ends, value, _, patch⟩ := value_of_chunks 0x1fffe [[1], [2, 0, 0, 5]] (by decide)
  exact ⟨by decide +kernel, ends, value, patch [1, 2] [5] rfl rfl _ (by decide +kernel)⟩

end Sponge.InternetChecksum
