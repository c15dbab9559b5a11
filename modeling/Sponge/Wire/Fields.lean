import Sponge.Wire.Ethernet

/-! What the integer parser reads: back the value that was written, and from any
buffer the bytes at its own offset, or an error that stays. -/
namespace Sponge

/-- A header of at least five words is not too short. -/
theorem not_lt_five {words : UInt8} (long : 5 ≤ words.toNat) : ¬ words < 5 := by
  rw [UInt8.lt_iff_toNat_lt]
  exact Nat.not_lt.mpr long

namespace NetUnparser

theorem unparseInt_length (len val : Nat) : (unparseInt len val).length = len := by simp [unparseInt]

theorem unparseInt_succ (len val : Nat) :
    unparseInt (len + 1) val = UInt8.ofNat ((val >>> (len * 8)) &&& 0xff) :: unparseInt len val := by
  simp only [unparseInt, List.range_succ_eq_map, List.map_cons, List.map_map, Nat.sub_zero, Nat.add_sub_cancel]
  refine congrArg _ (List.map_congr_left fun i _ => ?_)
  have same : len + 1 - (i + 1) - 1 = len - i - 1 := by omega
  simp only [Function.comp_apply, Nat.succ_eq_add_one, same]

@[simp] theorem u32_length (val : UInt32) : (u32 val).length = 4 := unparseInt_length 4 val.toNat

@[simp] theorem u16_length (val : UInt16) : (u16 val).length = 2 := unparseInt_length 2 val.toNat

@[simp] theorem u8_eq (val : UInt8) : u8 val = [val] := by
  have whole : val.toNat % 256 = val.toNat := Nat.mod_eq_of_lt val.toNat_lt
  have bits : val.toNat &&& 255 = val.toNat % 2 ^ 8 := Nat.and_two_pow_sub_one_eq_mod _ 8
  simp [u8, unparseInt, bits, whole]

end NetUnparser

namespace NetParser
open NetUnparser

theorem checkSize_of_le {p : NetParser} {size : Nat} (long : size ≤ p.buffer.length) :
    p.checkSize size = p := if_neg (by omega)

theorem parseInt_snd (p : NetParser) (len : Nat) : (p.parseInt len).2 = p.removePrefix len := by
  unfold parseInt removePrefix
  simp only
  split <;> rfl

theorem parseInt_of_le {buffer : Buffer} {len : Nat} (long : len ≤ buffer.length) :
    ({ buffer := buffer } : NetParser).parseInt len =
      ((buffer.take len).foldl (fun ret byte => FixedWidth.trunc (8 * len) (ret * 2 ^ 8 + byte.toNat)) 0,
        { buffer := buffer.drop len }) := by
  rw [parseInt, checkSize_of_le (p := { buffer := buffer }) long]
  rfl

/-- Reading digits back: the written bytes come in above those read before. -/
theorem foldl_unparseInt (w len val ret : Nat) :
    (unparseInt len val).foldl (fun ret byte => FixedWidth.trunc w (ret * 2 ^ 8 + byte.toNat)) ret ≡
      ret * 2 ^ (8 * len) + val % 2 ^ (8 * len) [MOD 2 ^ w] := by
  induction len generalizing ret with
  | zero => simpa [unparseInt, Nat.mod_one] using Nat.ModEq.refl ret
  | succ len ih =>
    have top : ((val >>> (len * 8)) &&& 0xff) = val / 2 ^ (8 * len) % 2 ^ 8 := by
      rw [show 0xff = 2 ^ 8 - 1 from rfl, Nat.and_two_pow_sub_one_eq_mod, Nat.shiftRight_eq_div_pow,
        Nat.mul_comm len 8]
    have low := Nat.mod_mul (a := 2 ^ (8 * len)) (b := 2 ^ 8) (x := val)
    have pow : 2 ^ (8 * (len + 1)) = 2 ^ (8 * len) * 2 ^ 8 := by rw [Nat.mul_add, Nat.pow_add]
    rw [unparseInt_succ, List.foldl_cons]
    refine (ih _).trans ?_
    have carried := ((Nat.mod_modEq (ret * 2 ^ 8 + val / 2 ^ (8 * len) % 2 ^ 8) (2 ^ w)).mul_right
      (2 ^ (8 * len))).add_right (val % 2 ^ (8 * len))
    have byte : (UInt8.ofNat ((val >>> (len * 8)) &&& 0xff)).toNat = val / 2 ^ (8 * len) % 2 ^ 8 := by
      rw [top, UInt8.toNat_ofNat', Nat.mod_mod]
    rw [byte, FixedWidth.trunc]
    refine carried.trans ?_
    rw [pow, low]
    ring_nf
    rfl

theorem foldl_trunc_lt (w : Nat) (data : Buffer) {ret : Nat} (small : ret < 2 ^ w) :
    data.foldl (fun ret byte => FixedWidth.trunc w (ret * 2 ^ 8 + byte.toNat)) ret < 2 ^ w := by
  induction data generalizing ret with
  | nil => exact small
  | cons byte rest ih => exact ih (Nat.mod_lt _ (Nat.two_pow_pos w))

/-- A written integer is read back, and the parser stands behind it. -/
theorem parseInt_unparseInt (len : Nat) {val : Nat} (fits : val < 2 ^ (8 * len)) (rest : Buffer) :
    ({ buffer := unparseInt len val ++ rest } : NetParser).parseInt len = (val, { buffer := rest }) := by
  have size := unparseInt_length len val
  have value : (unparseInt len val).foldl
      (fun ret byte => FixedWidth.trunc (8 * len) (ret * 2 ^ 8 + byte.toNat)) 0 = val := by
    have read := foldl_unparseInt (8 * len) len val 0
    rw [Nat.zero_mul, Nat.zero_add, Nat.mod_eq_of_lt fits] at read
    exact Nat.ModEq.eq_of_lt_of_lt read (foldl_trunc_lt _ _ (Nat.two_pow_pos _)) fits
  rw [parseInt_of_le (by rw [List.length_append]; omega), List.take_left' size, List.drop_left' size, value]

@[simp] theorem u32_unparse (val : UInt32) (rest : Buffer) :
    ({ buffer := NetUnparser.u32 val ++ rest } : NetParser).u32 = (val, { buffer := rest }) := by
  simp [u32, NetUnparser.u32, parseInt_unparseInt 4 val.toNat_lt]

@[simp] theorem u16_unparse (val : UInt16) (rest : Buffer) :
    ({ buffer := NetUnparser.u16 val ++ rest } : NetParser).u16 = (val, { buffer := rest }) := by
  simp [u16, NetUnparser.u16, parseInt_unparseInt 2 val.toNat_lt]

@[simp] theorem u8_cons (val : UInt8) (rest : Buffer) :
    ({ buffer := val :: rest } : NetParser).u8 = (val, { buffer := rest }) := by
  have written : val :: rest = NetUnparser.u8 val ++ rest := by rw [u8_eq]; rfl
  simp [written, u8, NetUnparser.u8, parseInt_unparseInt 1 val.toNat_lt]

/-- The parser has taken `n` bytes of `data`, or has failed on the way. -/
def Took (data : Buffer) (n : Nat) (p : NetParser) : Prop :=
  if n ≤ data.length then p = { buffer := data.drop n } else p.error = true

theorem took_start (data : Buffer) : Took data 0 { buffer := data } := by simp [Took]

theorem drop_eq_getD_cons {data : Buffer} {n : Nat} (long : n < data.length) :
    data.drop n = data.getD n 0 :: data.drop (n + 1) := by
  rw [List.drop_eq_getElem_cons long, List.getD, List.getElem?_eq_getElem long]
  rfl

section Took
variable {data : Buffer} {n : Nat} {p : NetParser} (took : Took data n p)
include took

theorem Took.of_le (long : n ≤ data.length) : p = { buffer := data.drop n } := by
  rwa [Took, if_pos long] at took

theorem Took.of_lt (short : data.length < n) : p.error = true := by
  rwa [Took, if_neg (by omega)] at took

theorem Took.removePrefix (len : Nat) : Took data (n + len) (p.removePrefix len) := by
  unfold Took
  split
  case isTrue long =>
    obtain rfl := took.of_le (by omega)
    have enough : len ≤ (data.drop n).length := by rw [List.length_drop]; omega
    rw [NetParser.removePrefix, checkSize_of_le (p := { buffer := data.drop n }) enough]
    simp [error, List.drop_drop]
  case isFalse short =>
    have failed : (p.checkSize len).error = true := by
      rcases Nat.lt_or_ge data.length n with before | now
      · have already := took.of_lt before
        unfold checkSize
        split
        · rfl
        · exact already
      · obtain rfl := took.of_le now
        have little : (data.drop n).length < len := by rw [List.length_drop]; omega
        rw [checkSize, if_pos little]
        rfl
    rw [NetParser.removePrefix, if_pos failed]
    exact failed

theorem Took.u8 : Took data (n + 1) p.u8.2 := by
  rw [NetParser.u8, parseInt_snd]
  exact took.removePrefix 1

theorem Took.u16 : Took data (n + 2) p.u16.2 := by
  rw [NetParser.u16, parseInt_snd]
  exact took.removePrefix 2

theorem Took.u32 : Took data (n + 4) p.u32.2 := by
  rw [NetParser.u32, parseInt_snd]
  exact took.removePrefix 4

theorem Took.u8_fst (long : n < data.length) : p.u8.1 = data.getD n 0 := by
  obtain rfl := took.of_le long.le
  rw [drop_eq_getD_cons long, u8_cons]

/-- The 16-bit field at offset `n` is its two bytes, the high one first. -/
theorem Took.u16_fst (long : n + 1 < data.length) :
    p.u16.1.toNat = (data.getD n 0).toNat * 256 + (data.getD (n + 1) 0).toNat := by
  obtain rfl := took.of_le (by omega)
  have high := (data.getD n 0).toNat_lt
  have low := (data.getD (n + 1) 0).toNat_lt
  rw [drop_eq_getD_cons (by omega), drop_eq_getD_cons long, NetParser.u16, parseInt_of_le (by simp)]
  simp only [List.take_succ_cons, List.take_zero, List.foldl_cons, List.foldl_nil, FixedWidth.trunc,
    UInt16.toNat_ofNat']
  omega

end Took

end NetParser
end Sponge
