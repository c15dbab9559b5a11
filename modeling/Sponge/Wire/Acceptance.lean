import Sponge.Wire.Checksum
import Sponge.Wire.TCP

/-! What the parsers of datagrams and segments accept, compared with what the two
formats call valid. Both drop the result of the header's parser, so that only
the errors that reach the `NetParser`, and the datagram's length, count. -/
namespace Sponge

open InternetChecksum NetParser

namespace IPv4Datagram

def versionField (data : Buffer) : Nat := (data.getD 0 0).toNat / 16

/-- In 32-bit words, as the header has it. -/
def headerLengthField (data : Buffer) : Nat := (data.getD 0 0).toNat % 16

def totalLengthField (data : Buffer) : Nat := (data.getD 2 0).toNat * 256 + (data.getD 3 0).toNat

/-- All that makes a datagram valid but its checksum. -/
structure Framed (data : Buffer) : Prop where
  size : 20 ≤ data.length
  version : versionField data = 4
  headerLength : 5 ≤ headerLengthField data ∧ 4 * headerLengthField data ≤ data.length
  totalLength : totalLengthField data = data.length

structure Valid (data : Buffer) : Prop extends Framed data where
  checksum : Verifies 0 (data.take (4 * headerLengthField data))

/-- The parser accepts `data` if and only if it is valid, with the payload that
stands behind its header. -/
def ParsedExactly (data : Buffer) : Prop :=
  ((({} : IPv4Datagram).parse data).1 = .noError ↔ Valid data) ∧
    ((({} : IPv4Datagram).parse data).1 = .noError →
      (({} : IPv4Datagram).parse data).2.payload = [data.drop (4 * headerLengthField data)])

end IPv4Datagram

namespace IPv4Header
open IPv4Datagram

theorem payloadLength_toNat (h : IPv4Header) :
    h.payloadLength.toNat = FixedWidth.sub 16 h.len.toNat (4 * h.hlen.toNat) := by
  have len := h.len.toNat_lt
  have hlen := h.hlen.toNat_lt
  have four : (4 : UInt16).toNat = 4 := rfl
  rw [payloadLength, UInt16.toNat_sub, UInt16.toNat_mul, UInt16.toNat_ofNat', four, FixedWidth.sub,
    FixedWidth.ofInt]
  omega

/-- The fields that decide whether a long enough buffer is a datagram. -/
theorem parseFields_spec {data : Buffer} (long : 20 ≤ data.length) :
    (parseFields { buffer := data }).2 = { buffer := data.drop 20 } ∧
      (parseFields { buffer := data }).1.ver.toNat = versionField data ∧
      (parseFields { buffer := data }).1.hlen.toNat = headerLengthField data ∧
      (parseFields { buffer := data }).1.len.toNat = totalLengthField data := by
  have start := took_start data
  have taken := start.u8.u8.u16.u16.u16.u8.u8.u16.u32.u32
  have first := start.u8_fst (by omega)
  have total := start.u8.u8.u16_fst (by omega)
  simp only [parseFields]
  refine ⟨taken.of_le long, ?_, ?_, total⟩
  · rw [first, UInt8.toNat_shiftRight, versionField]
    exact Nat.shiftRight_eq_div_pow _ 4
  · rw [first, UInt8.toNat_and, headerLengthField]
    exact Nat.and_two_pow_sub_one_eq_mod _ 4

/-- A framed datagram is read up to its payload, whatever its checksum is. -/
theorem parse_of_framed {data : Buffer} (framed : Framed data) (h : IPv4Header) :
    h.parse { buffer := data } =
      (if Verifies 0 (data.take (4 * headerLengthField data)) then .noError else .badChecksum,
        (parseFields { buffer := data }).1, { buffer := data.drop (4 * headerLengthField data) }) := by
  obtain ⟨rest, ver, hlen, len⟩ := parseFields_spec framed.size
  have version : (parseFields { buffer := data }).1.ver = 4 := by
    rw [← UInt8.toNat_inj, ver, framed.version]
    rfl
  have long : ¬ (parseFields { buffer := data }).1.hlen < 5 :=
    not_lt_five (by rw [hlen]; exact framed.headerLength.1)
  have behind : (parseFields { buffer := data }).2.removePrefix (headerLengthField data * 4 - length) =
      { buffer := data.drop (4 * headerLengthField data) } := by
    have taken : Took data 20 (parseFields { buffer := data }).2 := by rw [Took, if_pos framed.size, rest]
    have all := taken.removePrefix (headerLengthField data * 4 - length)
    have size : 20 + (headerLengthField data * 4 - length) = 4 * headerLengthField data := by
      have := framed.headerLength.1
      rw [length]
      omega
    rw [size] at all
    exact all.of_le framed.headerLength.2
  have enough : ¬ data.length < 4 * headerLengthField data := Nat.not_lt.mpr framed.headerLength.2
  have whole : ¬ data.length ≠ totalLengthField data := not_not.mpr framed.totalLength.symm
  have header : ¬ data.length < length := Nat.not_lt.mpr framed.size
  have sum : (({} : InternetChecksum).add (data.take (4 * headerLengthField data))).value ≠ 0 ↔
      ¬ Verifies 0 (data.take (4 * headerLengthField data)) := by
    have short : headerLengthField data < 16 := Nat.mod_lt _ (by decide)
    refine not_congr (value_add_eq_zero_iff ?_)
    rw [List.length_take]
    omega
  have fine : ({ buffer := data.drop (4 * headerLengthField data) } : NetParser).error = false := rfl
  simp only [parse, if_neg header, if_neg enough, if_neg (not_not.mpr version), if_neg long, if_neg whole,
    hlen, len, behind, fine, sum, Bool.false_eq_true, if_false]
  by_cases verified : Verifies 0 (data.take (4 * headerLengthField data))
  · rw [if_pos verified, if_neg (not_not.mpr verified)]
  · rw [if_neg verified, if_pos verified]

/-- A header that is refused earlier leaves the parser behind its fixed fields. -/
theorem parse_of_not_framed {data : Buffer} (size : 20 ≤ data.length) (broken : ¬ Framed data) (h : IPv4Header) :
    (h.parse { buffer := data }).2 = ((parseFields { buffer := data }).1, { buffer := data.drop 20 }) := by
  obtain ⟨rest, ver, hlen, len⟩ := parseFields_spec size
  have header : ¬ data.length < length := Nat.not_lt.mpr size
  simp only [parse, if_neg header, rest]
  split
  case isTrue => rfl
  case isFalse enough =>
  split
  case isTrue => rfl
  case isFalse version =>
  split
  case isTrue => rfl
  case isFalse long =>
  split
  case isTrue => rfl
  case isFalse whole =>
    rw [UInt8.lt_iff_toNat_lt, hlen] at long
    refine absurd ⟨size, ?_, ⟨Nat.not_lt.mp long, ?_⟩, ?_⟩ broken
    · rw [← ver, not_not.mp version]
      rfl
    · rw [← hlen]
      exact Nat.not_lt.mp enough
    · rw [← len]
      exact (not_not.mp whole).symm

end IPv4Header

namespace IPv4Datagram

/-- Too short for a header, the fresh datagram still states the length of none. -/
theorem parse_short {data : Buffer} (short : data.length < 20) :
    (({} : IPv4Datagram).parse data).1 = .packetTooShort := by
  have header : (({} : IPv4Datagram).header.parse { buffer := data }) =
      (.packetTooShort, {}, { buffer := data }) := if_pos short
  have wrapped : ({} : IPv4Header).payloadLength.toNat = 65516 := by decide
  have size : BufferList.size [data] ≠ ({} : IPv4Header).payloadLength.toNat := by
    rw [wrapped]
    simp only [BufferList.size, List.map_cons, List.map_nil, List.sum_cons, List.sum_nil]
    omega
  simp only [parse, header, if_pos size]

/-- What decides, for data with a header: the length behind the place where the
header's parser has stopped. -/
theorem parse_eq {data rest : Buffer} {d : IPv4Datagram} (size : 20 ≤ data.length)
    (stopped : (d.header.parse { buffer := data }).2 =
      ((IPv4Header.parseFields { buffer := data }).1, { buffer := rest })) :
    (d.parse data).2.payload = [rest] ∧ ((d.parse data).1 = .noError ↔
      rest.length = FixedWidth.sub 16 (totalLengthField data) (4 * headerLengthField data)) := by
  obtain ⟨_, _, hlen, len⟩ := IPv4Header.parseFields_spec size
  have length := IPv4Header.payloadLength_toNat (IPv4Header.parseFields { buffer := data }).1
  rw [hlen, len] at length
  simp only [parse, stopped, length, BufferList.size, List.map_cons, List.map_nil, List.sum_cons, List.sum_nil,
    Nat.add_zero]
  by_cases same : rest.length = FixedWidth.sub 16 (totalLengthField data) (4 * headerLengthField data)
  · rw [if_neg (not_not.mpr same)]
    exact ⟨rfl, iff_of_true rfl same⟩
  · rw [if_pos same]
    exact ⟨rfl, iff_of_false (by simp) same⟩

/-- Data that is not valid has to be refused. -/
theorem parsedExactly_iff_refused {data : Buffer} (invalid : ¬ Valid data) :
    ParsedExactly data ↔ (({} : IPv4Datagram).parse data).1 ≠ .noError := by
  constructor
  · exact fun exactly => mt exactly.1.mp invalid
  · exact fun refused => ⟨iff_of_false refused invalid, fun accepted => absurd accepted refused⟩

/-- A framed datagram is accepted in any case, so all depends on its checksum. -/
theorem Framed.parsedExactly_iff {data : Buffer} (framed : Framed data) :
    ParsedExactly data ↔ Verifies 0 (data.take (4 * headerLengthField data)) := by
  have stopped := IPv4Header.parse_of_framed framed ({} : IPv4Datagram).header
  obtain ⟨payload, accepted⟩ := parse_eq framed.size (congrArg Prod.snd stopped)
  have small : totalLengthField data < 2 ^ 16 := by
    have high := (data.getD 2 0).toNat_lt
    have low := (data.getD 3 0).toNat_lt
    rw [totalLengthField]
    omega
  have fits : (data.drop (4 * headerLengthField data)).length =
      FixedWidth.sub 16 (totalLengthField data) (4 * headerLengthField data) := by
    rw [FixedWidth.sub_of_le (by rw [framed.totalLength]; exact framed.headerLength.2) small, List.length_drop,
      framed.totalLength]
  have valid : Valid data ↔ Verifies 0 (data.take (4 * headerLengthField data)) :=
    ⟨Valid.checksum, fun checksum => ⟨framed, checksum⟩⟩
  rw [ParsedExactly, valid, payload, iff_true_left (accepted.mpr fits)]
  simp

/-- The parser is exact on the data without a header, on the valid datagrams, and
on those that are not framed if their total length also does not fit what is
left behind twenty bytes. It accepts all other data. -/
theorem datagram_parsed_exactly_iff (data : Buffer) :
    ParsedExactly data ↔
      data.length < 20 ∨ (Framed data ∧ Verifies 0 (data.take (4 * headerLengthField data))) ∨
        (¬ Framed data ∧
          data.length - 20 ≠ FixedWidth.sub 16 (totalLengthField data) (4 * headerLengthField data)) := by
  rcases Nat.lt_or_ge data.length 20 with short | size
  · have invalid : ¬ Valid data := fun valid => absurd valid.size (by omega)
    refine iff_of_true ((parsedExactly_iff_refused invalid).mpr ?_) (.inl short)
    rw [parse_short short]
    decide
  have long : ¬ data.length < 20 := Nat.not_lt.mpr size
  by_cases framed : Framed data
  · rw [framed.parsedExactly_iff]
    simp [long, framed]
  · have invalid : ¬ Valid data := fun valid => framed valid.toFramed
    have stopped := IPv4Header.parse_of_not_framed size framed ({} : IPv4Datagram).header
    obtain ⟨_, accepted⟩ := parse_eq size stopped
    rw [List.length_drop] at accepted
    rw [parsedExactly_iff_refused invalid, ne_eq, accepted]
    simp [long, framed]

/-- Twenty bytes of a header whose checksum is zero, and does not verify. -/
theorem corrupt_datagram_accepted :
    ¬ ParsedExactly [0x45, 0, 0, 20, 0, 0, 0x40, 0, 128, 6, 0, 0, 10, 0, 0, 1, 10, 0, 0, 2] := by
  rintro ⟨exactly, _⟩
  exact absurd (exactly.mp (by decide)).checksum (by decide)

end IPv4Datagram

namespace TCPSegment

/-- In 32-bit words, as the header has it. -/
def dataOffsetField (data : Buffer) : Nat := (data.getD 12 0).toNat / 16

/-- A valid segment, with its checksum started at `start`. -/
structure Valid (start : UInt32) (data : Buffer) : Prop where
  checksum : Verifies start.toNat data
  size : 20 ≤ data.length
  dataOffset : 5 ≤ dataOffsetField data ∧ 4 * dataOffsetField data ≤ data.length

/-- The parser accepts `data` if and only if it is valid, with the payload that
stands behind its header, whatever the segment held before. -/
def ParsedExactly (start : UInt32) (data : Buffer) : Prop :=
  ∀ seg : TCPSegment, ((seg.parse data start).1 = .noError ↔ Valid start data) ∧
    ((seg.parse data start).1 = .noError →
      (seg.parse data start).2.payload = data.drop (4 * dataOffsetField data))

end TCPSegment

/-- A pseudo-header sums up to far less than 32 bits hold. -/
theorem IPv4Header.pseudoCksum_le (h : IPv4Header) : h.pseudoCksum.toNat ≤ 5 * 65535 + 255 := by
  have halves : ∀ a : UInt32, ((a >>> (16 : UInt32)) + (a &&& (0xffff : UInt32))).toNat ≤ 2 * 65535 := by
    intro a
    have small := a.toNat_lt
    have low : (a &&& (0xffff : UInt32)).toNat = a.toNat % 2 ^ 16 := Nat.and_two_pow_sub_one_eq_mod _ 16
    have high : (a >>> (16 : UInt32)).toNat = a.toNat / 2 ^ 16 := Nat.shiftRight_eq_div_pow _ 16
    have sum : a.toNat / 2 ^ 16 + a.toNat % 2 ^ 16 ≤ 2 * 65535 := by omega
    rw [UInt32.toNat_add, low, high, Nat.mod_eq_of_lt (by omega)]
    exact sum
  have src := halves h.src
  have dst := halves h.dst
  have proto := h.proto.toNat_lt
  have length := h.payloadLength.toNat_lt
  rw [pseudoCksum, UInt32.toNat_add, UInt32.toNat_add, UInt32.toNat_add, UInt8.toNat_toUInt32,
    UInt16.toNat_toUInt32]
  omega

namespace TCPHeader
open TCPSegment

/-- The header's parser as the `NetParser` shows it: a header that is too long
for the data is an error there, one that is too short is not. -/
theorem parse_spec (data : Buffer) :
    (data.length < 20 → (parse { buffer := data }).2.2.error = true) ∧
      (20 ≤ data.length → dataOffsetField data < 5 → (parse { buffer := data }).2.2 = { buffer := data.drop 20 }) ∧
      (20 ≤ data.length → 5 ≤ dataOffsetField data →
        Took data (4 * dataOffsetField data) (parse { buffer := data }).2.2) := by
  have start := took_start data
  have taken : Took data 20 (parseFields { buffer := data }).2 := by
    simp only [parseFields]
    exact start.u16.u16.u32.u32.u8.u8.u16.u16.u16
  have offset : 20 ≤ data.length →
      (parseFields { buffer := data }).1.doff.toNat = dataOffsetField data := by
    intro size
    have byte := start.u16.u16.u32.u32.u8_fst (by omega)
    simp only [parseFields]
    rw [byte, UInt8.toNat_shiftRight, dataOffsetField]
    exact Nat.shiftRight_eq_div_pow _ 4
  have five : (5 : UInt8).toNat = 5 := rfl
  simp only [parse, UInt8.lt_iff_toNat_lt, five]
  generalize parseFields { buffer := data } = fields at taken offset ⊢
  refine ⟨?_, ?_, ?_⟩
  · intro short
    split
    · exact taken.of_lt short
    · have failed := (taken.removePrefix (fields.1.doff.toNat * 4 - length)).of_lt
        (Nat.lt_add_right _ short)
      rw [if_pos failed]
      exact failed
  · intro size low
    rw [offset size, if_pos low]
    exact taken.of_le size
  · intro size high
    have all := taken.removePrefix (dataOffsetField data * 4 - length)
    rw [show 20 + (dataOffsetField data * 4 - length) = 4 * dataOffsetField data by rw [length]; omega] at all
    rw [offset size, if_neg (Nat.not_lt.mpr high)]
    split <;> exact all

end TCPHeader

namespace TCPSegment

theorem parse_eq {start : UInt32} {data : Buffer} (fits : start.toNat + 65280 * data.length < 2 ^ 32)
    (seg : TCPSegment) :
    seg.parse data start =
      if Verifies start.toNat data then
        ((TCPHeader.parse { buffer := data }).2.2.getError,
          { header := (TCPHeader.parse { buffer := data }).2.1
            payload := (TCPHeader.parse { buffer := data }).2.2.buffer })
      else (.badChecksum, seg) := by
  have sum := value_add_eq_zero_iff fits
  simp only [parse]
  by_cases verified : Verifies start.toNat data
  · rw [if_pos verified, if_neg (not_not.mpr (sum.mpr verified))]
  · rw [if_neg verified, if_pos (mt sum.mp verified)]

theorem fits_of_produced {start : UInt32} {data : Buffer} (small : data.length ≤ 65535)
    (produced : start = 0 ∨ ∃ h : IPv4Header, start = h.pseudoCksum) :
    start.toNat + 65280 * data.length < 2 ^ 32 := by
  rcases produced with rfl | ⟨h, rfl⟩
  · rw [UInt32.toNat_zero]
    omega
  · have := h.pseudoCksum_le
    omega

/-- The parser is exact but for a segment that verifies and states a data offset
below the fixed fields: the header's parser calls it too short, and nobody asks. -/
theorem segment_parsed_exactly_iff {start : UInt32} {data : Buffer} (small : data.length ≤ 65535)
    (produced : start = 0 ∨ ∃ h : IPv4Header, start = h.pseudoCksum) :
    ParsedExactly start data ↔
      ¬ (Verifies start.toNat data ∧ 20 ≤ data.length ∧ dataOffsetField data < 5) := by
  have parsed := parse_eq (fits_of_produced small produced)
  obtain ⟨short, low, high⟩ := TCPHeader.parse_spec data
  constructor
  · rintro exactly ⟨verified, size, offset⟩
    have accepted : (({} : TCPSegment).parse data start).1 = .noError := by
      rw [parsed, if_pos verified, low size offset]
    have := ((exactly {}).1.mp accepted).dataOffset.1
    omega
  · intro sound seg
    have refused : (seg.parse data start).1 ≠ .noError → ¬ Valid start data →
        ((seg.parse data start).1 = .noError ↔ Valid start data) ∧
          ((seg.parse data start).1 = .noError →
            (seg.parse data start).2.payload = data.drop (4 * dataOffsetField data)) :=
      fun refused invalid => ⟨iff_of_false refused invalid, fun accepted => absurd accepted refused⟩
    by_cases verified : Verifies start.toNat data
    swap
    · exact refused (by rw [parsed, if_neg verified]; simp) fun valid => verified valid.checksum
    rcases Nat.lt_or_ge data.length 20 with less | size
    · exact refused (by rw [parsed, if_pos verified]; simpa [error] using short less)
        fun valid => absurd valid.size (by omega)
    have offset : 5 ≤ dataOffsetField data := Nat.not_lt.mp fun low => sound ⟨verified, size, low⟩
    have took := high size offset
    rcases Nat.lt_or_ge data.length (4 * dataOffsetField data) with less | enough
    · exact refused (by rw [parsed, if_pos verified]; simpa [error] using took.of_lt less)
        fun valid => absurd valid.dataOffset.2 (by omega)
    · rw [parsed, if_pos verified, took.of_le enough]
      exact ⟨iff_of_true rfl ⟨verified, size, offset, enough⟩, fun _ => rfl⟩

/-- A bare header behind the pseudo-header of a datagram of forty bytes. -/
theorem segment_parsed_exactly_iff_bare :
    ParsedExactly ({ len := 40 } : IPv4Header).pseudoCksum
      [0, 0, 0, 0, 0, 0, 0, 0, 0, 0, 0, 0, 0x50, 0, 0, 0, 0xaf, 0xe5, 0, 0] :=
  (segment_parsed_exactly_iff (by decide) (.inr ⟨{ len := 40 }, rfl⟩)).mpr (by decide)

/-- Twenty bytes that verify, with a data offset of four words. -/
theorem overlapping_segment_accepted :
    ¬ ParsedExactly 0 [0, 0, 0, 0, 0, 0, 0, 0, 0, 0, 0, 0, 0x40, 0, 0, 0, 0xbf, 0xff, 0, 0] := by
  intro exactly
  exact absurd ((exactly {}).1.mp (by decide)).dataOffset (by decide)

end TCPSegment
end Sponge
