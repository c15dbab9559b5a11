import Sponge.Wire.RoundTrip

/-! ARP messages and Ethernet frames against byte strings in general. Every
string that is long enough is the serialised form of some fields and a rest, so
what a parser makes of a string follows from what it makes of written fields. -/
namespace Sponge

namespace NetUnparser

/-- Digits above the written ones do not count. -/
theorem unparseInt_add (len high low : Nat) : unparseInt len (high * 2 ^ (8 * len) + low) = unparseInt len low := by
  induction len generalizing high with
  | zero => rfl
  | succ len ih =>
    have shift : high * 2 ^ (8 * (len + 1)) + low = (high * 2 ^ 8) * 2 ^ (8 * len) + low := by
      rw [Nat.mul_succ, Nat.pow_add, Nat.mul_assoc, Nat.mul_comm (2 ^ 8)]
    have digit : ((high * 2 ^ 8) * 2 ^ (8 * len) + low) >>> (len * 8) &&& 0xff = low >>> (len * 8) &&& 0xff := by
      rw [Nat.shiftRight_eq_div_pow, Nat.shiftRight_eq_div_pow, Nat.mul_comm len,
        Nat.add_comm, Nat.add_mul_div_right _ _ (Nat.two_pow_pos _), show 0xff = 2 ^ 8 - 1 from rfl,
        Nat.and_two_pow_sub_one_eq_mod, Nat.and_two_pow_sub_one_eq_mod, Nat.add_mul_mod_self_right]
    rw [shift, unparseInt_succ, unparseInt_succ, digit, ih]

/-- Every string of bytes is a number in network byte order. -/
theorem unparseInt_surjective (data : Buffer) : ∃ val < 2 ^ (8 * data.length), unparseInt data.length val = data := by
  induction data with
  | nil => exact ⟨0, by simp, rfl⟩
  | cons byte rest ih =>
    obtain ⟨val, small, eq⟩ := ih
    have top := byte.toNat_lt
    refine ⟨byte.toNat * 2 ^ (8 * rest.length) + val, ?_, ?_⟩
    · calc byte.toNat * 2 ^ (8 * rest.length) + val
          < byte.toNat * 2 ^ (8 * rest.length) + 2 ^ (8 * rest.length) := by omega
        _ = (byte.toNat + 1) * 2 ^ (8 * rest.length) := (Nat.succ_mul _ _).symm
        _ ≤ 2 ^ 8 * 2 ^ (8 * rest.length) := Nat.mul_le_mul_right _ top
        _ = 2 ^ (8 * (byte :: rest).length) := by rw [← Nat.pow_add, List.length_cons, Nat.mul_succ, Nat.add_comm]
    · have digit : (byte.toNat * 2 ^ (8 * rest.length) + val) >>> (rest.length * 8) &&& 0xff = byte.toNat := by
        rw [Nat.shiftRight_eq_div_pow, Nat.mul_comm rest.length, Nat.add_comm,
          Nat.add_mul_div_right _ _ (Nat.two_pow_pos _), Nat.div_eq_of_lt small, Nat.zero_add,
          show 0xff = 2 ^ 8 - 1 from rfl, Nat.and_two_pow_sub_one_eq_mod, Nat.mod_eq_of_lt top]
      rw [List.length_cons, unparseInt_succ, unparseInt_add, eq, digit, UInt8.ofNat_toNat]

/-- A long enough string begins with a written number. -/
theorem unparseInt_append_surjective {len : Nat} (data : Buffer) (long : len ≤ data.length) :
    ∃ val < 2 ^ (8 * len), data = unparseInt len val ++ data.drop len := by
  obtain ⟨val, small, eq⟩ := unparseInt_surjective (data.take len)
  rw [List.length_take_of_le long] at small eq
  exact ⟨val, small, by rw [eq, List.take_append_drop]⟩

theorem u16_append_surjective (data : Buffer) (long : 2 ≤ data.length) : ∃ val rest, data = u16 val ++ rest := by
  obtain ⟨val, small, eq⟩ := unparseInt_append_surjective data long
  refine ⟨UInt16.ofNat val, data.drop 2, ?_⟩
  rwa [u16, UInt16.toNat_ofNat', Nat.mod_eq_of_lt small]

theorem u32_append_surjective (data : Buffer) (long : 4 ≤ data.length) : ∃ val rest, data = u32 val ++ rest := by
  obtain ⟨val, small, eq⟩ := unparseInt_append_surjective data long
  refine ⟨UInt32.ofNat val, data.drop 4, ?_⟩
  rwa [u32, UInt32.toNat_ofNat', Nat.mod_eq_of_lt small]

theorem u16_append_inj {first second : UInt16} {left right : Buffer}
    (same : u16 first ++ left = u16 second ++ right) : first = second ∧ left = right := by
  have read := congrArg (fun data => NetParser.u16 { buffer := data }) same
  simpa only [NetParser.u16_unparse, Prod.mk.injEq, NetParser.mk.injEq, and_true] using read

end NetUnparser

open NetUnparser

theorem EthernetAddress.bytes_append_surjective (data : Buffer) (long : 6 ≤ data.length) :
    ∃ (address : EthernetAddress) (rest : Buffer), data = address.bytes ++ rest :=
  ⟨⟨data.take 6, List.length_take_of_le long⟩, data.drop 6, (List.take_append_drop 6 data).symm⟩

namespace ARPMessage

variable {arp : ARPMessage} {data : Buffer}

/-- Twenty-eight bytes are some message, supported or not. -/
theorem bytes_append_surjective (long : length ≤ data.length) : ∃ (arp : ARPMessage) (rest : Buffer),
    data = arp.bytes ++ rest := by
  have size : length = 28 := rfl
  rw [size] at long
  obtain ⟨hardwareType, data, rfl⟩ := u16_append_surjective data (by omega)
  rw [List.length_append, u16_length] at long
  obtain ⟨protocolType, data, rfl⟩ := u16_append_surjective data (by omega)
  rw [List.length_append, u16_length] at long
  obtain ⟨hardwareAddressSize, data, rfl⟩ := List.exists_cons_of_length_pos (l := data) (by omega)
  rw [List.length_cons] at long
  obtain ⟨protocolAddressSize, data, rfl⟩ := List.exists_cons_of_length_pos (l := data) (by omega)
  rw [List.length_cons] at long
  obtain ⟨opcode, data, rfl⟩ := u16_append_surjective data (by omega)
  rw [List.length_append, u16_length] at long
  obtain ⟨senderEthernetAddress, data, rfl⟩ := EthernetAddress.bytes_append_surjective data (by omega)
  rw [List.length_append, senderEthernetAddress.size] at long
  obtain ⟨senderIPAddress, data, rfl⟩ := u32_append_surjective data (by omega)
  rw [List.length_append, u32_length] at long
  obtain ⟨targetEthernetAddress, data, rfl⟩ := EthernetAddress.bytes_append_surjective data (by omega)
  rw [List.length_append, targetEthernetAddress.size] at long
  obtain ⟨targetIPAddress, rest, rfl⟩ := u32_append_surjective data (by omega)
  refine ⟨⟨hardwareType, protocolType, hardwareAddressSize, protocolAddressSize, opcode, senderEthernetAddress,
    senderIPAddress, targetEthernetAddress, targetIPAddress⟩, rest, ?_⟩
  simp only [bytes, flatMap_u8, u8_eq, List.append_assoc, List.cons_append, List.nil_append]

/-- The first eight bytes are those of a request or a reply for Ethernet and IPv4. -/
def SupportedStart (data : Buffer) : Prop :=
  data.take 8 = [0, 1, 8, 0, 6, 4, 0, 1] ∨ data.take 8 = [0, 1, 8, 0, 6, 4, 0, 2]

instance (data : Buffer) : Decidable (SupportedStart data) := inferInstanceAs (Decidable (_ ∨ _))

theorem supported_iff : arp.supported = true ↔ arp.hardwareType = typeEthernet ∧
    arp.protocolType = EthernetHeader.typeIPv4 ∧ arp.hardwareAddressSize = 6 ∧ arp.protocolAddressSize = 4 ∧
    (arp.opcode = opcodeRequest ∨ arp.opcode = opcodeReply) := by
  simp [supported, and_assoc]

/-- The fields that decide whether a message is supported come first. -/
theorem bytes_take (arp : ARPMessage) (rest : Buffer) : (arp.bytes ++ rest).take 8 =
    u16 arp.hardwareType ++ (u16 arp.protocolType ++
      (arp.hardwareAddressSize :: arp.protocolAddressSize :: (u16 arp.opcode ++ []))) := by
  simp [bytes, List.take_append, List.take_of_length_le]

theorem supportedStart_iff (arp : ARPMessage) (rest : Buffer) :
    SupportedStart (arp.bytes ++ rest) ↔ arp.supported = true := by
  have start : ∀ opcode : UInt16,
      (arp.bytes ++ rest).take 8 = u16 typeEthernet ++ (u16 EthernetHeader.typeIPv4 ++ (6 :: 4 :: (u16 opcode ++ []))) ↔
      arp.hardwareType = typeEthernet ∧ arp.protocolType = EthernetHeader.typeIPv4 ∧
        arp.hardwareAddressSize = 6 ∧ arp.protocolAddressSize = 4 ∧ arp.opcode = opcode := by
    intro opcode
    rw [bytes_take]
    constructor
    · intro same
      obtain ⟨hardware, same⟩ := u16_append_inj same
      obtain ⟨protocol, same⟩ := u16_append_inj same
      obtain ⟨hardwareSize, same⟩ := List.cons.inj same
      obtain ⟨protocolSize, same⟩ := List.cons.inj same
      exact ⟨hardware, protocol, hardwareSize, protocolSize, (u16_append_inj same).1⟩
    · rintro ⟨hardware, protocol, hardwareSize, protocolSize, operation⟩
      rw [hardware, protocol, hardwareSize, protocolSize, operation]
  rw [supported_iff, SupportedStart]
  refine (or_congr (start opcodeRequest) (start opcodeReply)).trans ?_
  simp only [← and_or_left]

/-- A message in the first twenty-eight bytes, and nothing else, is parsed. -/
theorem parse_noError_iff (into : ARPMessage) (data : Buffer) :
    (into.parse data).1 = .noError ↔ length ≤ data.length ∧ SupportedStart data := by
  by_cases short : data.length < length
  · rw [parse, if_pos short]
    simp [Nat.not_le.mpr short]
  · have long := Nat.not_lt.mp short
    obtain ⟨arp, rest, rfl⟩ := bytes_append_surjective long
    rw [supportedStart_iff, parse_bytes_append]
    cases arp.supported
    · exact iff_of_false (by simp) (by simp)
    · exact iff_of_true rfl ⟨long, rfl⟩

/-- ARP messages decode exactly what was encoded, in both directions. -/
theorem parse_exact (into : ARPMessage) :
    (∀ arp : ARPMessage, arp.supported = true → ∃ wire, arp.serialize = .ok wire ∧
      ∀ rest, into.parse (wire ++ rest) = (.noError, arp)) ∧
    ∀ data, ((into.parse data).1 = .noError ↔ length ≤ data.length ∧ SupportedStart data) ∧
      ((into.parse data).1 = .noError → (into.parse data).2.serialize = .ok (data.take length)) := by
  have written : ∀ arp : ARPMessage, arp.supported = true → arp.serialize = .ok arp.bytes :=
    fun arp supported => if_neg (by simp [supported])
  refine ⟨fun arp supported => ⟨arp.bytes, written arp supported, fun rest => ?_⟩, fun data => ⟨into.parse_noError_iff data, ?_⟩⟩
  · rw [parse_bytes_append, if_pos supported]
  · intro parsed
    obtain ⟨long, start⟩ := (into.parse_noError_iff data).mp parsed
    obtain ⟨arp, rest, rfl⟩ := bytes_append_surjective long
    have supported := (supportedStart_iff arp rest).mp start
    rw [parse_bytes_append, if_pos supported, written arp supported, List.take_left' arp.bytes_length]

end ARPMessage

namespace EthernetFrame

variable {data : Buffer}

/-- Fourteen bytes are some header. -/
theorem serialize_append_surjective (long : EthernetHeader.length ≤ data.length) :
    ∃ (header : EthernetHeader) (payload : Buffer), data = header.serialize ++ payload := by
  have size : EthernetHeader.length = 14 := rfl
  rw [size] at long
  obtain ⟨dst, data, rfl⟩ := EthernetAddress.bytes_append_surjective data (by omega)
  rw [List.length_append, dst.size] at long
  obtain ⟨src, data, rfl⟩ := EthernetAddress.bytes_append_surjective data (by omega)
  rw [List.length_append, src.size] at long
  obtain ⟨type, payload, rfl⟩ := u16_append_surjective data (by omega)
  refine ⟨⟨dst, src, type⟩, payload, ?_⟩
  simp only [EthernetHeader.serialize, flatMap_u8, List.append_assoc]

theorem parse_header_append (header : EthernetHeader) (payload : Buffer) (into : EthernetFrame) :
    into.parse (header.serialize ++ payload) = (.noError, { header := header, payload := [payload] }) := by
  have parsed := parse_serialize { header := header, payload := [payload] } into
  rwa [serialize, BufferList.concatenate_cons, BufferList.concatenate_singleton] at parsed

/-- The error of the header's parser is lost: everything is payload. -/
theorem parse_short (short : data.length < EthernetHeader.length) (into : EthernetFrame) :
    into.parse data = (.noError, { into with payload := [data] }) := by
  simp only [parse, EthernetHeader.parse, if_pos short]

/-- The frames that are rejected as they should be, and read back as they came,
are those with a whole header; and what is written is always read back. -/
theorem parse_exact_iff (into : EthernetFrame) :
    (∀ data, (((into.parse data).1 = .noError ↔ EthernetHeader.length ≤ data.length) ∧
        ((into.parse data).1 = .noError → (into.parse data).2.serialize.concatenate = data)) ↔
      EthernetHeader.length ≤ data.length) ∧
    ∀ f : EthernetFrame, into.parse f.serialize.concatenate =
      (.noError, { header := f.header, payload := [f.payload.concatenate] }) := by
  refine ⟨fun data => ?_, fun f => f.parse_serialize into⟩
  by_cases short : data.length < EthernetHeader.length
  · rw [parse_short short]
    simp [Nat.not_le.mpr short]
  · have long := Nat.not_lt.mp short
    obtain ⟨header, payload, rfl⟩ := serialize_append_surjective long
    rw [parse_header_append, serialize, BufferList.concatenate_cons, BufferList.concatenate_singleton]
    exact iff_of_true ⟨iff_of_true rfl long, fun _ => rfl⟩ long

/-- The empty frame is no error. -/
theorem short_frame_is_accepted :
    ¬ ((({} : EthernetFrame).parse []).1 = .noError ↔ EthernetHeader.length ≤ ([] : Buffer).length) := by
  decide +kernel

end EthernetFrame
end Sponge
