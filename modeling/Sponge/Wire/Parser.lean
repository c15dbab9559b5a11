import Sponge.Lib.FixedWidth
import Mathlib.Tactic

/-! Buffers and the integer parser of the wire formats. A `Buffer` is a string
of bytes; a `BufferList` keeps the pieces apart, because a list of several
buffers cannot be turned into one `Buffer`. -/
namespace Sponge

abbrev Buffer := List UInt8

abbrev BufferList := List Buffer

namespace BufferList

def size (buffers : BufferList) : Nat := (buffers.map List.length).sum

def concatenate (buffers : BufferList) : Buffer := buffers.flatten

/-- The conversion operator, which throws on several buffers. -/
def toBuffer : BufferList → Except String Buffer
  | [] => .ok []
  | [buffer] => .ok buffer
  | _ => .error "BufferList: please use concatenate() to combine a multi-Buffer BufferList into one Buffer"

end BufferList

inductive ParseResult where
  | noError
  | badChecksum
  | packetTooShort
  | wrongIPVersion
  | headerTooShort
  | truncatedPacket
  | unsupported
deriving DecidableEq, Repr

structure NetParser where
  buffer : Buffer
  getError : ParseResult := .noError
deriving DecidableEq, Repr

namespace NetParser

def error (p : NetParser) : Bool := p.getError != .noError

def checkSize (p : NetParser) (size : Nat) : NetParser :=
  if size > p.buffer.length then { p with getError := .packetTooShort } else p

/-- An integer of `len` bytes in network byte order, or 0 after an error. -/
def parseInt (p : NetParser) (len : Nat) : Nat × NetParser :=
  let p := p.checkSize len
  if p.error then (0, p)
  else
    ((p.buffer.take len).foldl
      (fun ret byte => FixedWidth.trunc (8 * len) (ret * 2 ^ 8 + byte.toNat)) 0,
      { p with buffer := p.buffer.drop len })

def u32 (p : NetParser) : UInt32 × NetParser := (UInt32.ofNat (p.parseInt 4).1, (p.parseInt 4).2)

def u16 (p : NetParser) : UInt16 × NetParser := (UInt16.ofNat (p.parseInt 2).1, (p.parseInt 2).2)

def u8 (p : NetParser) : UInt8 × NetParser := (UInt8.ofNat (p.parseInt 1).1, (p.parseInt 1).2)

/-- A loop of `u8` over an array of `n` bytes. -/
def bytes : Nat → NetParser → List UInt8 × NetParser
  | 0, p => ([], p)
  | n + 1, p =>
    let (byte, p) := p.u8
    let (rest, p) := bytes n p
    (byte :: rest, p)

theorem bytes_length (n : Nat) (p : NetParser) : (bytes n p).1.length = n := by
  induction n generalizing p with
  | zero => rfl
  | succ n ih => simp [bytes, ih]

def removePrefix (p : NetParser) (n : Nat) : NetParser :=
  let p := p.checkSize n
  if p.error then p else { p with buffer := p.buffer.drop n }

end NetParser

namespace NetUnparser

/-- The low `len` bytes of `val` in network byte order. -/
def unparseInt (len val : Nat) : Buffer :=
  (List.range len).map (fun i => UInt8.ofNat ((val >>> ((len - i - 1) * 8)) &&& 0xff))

def u32 (val : UInt32) : Buffer := unparseInt 4 val.toNat

def u16 (val : UInt16) : Buffer := unparseInt 2 val.toNat

def u8 (val : UInt8) : Buffer := unparseInt 1 val.toNat

end NetUnparser
end Sponge
