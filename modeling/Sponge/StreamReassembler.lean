import Sponge.Lib.FixedWidth
import Sponge.ByteStream

/-! Stream reassembly as the source computes it. The `std::set` of nodes, which
is ordered by start index, is an ordered list; an iterator position is a split of
that list, and the two merge loops visit the nodes on either side of it outwards.
Index sums are `size_t` sums and wrap. -/
namespace Sponge

structure Node where
  idx : Nat
  len : Nat
  data : List UInt8
deriving DecidableEq, Repr

def Node.new (idx : Nat) (data : List UInt8) : Node := ⟨idx, data.length, data⟩

structure StreamReassembler where
  dataBuffer : List Node
  inputEndIdx : Nat
  unassembledBytes : Nat
  curIdx : Nat
  output : ByteStream
  capacity : Nat
deriving DecidableEq, Repr

namespace StreamReassembler

/-- The source's placeholder for an end index that is not yet known. -/
def int32Max : Nat := 2 ^ 31 - 1

def new (capacity : Nat) : StreamReassembler where
  dataBuffer := []
  inputEndIdx := int32Max
  unassembledBytes := 0
  curIdx := 0
  output := .new capacity
  capacity := capacity

def empty (r : StreamReassembler) : Bool := r.unassembledBytes == 0

def inputEnded (r : StreamReassembler) : Bool := r.output.inputEnded

/-- Merge `b` into `a`: the new `a` and the number of overlapping bytes, or
`none` where the source returns -1 because the nodes do not touch. -/
def mergeTo (a b : Node) : Option (Node × Nat) :=
  let dst1 := if a.idx ≤ b.idx then a else b
  let dst2 := if a.idx ≤ b.idx then b else a
  let end1 := FixedWidth.add 64 dst1.idx dst1.len
  let end2 := FixedWidth.add 64 dst2.idx dst2.len
  if end1 ≥ end2 then some (dst1, dst2.len)
  else if end1 < dst2.idx then none
  else some (.new dst1.idx (dst1.data ++ dst2.data.drop (end1 - dst2.idx)), end1 - dst2.idx)

/-- Either merge loop: the nodes in the order the iterator visits them, each
erased once it is merged. A merged successor leaves `block.idx` unchanged and a
merged predecessor becomes its start, so the source's next `lower_bound` is the
next node of the list. Returns the block, the nodes not reached and the count. -/
def absorb (block : Node) (count : Nat) : List Node → Node × List Node × Nat
  | [] => (block, [], count)
  | it :: rest =>
    match mergeTo block it with
    | none => (block, it :: rest, count)
    | some (merged, mergeBytes) => absorb merged (FixedWidth.sub 64 count mergeBytes) rest

/-- The nodes before and from `lower_bound(block)`. -/
def lowerBound (buffer : List Node) (block : Node) : List Node × List Node :=
  buffer.span (fun n => n.idx < block.idx)

/-- `std::set::insert`: a node with an equal key is kept. -/
def insertNode (buffer : List Node) (block : Node) : List Node :=
  match lowerBound buffer block with
  | (before, []) => before ++ [block]
  | (before, it :: after) =>
    if it.idx = block.idx then buffer else before ++ block :: it :: after

/-- Count the block, merge it with its successors and then with its
predecessors, and insert the result. -/
def store (r : StreamReassembler) (block : Node) : StreamReassembler :=
  let count := FixedWidth.add 64 r.unassembledBytes block.len
  let (before, after) := lowerBound r.dataBuffer block
  let (block, after, count) := absorb block count after
  let (block, before, count) := absorb block count before.reverse
  { r with
    dataBuffer := insertNode (before.reverse ++ after) block
    unassembledBytes := count }

/-- Write the first node to the output if it starts at the assembled index. -/
def writeFirst (r : StreamReassembler) : StreamReassembler :=
  match r.dataBuffer with
  | [] => r
  | toWrite :: rest =>
    if toWrite.idx = r.curIdx then
      let (writtenBytes, output) := r.output.write toWrite.data
      { r with
        dataBuffer := rest
        unassembledBytes := FixedWidth.sub 64 r.unassembledBytes writtenBytes
        curIdx := r.curIdx + writtenBytes
        output := output }
    else r

/-- The pushed data without what lies past `maxIdx` or before `curIdx`. -/
def clip (index : Nat) (data : List UInt8) (maxIdx curIdx : Nat) : Node :=
  let block := Node.new index data
  let block := if FixedWidth.add 64 block.idx block.len > maxIdx
    then .new block.idx (block.data.take (maxIdx - block.idx)) else block
  if block.idx < curIdx
    then .new (index + (curIdx - block.idx)) (block.data.drop (curIdx - block.idx)) else block

def maxIdx (r : StreamReassembler) : Nat :=
  FixedWidth.add 64 (FixedWidth.sub 64 r.curIdx r.output.bufferSize) r.capacity

def endInput (r : StreamReassembler) : StreamReassembler :=
  { r with output := r.output.endInput }

/-- End the output once the assembled index has reached the known end index. -/
def endIfReached (r : StreamReassembler) : StreamReassembler :=
  if r.curIdx ≥ r.inputEndIdx ∧ r.empty = true then r.endInput else r

def endIfEmpty (r : StreamReassembler) (eof : Bool) : StreamReassembler :=
  if eof = true ∧ r.empty = true then r.endInput else r

def noteEnd (r : StreamReassembler) (data : List UInt8) (index : Nat) (eof : Bool) :
    StreamReassembler :=
  if eof then { r with inputEndIdx := FixedWidth.add 64 index data.length } else r

def pushSubstring (r : StreamReassembler) (data : List UInt8) (index : Nat) (eof : Bool) :
    StreamReassembler :=
  let r := r.noteEnd data index eof
  if index > r.maxIdx then r
  else if FixedWidth.add 64 index data.length ≤ r.curIdx then r.endIfReached
  else ((r.store (clip index data r.maxIdx r.curIdx)).writeFirst.endIfReached).endIfEmpty eof

/-- The application's read of the assembled stream. -/
def readOutput (r : StreamReassembler) (len : Nat) : List UInt8 × StreamReassembler :=
  ((r.output.read len).1, { r with output := (r.output.read len).2 })

end StreamReassembler
end Sponge
