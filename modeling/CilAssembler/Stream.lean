import CilAssembler.Instruction
import Std.Data.HashMap

/-! # Recorded streams

A stream is the list of recorded lines, each with its offset in the code. The offset of a line is
the total size of the lines before it. -/

namespace CilAssembler

/-- An instruction at its offset. -/
structure Line where
  offset : Nat
  instruction : Instruction

/-- The number of bytes of code the line stands for. -/
def Line.size (line : Line) : Nat :=
  line.instruction.size

instance : BEq Line where
  beq a b := a.offset == b.offset && a.instruction == b.instruction

/-- Recorded lines and the offset after the last of them. -/
structure Stream where
  lines : Array Line
  endOffset : Nat

namespace Stream

/-- The stream without lines. -/
def empty : Stream := ⟨#[], 0⟩

instance : BEq Stream where
  beq a b := a.lines == b.lines && a.endOffset == b.endOffset

/-- The number of lines. -/
def length (s : Stream) : Nat :=
  s.lines.size

/-- Whether the stream has no lines. -/
def isEmpty (s : Stream) : Bool :=
  s.lines.isEmpty

/-- Adds a line at the end. -/
def append (s : Stream) (i : Instruction) : Stream :=
  ⟨s.lines.push ⟨s.endOffset, i⟩, s.endOffset + i.size⟩

/-- Adds a line at the end if the stream does not grow beyond the largest offset, and gives back
the offset of the line. -/
def push (s : Stream) (i : Instruction) : Except Error Nat × Stream :=
  if s.endOffset + i.size ≤ offsetLimit then
    (.ok s.endOffset, s.append i)
  else
    (.error (.malformed (.streamOverflow s.endOffset)), s)

/-- Adds a marker at the end. A marker takes no room, so this cannot fail. -/
def pushMarker (s : Stream) (i : Instruction) : Stream :=
  ⟨s.lines.push ⟨s.endOffset, i⟩, s.endOffset⟩

/-- Keeps the first `count` lines. -/
def truncate (s : Stream) (count : Nat) : Stream :=
  match s.lines[count]? with
  | some line => ⟨s.lines.take count, line.offset⟩
  | none => s

/-- Keeps the lines up to and including line `index`. -/
def truncateAfter (s : Stream) (index : Nat) : Stream :=
  s.truncate (index + 1)

/-- The operations with their offsets, in order. -/
def ops (s : Stream) : List (Nat × Op) :=
  s.lines.toList.filterMap fun line => line.instruction.op?.map (line.offset, ·)

/-- The first line at an offset, with its index. Only the first line that is not before the offset
is looked at, because later lines are not before it either. -/
def findByOffset? (s : Stream) (offset : Nat) : Option (Nat × Line) :=
  match s.lines.findIdx? fun line => offset ≤ line.offset with
  | none => none
  | some index =>
      match s.lines[index]? with
      | some line => if line.offset = offset then some (index, line) else none
      | none => none

/-- The first operation among the lines from `index` on that are at an offset. -/
def opFrom? (lines : Array Line) (offset index : Nat) : Option Op :=
  if h : index < lines.size then
    if lines[index].offset = offset then
      match lines[index].instruction.op? with
      | some op => some op
      | none => opFrom? lines offset (index + 1)
    else none
  else none
termination_by lines.size - index

/-- The operation at an offset. -/
def instructionAt? (s : Stream) (offset : Nat) : Option Op :=
  match s.findByOffset? offset with
  | none => none
  | some (start, _) => opFrom? s.lines offset start

/-- The offsets at which labels are placed, by the index of the label. -/
def labelOffsets (s : Stream) : Std.HashMap UInt32 Nat :=
  s.lines.foldl (fun offsets line =>
    match line.instruction.placed? with
    | some label => offsets.insert label.index line.offset
    | none => offsets) ∅

end Stream

end CilAssembler
