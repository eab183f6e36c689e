import CilAssembler.Ieee.Text
import CilAssembler.Stream
import CilAssembler.Text.Quoted

/-! # Listings

A recorded stream as text, one line for each operation and, if wanted, for each marker. Branch
targets are shown by their offset once it is known. -/

namespace CilAssembler

/-- What a listing shows beside the operations. -/
structure ListingOptions where
  offsets : Bool
  markers : Bool
  tokens : Bool

namespace ListingOptions

/-- Offsets only. -/
def standard : ListingOptions := ⟨true, false, false⟩

/-- Everything. -/
def verbose : ListingOptions := ⟨true, true, true⟩

/-- A branch target: its offset, or its name while that is not known. -/
def target (offsets : Std.HashMap UInt32 Nat) (label : Label) : String :=
  match offsets[label.index]? with
  | some offset => Text.codeOffset offset
  | none => label.toString

/-- A member by its name, with its token if wanted. -/
def member (options : ListingOptions) (m : Member) : String :=
  if options.tokens then
    m.name ++ " /* 0x" ++ Text.hexUpper 8 m.token.value.toNat ++ " */"
  else
    m.name

/-- An operand. -/
def operand (options : ListingOptions) (offsets : Std.HashMap UInt32 Nat) :
    Operand Label Local → String
  | .none => ""
  | .int8 value => toString value.toInt
  | .uint8 value => toString value.toNat
  | .uint16 value => toString value.toNat
  | .int32 value => toString value.toInt
  | .int64 value => toString value.toInt
  | .float32 bits => Ieee.binary32.render bits.toNat
  | .float64 bits => Ieee.binary64.render bits.toNat
  | .string text => Text.quoted text
  | .label label => target offsets label
  | .labels labels => "(" ++ ", ".intercalate (labels.map (target offsets)) ++ ")"
  | .localVar v => v.toString
  | .field m | .constructor m | .method m | .type m => options.member m

/-- An operation. -/
def op (options : ListingOptions) (offsets : Std.HashMap UInt32 Nat) (o : Op) : String :=
  let text := options.operand offsets o.operand
  if text.isEmpty then o.code.mnemonic else o.code.mnemonic ++ " " ++ text

/-- A marker. -/
def marker : Instruction → String
  | .op o => o.code.mnemonic
  | .defineLabel label => ".label " ++ label.toString
  | .markLabel label => label.toString ++ ":"
  | .declareLocal v =>
      ".local " ++ v.toString ++ " " ++ v.type.name ++ (if v.pinned then " pinned" else "")
  | .beginExceptionBlock exit => ".try \x7b // exit " ++ exit.toString
  | .beginCatchBlock (some type) => "\x7d catch " ++ type.name ++ " \x7b"
  | .beginCatchBlock none => "\x7d catch \x7b"
  | .beginExceptFilterBlock => "\x7d filter \x7b"
  | .beginFinallyBlock => "\x7d finally \x7b"
  | .beginFaultBlock => "\x7d fault \x7b"
  | .endExceptionBlock exit => "\x7d // end .try, " ++ exit.toString ++ ":"
  | .beginScope => "\x7b"
  | .endScope => "\x7d"

/-- The text of an instruction, or nothing for a marker that is not wanted. -/
def instruction? (options : ListingOptions) (offsets : Std.HashMap UInt32 Nat) :
    Instruction → Option String
  | .op o => some (options.op offsets o)
  | i => if options.markers then some ("// " ++ marker i) else none

/-- A line of the listing, with the end of the line. -/
def line (options : ListingOptions) (offsets : Std.HashMap UInt32 Nat) (l : Line) : String :=
  match options.instruction? offsets l.instruction with
  | some text =>
      (if options.offsets then Text.codeOffset l.offset ++ ": " else "") ++ text ++ "\n"
  | none => ""

end ListingOptions

/-- The listing of a stream. -/
def Stream.listing (options : ListingOptions) (s : Stream) : String :=
  let offsets := s.labelOffsets
  s.lines.foldl (fun text l => text ++ options.line offsets l) ""

end CilAssembler
