import CilAssembler.Opcode.Table
import CilAssembler.Region.Fault
import CilAssembler.Symbol

/-! # Errors

Every cause for which an operation of the library is refused, and the wording of each. -/

namespace CilAssembler

/-- What is wrong with a handle. -/
inductive ReferenceFault where
  | foreign
  | invalidated
  | alreadyMarked
  | mismatched
  deriving DecidableEq

/-- The fault in words. -/
def ReferenceFault.message : ReferenceFault → String
  | .foreign => "owned by another assembler"
  | .invalidated => "discarded by a rewind"
  | .alreadyMarked => "already marked"
  | .mismatched => "does not match the declared slot"

/-- The number of bytes of user strings that tokens can address. -/
def heapCapacity : Nat := 0x00FFFFFF

/-- Limits that were passed and uses that make no sense. -/
inductive Malformation where
  | tooManySwitchTargets (count : Nat)
  | foreignCheckpoint (owner user : AssemblerId)
  | staleCheckpoint (serial : UInt32)
  | bodyOverflow (op : Opcode) (offset : Nat)
  | streamOverflow (offset : Nat)
  | labelUsedBeforeDefinition (label : Label)
  | localUsedBeforeDeclaration (v : Local)
  | labelRosterGap (index : UInt32)
  | localRosterGap (index : UInt32)
  | codeOverflow
  | tooManyLabels
  | tooManyLocals (count : Nat)
  | heapFull
  | stringTooLong (bytes : Nat)

/-- The cause in words. -/
def Malformation.message : Malformation → String
  | .tooManySwitchTargets count => "Too many switch targets: " ++ toString count
  | .foreignCheckpoint owner user =>
      "Checkpoint from assembler " ++ toString owner ++ " used on assembler " ++ toString user
  | .staleCheckpoint serial =>
      "Checkpoint " ++ toString serial.toNat ++ " was discarded by an earlier rewind"
  | .bodyOverflow op offset =>
      "Emitting '" ++ op.mnemonic ++ "' at " ++ toString offset ++ " overflows the body size"
  | .streamOverflow offset =>
      "Instruction stream exceeds u32 offsets at " ++ toString offset
  | .labelUsedBeforeDefinition label =>
      "Replayed stream uses " ++ label.toString ++ " before defining it"
  | .localUsedBeforeDeclaration v =>
      "Replayed stream uses " ++ v.toString ++ " before declaring it"
  | .labelRosterGap index => "Label roster out of sync at " ++ toString index.toNat
  | .localRosterGap index => "Local roster out of sync at " ++ toString index.toNat
  | .codeOverflow => "Method body exceeds u32 offsets"
  | .tooManyLabels => "Too many labels"
  | .tooManyLocals count => "Too many locals: " ++ toString count
  | .heapFull => "User string heap exceeds " ++ toString heapCapacity ++ " bytes"
  | .stringTooLong bytes => "User string of " ++ toString bytes ++ " bytes is too long"

/-- Why an operation is refused. `bodyLabelPlaced` and `undefinedLabel` speak of labels of a
method body, by their index; `failure` carries a text of the caller's own. -/
inductive Error where
  | malformed (cause : Malformation)
  | invalidLabel (label : Label) (fault : ReferenceFault)
  | invalidLocal (v : Local) (fault : ReferenceFault)
  | operandMismatch (op : Opcode) (expected : OperandKind) (found : String)
  | regionViolation (operation : RegionOperation) (fault : RegionFault)
  | sizeTableGap (op : Opcode)
  | unmarkedLabel (label : Label)
  | undefinedLabel (index : UInt32)
  | branchOutOfRange (op : Opcode) (position target : Nat) (displacement : Int)
  | invalidMnemonic (text : String)
  | bodyLabelPlaced (index : UInt32) (position : Nat)
  | failure (text : String)

/-- The error in words. -/
def Error.message : Error → String
  | .malformed cause => cause.message
  | .invalidLabel label fault =>
      "Invalid symbolic reference to label " ++ label.toString ++ ": " ++ fault.message
  | .invalidLocal v fault =>
      "Invalid symbolic reference to local " ++ v.toString ++ ": " ++ fault.message
  | .operandMismatch op expected found =>
      "Operand mismatch for '" ++ op.mnemonic ++ "': expected " ++ expected.toString ++
        ", found " ++ found
  | .regionViolation operation fault =>
      "Region protocol violation in " ++ operation.name ++ ": " ++ fault.message
  | .sizeTableGap op => "No operand size entry for '" ++ op.mnemonic ++ "'"
  | .unmarkedLabel label => "Label " ++ label.toString ++ " is referenced but never marked"
  | .undefinedLabel index => "Undefined label - body label " ++ toString index.toNat
  | .branchOutOfRange op position target displacement =>
      "Branch from '" ++ op.mnemonic ++ "' at offset " ++ toString position ++ " to " ++
        toString target ++ " is out of range (" ++ toString displacement ++ " does not fit)"
  | .invalidMnemonic text => "Invalid mnemonic - " ++ text
  | .bodyLabelPlaced index position =>
      "body label " ++ toString index.toNat ++ " already placed at " ++ Text.codeOffset position
  | .failure text => text

/-- The opcode with the given mnemonic, or an error that names the text. -/
def Opcode.parse (text : String) : Except Error Opcode :=
  match ofMnemonic? text with
  | some op => .ok op
  | none => .error (.invalidMnemonic text)

end CilAssembler
