import CilAssembler.Assembler
import CilAssembler.Bytes
import CilAssembler.Cache
import CilAssembler.Call
import CilAssembler.CallShape
import CilAssembler.CompactForm
import CilAssembler.Error
import CilAssembler.ExceptionClause
import CilAssembler.Ieee.Format
import CilAssembler.Ieee.Shortest
import CilAssembler.Ieee.Text
import CilAssembler.Instruction
import CilAssembler.Listing
import CilAssembler.Member
import CilAssembler.MethodBody.Builder
import CilAssembler.MethodBody.Finish
import CilAssembler.MethodBody.OpenRegion
import CilAssembler.Opcode.Basic
import CilAssembler.Opcode.Table
import CilAssembler.Operand
import CilAssembler.OperandKind
import CilAssembler.Recorder.Basic
import CilAssembler.Recorder.Checkpoint
import CilAssembler.Region.Fault
import CilAssembler.Region.Stack
import CilAssembler.Replay
import CilAssembler.Sink
import CilAssembler.Sizing
import CilAssembler.Stream
import CilAssembler.StringHeap.Basic
import CilAssembler.StringHeap.CompressedLength
import CilAssembler.Symbol
import CilAssembler.Text.Hex
import CilAssembler.Text.Quoted
import CilAssembler.Text.Unprintable
import CilAssembler.Text.Utf16
import CilAssembler.Token
import CilAssembler.Transcript
import CilAssembler.Proofs.Books
import CilAssembler.Proofs.Rosters
import CilAssembler.Proofs.Bookkeeping
import CilAssembler.Proofs.Rewind
import CilAssembler.Proofs.Workshop
import CilAssembler.Proofs.Forwarding
import CilAssembler.Proofs.Lockstep
import CilAssembler.Proofs.StringHeap
import CilAssembler.Proofs.Displacements
import CilAssembler.Proofs.OpDraft
import CilAssembler.Proofs.Building
import CilAssembler.Proofs.Assembling
import CilAssembler.Proofs.Encoding
import CilAssembler.Proofs.Capacity
import CilAssembler.Proofs.Blocks
import CilAssembler.Proofs.Clauses
import CilAssembler.Proofs.OpenClauses
import CilAssembler.Proofs.ExceptionTable
import CilAssembler.Proofs.ClauseOrder
import CilAssembler.Proofs.Adoption
import CilAssembler.Proofs.Provenance
import CilAssembler.Proofs.Sessions
import CilAssembler.Proofs.Replaying
import CilAssembler.Proofs.RegionGrammar
import CilAssembler.Proofs.Reach
import CilAssembler.Proofs.Lifetimes
import CilAssembler.Proofs.Interning
import CilAssembler.Proofs.Decoding
import CilAssembler.Proofs.Closing
import CilAssembler.Proofs.Copying
import CilAssembler.Proofs.DirectEmission
import CilAssembler.Proofs.Sections
import CilAssembler.Proofs.BareBuilder
import CilAssembler.Proofs.Relabeling
import CilAssembler.Proofs.Masking
import CilAssembler.Proofs.NameIndependence
import CilAssembler.Proofs.StreamEdits
import CilAssembler.Proofs.WriteOnce
import CilAssembler.Proofs.JumpTargets
import CilAssembler.Proofs.JumpFields
import CilAssembler.Proofs.ClauseBounds
import CilAssembler.Proofs.OffsetLookup
import CilAssembler.Proofs.HeapLayout
import CilAssembler.Proofs.ListedTargets
import CilAssembler.Proofs.LengthForms
import CilAssembler.Proofs.CompactForms
import CilAssembler.Proofs.Mirroring
