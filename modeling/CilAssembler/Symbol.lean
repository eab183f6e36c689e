import CilAssembler.Member

/-! # Labels and locals

Symbolic handles that only mean something to the assembler that made them. A handle records its
owner, its place in the owner's roster and the revision of the roster. A rewind starts a new
revision, so a handle that was discarded differs from a later one in the same place. -/

namespace CilAssembler

/-- The identity of an assembler. -/
structure AssemblerId where
  number : UInt32
  deriving DecidableEq

instance : ToString AssemblerId where
  toString id := "#" ++ toString id.number.toNat

/-- A position in the code that is named before it is known. -/
structure Label where
  owner : AssemblerId
  revision : UInt32
  index : UInt32
  name : Option String

namespace Label

/-- Labels are the same if they stand for one allocation; the name plays no part. -/
instance : BEq Label where
  beq a b := a.owner == b.owner && a.revision == b.revision && a.index == b.index

theorem beq_iff {a b : Label} :
    (a == b) = true ↔ a.owner = b.owner ∧ a.revision = b.revision ∧ a.index = b.index := by
  change (a.owner == b.owner && a.revision == b.revision && a.index == b.index) = true ↔ _
  simp [and_assoc]

/-- The name given to the label, or one made from its index. -/
protected def toString (label : Label) : String :=
  label.name.getD ("label_" ++ toString label.index.toNat)

instance : ToString Label := ⟨Label.toString⟩

end Label

/-- A local variable of the method. -/
structure Local where
  owner : AssemblerId
  revision : UInt32
  index : UInt32
  type : Member
  pinned : Bool
  name : Option String

namespace Local

/-- Whether two handles stand for one allocation, whatever they say about its type. -/
def sameSlot (a b : Local) : Bool :=
  a.owner == b.owner && a.revision == b.revision && a.index == b.index

/-- Locals are the same if they stand for one allocation and agree on type and pinning. -/
instance : BEq Local where
  beq a b := a.sameSlot b && a.type == b.type && a.pinned == b.pinned

/-- The name given to the local, or one made from its index. -/
protected def toString (v : Local) : String :=
  v.name.getD ("V_" ++ toString v.index.toNat)

instance : ToString Local := ⟨Local.toString⟩

end Local

end CilAssembler
