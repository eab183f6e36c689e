import CilAssembler.Token

/-! # Members

Fields, methods, constructors and types as operands refer to them. A member is identified by its
token alone; its name is only for display. -/

namespace CilAssembler

/-- What a member is. -/
inductive MemberKind where
  | field
  | method
  | constructor
  | type
  deriving DecidableEq

/-- A metadata token with a display name. -/
structure Member where
  token : Token
  name : String
  deriving Inhabited

namespace Member

/-- Two members are the same if their tokens are. -/
instance : BEq Member where
  beq a b := a.token == b.token

instance : Hashable Member where
  hash m := hash m.token

instance : ToString Member := ⟨Member.name⟩

theorem beq_iff_token_eq {a b : Member} : (a == b) = true ↔ a.token = b.token :=
  beq_iff_eq (a := a.token) (b := b.token)

instance : EquivBEq Member where
  rfl := beq_iff_token_eq.mpr rfl
  symm h := beq_iff_token_eq.mpr (beq_iff_token_eq.mp h).symm
  trans h k := beq_iff_token_eq.mpr ((beq_iff_token_eq.mp h).trans (beq_iff_token_eq.mp k))

instance : LawfulHashable Member where
  hash_eq _ _ h := congrArg (fun t : Token => hash t) (beq_iff_token_eq.mp h)

end Member

/-- The word that introduces a member of this kind in its full description. -/
def MemberKind.handleName : MemberKind → String
  | .field => "FieldHandle"
  | .method => "MethodHandle"
  | .constructor => "ConstructorHandle"
  | .type => "TypeHandle"

/-- A member of the given kind with its name and its token. -/
def Member.describe (kind : MemberKind) (m : Member) : String :=
  kind.handleName ++ "(" ++ m.name ++ ", " ++ m.token.toString ++ ")"

end CilAssembler
