import CilAssembler.Member

/-! # Callable shapes

What has to agree for two callables to be called alike: the types of the parameters and of the
result, and whether there is an instance. Types agree if their tokens do. -/

namespace CilAssembler

/-- The shape of a callable. -/
structure CallShape where
  hasThis : Bool
  parameters : List Member
  returnType : Option Member
  deriving Inhabited

namespace CallShape

/-- No instance, no parameters and no result. -/
def empty : CallShape := ⟨false, [], none⟩

/-- The tokens of a shape, which decide whether shapes agree. -/
def tokens (s : CallShape) : Bool × List Token × Option Token :=
  (s.hasThis, s.parameters.map (·.token), s.returnType.map (·.token))

instance : BEq CallShape where
  beq a b := a.tokens == b.tokens

instance : Hashable CallShape where
  hash s := hash s.tokens

theorem beq_iff_tokens_eq {a b : CallShape} : (a == b) = true ↔ a.tokens = b.tokens :=
  beq_iff_eq (a := a.tokens) (b := b.tokens)

instance : EquivBEq CallShape where
  rfl := beq_iff_tokens_eq.mpr rfl
  symm h := beq_iff_tokens_eq.mpr (beq_iff_tokens_eq.mp h).symm
  trans h k := beq_iff_tokens_eq.mpr ((beq_iff_tokens_eq.mp h).trans (beq_iff_tokens_eq.mp k))

instance : LawfulHashable CallShape where
  hash_eq _ _ h :=
    congrArg (fun t : Bool × List Token × Option Token => hash t) (beq_iff_tokens_eq.mp h)

/-- The number of arguments, the instance included. -/
def argumentCount (s : CallShape) : Nat :=
  s.parameters.length + s.hasThis.toNat

/-- The shape as a signature. -/
protected def toString (s : CallShape) : String :=
  (if s.hasThis then "instance " else "") ++
    (match s.returnType with
      | some type => type.name
      | none => "void") ++
    " (" ++ ", ".intercalate (s.parameters.map (·.name)) ++ ")"

instance : ToString CallShape := ⟨CallShape.toString⟩

end CallShape

end CilAssembler
