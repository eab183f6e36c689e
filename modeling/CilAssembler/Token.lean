import CilAssembler.Text.Hex

/-! # Metadata tokens

A token names a row of a metadata table: the table number in the high byte, the row in the
low three bytes. -/

namespace CilAssembler

/-- A reference to a row of a metadata table. -/
structure Token where
  value : UInt32
  deriving DecidableEq, Hashable, Inhabited

namespace Token

/-- The table of references to types of other assemblies. -/
def typeRefTable : UInt8 := 0x01
/-- The table of types defined here. -/
def typeDefTable : UInt8 := 0x02
/-- The table of methods defined here. -/
def methodDefTable : UInt8 := 0x06
/-- The table of references to members of other types. -/
def memberRefTable : UInt8 := 0x0A
/-- The table of constructed types. -/
def typeSpecTable : UInt8 := 0x1B
/-- The table of instantiated generic methods. -/
def methodSpecTable : UInt8 := 0x2B
/-- The pseudo table whose rows are offsets into the user string heap. -/
def userStringTable : UInt8 := 0x70

/-- The token of row `row` of table `table`. Only the low 24 bits of the row are kept. -/
def ofParts (table : UInt8) (row : UInt32) : Token :=
  ⟨(table.toUInt32 <<< 24) ||| (row &&& 0x00FFFFFF)⟩

/-- The number of the table. -/
def table (t : Token) : UInt8 :=
  (t.value >>> 24).toUInt8

/-- The row within the table. -/
def row (t : Token) : UInt32 :=
  t.value &&& 0x00FFFFFF

/-- The token that refers to nothing. -/
def isNull (t : Token) : Bool :=
  t.value == 0

/-- Whether the token names a type. -/
def isType (t : Token) : Bool :=
  t.table == typeDefTable || t.table == typeRefTable || t.table == typeSpecTable

/-- Whether the token names a method. -/
def isMethod (t : Token) : Bool :=
  t.table == methodDefTable || t.table == memberRefTable || t.table == methodSpecTable

/-- Whether the token names a user string. -/
def isUserString (t : Token) : Bool :=
  t.table == userStringTable

instance : Ord Token where
  compare a b := compare a.value b.value

/-- The value in hexadecimal, eight digits wide. -/
protected def toString (t : Token) : String :=
  "0x" ++ Text.hex 8 t.value.toNat

instance : ToString Token := ⟨Token.toString⟩

/-- The value together with its table and row. -/
def describe (t : Token) : String :=
  "Token(" ++ t.toString ++ ", table: 0x" ++ Text.hex 2 t.table.toNat ++ ", row: " ++
    toString t.row.toNat ++ ")"

end Token

end CilAssembler
