import CilAssembler.Text.Hex
import CilAssembler.Text.Unprintable

/-! # Quoted text

Text between double quotes. Quotes, backslashes and common controls are written with a backslash
and a letter; characters that cannot be shown are written by their code point. -/

namespace CilAssembler.Text

/-- A character inside quotes. -/
def escape (c : Char) : String :=
  if c = '"' then "\\\""
  else if c = '\\' then "\\\\"
  else if c = '\n' then "\\n"
  else if c = '\r' then "\\r"
  else if c = '\t' then "\\t"
  else if c = '\x00' then "\\0"
  else if isUnprintable c then "\\u\x7b" ++ hex 1 c.toNat ++ "\x7d"
  else c.toString

/-- A text in quotes. -/
def quoted (text : String) : String :=
  text.foldl (fun result c => result ++ escape c) "\"" ++ "\""

end CilAssembler.Text
