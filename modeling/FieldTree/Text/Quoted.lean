import FieldTree.Text.Hexadecimal
import FieldTree.Text.Printable
/-! Text between quotes, readable on one line. -/

namespace FieldTree.Text

/-- One character inside quotes: the quote and the backslash take a backslash, and what cannot be shown
is written by its code in two, four or eight digits. -/
def quotedChar (quote c : Char) : String :=
  if c = quote || c = '\\' then String.ofList ['\\', c]
  else if c = '\n' then "\\n"
  else if c = '\r' then "\\r"
  else if c = '\t' then "\\t"
  else if isPrintable c then c.toString
  else if c.toNat < 0x100 then "\\x" ++ hexCode 2 c.toNat
  else if c.toNat < 0x10000 then "\\u" ++ hexCode 4 c.toNat
  else "\\U" ++ hexCode 8 c.toNat

/-- Single quotes, unless the text holds a single quote and no double quote. -/
def quoteFor (text : String) : Char :=
  if text.toList.contains '\'' && !text.toList.contains '"' then '"' else '\''

def quoted (text : String) : String :=
  let quote := quoteFor text
  quote.toString ++ String.join (text.toList.map (quotedChar quote)) ++ quote.toString

end FieldTree.Text
