import Worksheet.Text.Hexadecimal
import Worksheet.Text.Printable

/-!
# Quoted text

Messages show a text between quotes.  Single quotes are used, unless the text holds a single quote
and no double one.  A backslash and the quote in use are escaped, so are line ends and tabs, and any
other character that is not printable is written by its code point in hexadecimal.
-/

namespace Worksheet.Text

/-- The quote that a text is shown in. -/
def quoteFor (cs : List Char) : Char :=
  if cs.contains '\'' && !cs.contains '"' then '"' else '\''

/-- One character of a text between quotes. -/
def quotedChar (quote c : Char) : List Char :=
  if c = quote || c = '\\' then ['\\', c]
  else if c = '\n' then ['\\', 'n']
  else if c = '\r' then ['\\', 'r']
  else if c = '\t' then ['\\', 't']
  else if isPrintable c then [c]
  else if c.toNat < 0x100 then '\\' :: 'x' :: hexChars 2 c.toNat
  else if c.toNat < 0x10000 then '\\' :: 'u' :: hexChars 4 c.toNat
  else '\\' :: 'U' :: hexChars 8 c.toNat

/-- The characters of a quoted text. -/
def quotedChars (cs : List Char) : List Char :=
  let quote := quoteFor cs
  quote :: (cs.flatMap (quotedChar quote) ++ [quote])

/-- The text between quotes. -/
def quoted (s : String) : String :=
  String.ofList (quotedChars s.toList)

end Worksheet.Text
