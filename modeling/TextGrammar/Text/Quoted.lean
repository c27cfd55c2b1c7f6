/-
Text in double quotes, the way outlines, values and error messages show it:
every character that would not be visible on its own is written as an escape.
-/
import TextGrammar.Unicode.Printable

namespace TextGrammar.Quoted

/-- A character by its number in hexadecimal, as `\u{…}`. -/
def codeEscape (c : Char) : String :=
  "\\u\x7b" ++ String.ofList (Nat.toDigits 16 c.toNat) ++ "\x7d"

/-- One character between the quotes. -/
def char (c : Char) : String :=
  if c == '"' then "\\\""
  else if c == '\\' then "\\\\"
  else if c == '\n' then "\\n"
  else if c == '\r' then "\\r"
  else if c == '\t' then "\\t"
  else if c == '\x00' then "\\0"
  else if Unicode.isExtendingMark c || !Unicode.isPrintable c then codeEscape c
  else c.toString

end TextGrammar.Quoted

namespace TextGrammar

/-- The text between double quotes, with everything invisible escaped. -/
def quoted (s : String) : String :=
  "\"" ++ String.join (s.toList.map Quoted.char) ++ "\""

end TextGrammar
