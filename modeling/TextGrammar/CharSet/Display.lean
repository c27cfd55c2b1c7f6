/-
Characters and sets of characters in pattern form.
-/
import TextGrammar.CharSet.Basic

namespace TextGrammar

namespace PatternChar

/-- Exactly four hexadecimal digits, or more if the number needs them. -/
def hex4 (n : Nat) : String :=
  let digits := Nat.toDigits 16 n
  String.ofList (List.replicate (4 - digits.length) '0' ++ digits)

/-- A character between the brackets of a set has to be told apart from these signs. -/
def isSpecialInSet (c : Char) : Bool :=
  c == '[' || c == ']' || c == '\\' || c == '^' || c == '-' || c == '&'

/-- A character on its own has to be told apart from the signs of the pattern language. -/
def isSpecial (c : Char) : Bool := ".?*+^\x7b\x7d()[]|\\!$\"'\x60~ ".toList.contains c

/-- A character in pattern form, with a backslash where `special` asks for one. -/
def escape (special : Char → Bool) (c : Char) : String :=
  if c == '\n' then "\\n"
  else if c == '\t' then "\\t"
  else if c == '\r' then "\\r"
  else if special c then "\\" ++ c.toString
  else if CharClasses.isControl c then "\\u" ++ hex4 c.toNat
  else c.toString

/-- A character between the brackets of a set. -/
def inSet : Char → String := escape isSpecialInSet

/-- A character on its own. -/
def alone : Char → String := escape isSpecial

end PatternChar

namespace CharSet

/-- A class by its name. -/
def displayClass (name : String) : String := "\\p\x7b" ++ name ++ "\x7d"

mutual

/-- The set as one item between the brackets of another. -/
def displayItem : CharSet → String
  | .single c => PatternChar.inSet c
  | .range lo hi => PatternChar.inSet lo ++ "-" ++ PatternChar.inSet hi
  | .members cs => String.join (cs.map PatternChar.inSet)
  | .named name => displayClass name
  | .union items => displayItems items
  | .inter items => "[" ++ displayParts items ++ "]"
  | .compl item => "[^" ++ displayItem item ++ "]"

/-- Items one after the other. -/
def displayItems : List CharSet → String
  | [] => ""
  | item :: items => displayItem item ++ displayItems items

/-- Items with the sign for intersection between them. -/
def displayParts : List CharSet → String
  | [] => ""
  | [item] => displayItem item
  | item :: items => displayItem item ++ "&&" ++ displayParts items

end

/-- The set as it stands on its own in a pattern: in brackets, unless it is a character, a class, or
has brackets already. -/
def display : CharSet → String
  | .single c => PatternChar.alone c
  | set@(.named _) | set@(.inter _) | set@(.compl _) => displayItem set
  | set => "[" ++ displayItem set ++ "]"

end CharSet

end TextGrammar
