/-
The text a grammar is matched against: an array of characters. Every offset,
length and width in this library counts characters of a text, never bytes.
-/

namespace TextGrammar

/-- A text to be matched, with its characters at offsets `0`, `1`, … -/
abbrev Text := Array Char

namespace Text

def ofString (s : String) : Text := s.toList.toArray

/-- The characters from `start` up to `stop` excluded, as far as the text has them. -/
def slice (text : Text) (start stop : Nat) : Text := text.extract start stop

def string (text : Text) : String := String.ofList text.toList

/-- Everything from `offset` on; empty when the offset lies past the end. -/
def stringFrom (text : Text) (offset : Nat) : String := (text.slice offset text.size).string

end Text

/-- The largest count a pattern or a declared width can hold: counts have 64 bits. -/
def maxCount : Nat := Nat.pow 2 64 - 1

/-- Addition that stays at `maxCount` once it gets there. -/
def addSaturating (a b : Nat) : Nat := min (a + b) maxCount

end TextGrammar
