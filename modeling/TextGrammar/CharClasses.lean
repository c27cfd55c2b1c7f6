/-
Named classes of characters, such as `digit` or `alpha`. Patterns refer to them
by name; what a name means is up to the source of classes the registry carries.
-/
import TextGrammar.Unicode.Letter
import TextGrammar.Unicode.LetterCase

namespace TextGrammar

/-- A source of character classes. -/
structure CharClasses where
  /-- The class of this name, if there is one. -/
  find? : String → Option (Char → Bool)

namespace CharClasses

def has (classes : CharClasses) (name : String) : Bool := (classes.find? name).isSome

/-- Whether the named class has the character; nothing for an unknown class. -/
def contains? (classes : CharClasses) (name : String) (c : Char) : Option Bool :=
  (classes.find? name).map (· c)

/-! ## Classes of ASCII -/

def isAscii (c : Char) : Bool := c.toNat < 0x80

/-- Space and everything visible in ASCII. -/
def isPrintableAscii (c : Char) : Bool := 0x20 ≤ c.toNat && c.toNat ≤ 0x7E

/-- Visible in ASCII, and neither a letter nor a digit. -/
def isPunctuation (c : Char) : Bool :=
  0x21 ≤ c.toNat && c.toNat ≤ 0x7E && !c.isAlphanum

def isHexDigit (c : Char) : Bool :=
  c.isDigit || ('a' ≤ c && c ≤ 'f') || ('A' ≤ c && c ≤ 'F')

/-! ## Classes of all scripts -/

/-- White space in any script. -/
def isBlank (c : Char) : Bool :=
  let code := c.toNat
  (9 ≤ code && code ≤ 13) || code == 0x20 || code == 0x85 || code == 0xA0 || code == 0x1680
    || (0x2000 ≤ code && code ≤ 0x200A) || code == 0x2028 || code == 0x2029 || code == 0x202F
    || code == 0x205F || code == 0x3000

/-- What a word is made of: letters, numbers and the underscore. -/
def isWordChar (c : Char) : Bool := Unicode.isAlphanumeric c || c == '_'

/-- A control character, below U+0020 or from U+007F to U+009F. -/
def isControl (c : Char) : Bool := c.toNat < 0x20 || (0x7F ≤ c.toNat && c.toNat < 0xA0)

/-- The class a standard name stands for. Some classes have two names. -/
def standardClass? : String → Option (Char → Bool)
  | "digit" => some Char.isDigit
  | "alpha" => some Unicode.isAlphabetic
  | "alphabet" => some Unicode.isAlphabetic
  | "alnum" => some Unicode.isAlphanumeric
  | "upper" => some Unicode.isUppercase
  | "lower" => some Unicode.isLowercase
  | "space" => some isBlank
  | "whitespace" => some isBlank
  | "word" => some isWordChar
  | "punct" => some isPunctuation
  | "print" => some isPrintableAscii
  | "hexdigit" => some isHexDigit
  | "ascii" => some isAscii
  | "any" => some fun _ => true
  | _ => none

/-- The classes every registry starts with. -/
def standard : CharClasses := ⟨standardClass?⟩

/-- Exactly the given classes, each listed by its members. -/
def ofMembers (classes : List (String × List Char)) : CharClasses :=
  ⟨fun name => (classes.find? (·.1 == name)).map fun entry c => entry.2.contains c⟩

end CharClasses

end TextGrammar
