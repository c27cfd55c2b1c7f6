/-
The pattern language, written in the checkers that patterns compile to.

Each category of the language is a type, so that categories can refer to one
another: a group holds a body, a body sequences, a sequence items, and an item
may be a group. Where a construct stops making sense, a fatal error takes the
rest of the pattern; matching a pattern therefore always succeeds, and what is
wrong with it stands as a node in the tree.
-/
import TextGrammar.Types.Builtin

namespace TextGrammar.Pattern

/-- Characters with a meaning of their own outside character sets. -/
def specials : String := "()[]\x7b\x7d.?*+|\\!$\"'\x60~^"

/-! ## Parts of categories -/

/-- A match of this category, with its node. -/
def category (name : String) : Entry := .ref name none

/-- One character, without a node of its own. -/
def char (c : Char) : Entry := .ofChecker (.single c)

/-- A literal text. -/
def literal (text : String) : Entry := .ofChecker (.literal text.toList)

/-- Entries that stand or fall together. -/
def group (entries : List Entry) : Entry := .ofChecker (.sequence entries)

def many (entry : Entry) : Entry := entry.quantified .zeroOrMore

def optional (entry : Entry) : Entry := entry.quantified .zeroOrOne

/-- Any character but these. -/
def noneOf (chars : String) : Checker := .char (.complement (.ofString chars))

/-- The checker, or where it does not match a fatal error with a message. -/
def orFatal (checker : Checker) (message : String) : Checker :=
  .alternativeOr [checker] (.sequence [.ref "fatalError" (some message)])

/-- A name of letters, digits and underscores that does not begin with a digit. -/
def nameAs (node : String) : Entry :=
  let head := CharSet.unionOf [.between 'a' 'z', .between 'A' 'Z', .single '_']
  let tail := CharSet.unionOf [head, .between '0' '9']
  (group [.ofChecker (.char head), many (.ofChecker (.char tail))]).named node

/-! ## Categories -/

/-- A comment, after its opening, up to its end. -/
def commentUntil (close : String) : Entry :=
  .ofChecker (orFatal
    (.sequence [many (.ofChecker (.not (.literal close.toList))), literal close])
    "Unterminated comment")

/-- White space and comments. -/
def ignored : Checker :=
  .alternative [
    .char (.named "whitespace"),
    .sequence [literal "/*", commentUntil "*/"],
    .sequence [literal "(*", commentUntil "*)"],
    .sequence [literal "//", many (.ofChecker (noneOf "\n"))]]

/-- What may follow a backslash: a code in hexadecimal or octal digits, a class, or any character. -/
def escapeForms : List Checker :=
  let hex := Entry.ofChecker (.char (.named "hexdigit"))
  let octal := Entry.ofChecker (.char (.between '0' '7'))
  [ .sequence [char 'x', hex.quantified (.exactly 2)],
    .sequence [char 'u', hex.quantified (.exactly 4)],
    .sequence [char '0', octal.quantified ⟨1, some 3, .possessive⟩],
    .sequence [
      .ofChecker (.char (.ofString "pP")), char '\x7b', many (.ofChecker (noneOf "\x7d")),
      char '\x7d'],
    .anyOf 1 ]

/-- A backslash and what it makes a character or a class of. -/
def escape : Checker :=
  .sequence [char '\\', .ofChecker (orFatal (.alternative escapeForms) "Invalid escape")]

/-- Bounds in braces. -/
def bounds : Checker :=
  let digits := many (.ofChecker (.char (.between '0' '9')))
  .sequence [
    char '\x7b',
    .ofChecker (orFatal
      (.sequence [digits, optional (group [char ',', digits]), char '\x7d'])
      "Malformed quantifier")]

/-- A repeat sign or bounds in braces, and a sign for greediness. -/
def quantifier : Checker :=
  .sequence [
    .ofChecker (.alternative [.single '?', .single '*', .single '+', .single '^', bounds]),
    optional ((Entry.ofChecker (.char (.ofString "+*"))).named "greed")]

/-- A set of characters in brackets. -/
def charSet : Checker :=
  .sequence [
    char '[',
    optional ((char '^').named "negate"),
    .ofChecker (orFatal (.sequence [category "setItems", char ']']) "Malformed character set")]

/-- The items of a set, in parts that are intersected. -/
def setItems : Checker :=
  let part := (group [many (category "setItem")]).named "part"
  .sequence [part, many (group [literal "&&", part])]

/-- A set, a range or a character. -/
def setItem : Checker :=
  .alternative [
    .sequence [category "charSet"],
    .sequence [(category "setChar").named "from", char '-', (category "setChar").named "to"],
    .sequence [category "setChar"]]

/-- A character of a set. -/
def setChar : Checker := .alternative [.sequence [category "escape"], noneOf "]\\[&"]

/-- A type by its name, with a parameter in parentheses. -/
def typeRef : Checker :=
  let param := (group [many (.ofChecker (noneOf ")"))]).named "param"
  .sequence [
    char '!',
    .ofChecker (orFatal
      (.sequence [
        optional ((char '$').named "capture"), nameAs "name",
        optional (group [char '(', param, char ')']), char '!'])
      "Malformed type reference")]

/-- A reference to captured text. -/
def backRef : Checker :=
  .sequence [
    char '$',
    .ofChecker (orFatal
      (.sequence [nameAs "name", optional ((char '\'').named "ci"), char ';'])
      "Malformed back-reference")]

/-- A literal between two quotes of one kind. -/
def quotedBy (quote : Char) : Checker :=
  let content := Checker.alternative [
    .sequence [category "escape"], noneOf (String.ofList [quote, '\\'])]
  .sequence [
    char quote,
    .ofChecker (orFatal (.sequence [many (.ofChecker content), char quote])
      "Unterminated literal")]

/-- A literal between two double quotes, two single quotes or two backticks. -/
def quoted : Checker := .alternative [quotedBy '"', quotedBy '\'', quotedBy '\x60']

/-- A body in parentheses, with a name, a negation and a secondary body around it. -/
def groupCategory : Checker :=
  let capture := group [
    (Entry.ofChecker (.char (.ofString "#$"))).named "kind", nameAs "name", char ':']
  let second := group [many (category "ignored"), char '~', (category "body").named "second"]
  .sequence [
    char '(',
    .ofChecker (orFatal
      (.sequence [
        optional capture, many (category "ignored"), optional ((char '^').named "not"),
        category "body", optional second, char ')'])
      "Unclosed group")]

/-- Sequences with separators between them. -/
def body : Checker :=
  let separator := Checker.alternative [.literal ['|', '|'], .single '|']
  .sequence [
    category "sequence",
    many (group [(Entry.ofChecker separator).named "sep", category "sequence"])]

/-- Items with white space and comments around them. -/
def sequence : Checker :=
  .sequence [many (group [many (category "ignored"), category "item"]), many (category "ignored")]

/-- What an item may be: a construct with signs of its own, or a character without a meaning. -/
def elements : List Checker :=
  let plain := CharSet.complement (.unionOf [.ofString specials, .named "whitespace"])
  [ .sequence [category "group"],
    .sequence [category "charSet"],
    .sequence [category "quoted"],
    .sequence [category "typeRef"],
    .sequence [category "backRef"],
    .sequence [category "escape"],
    .single '.',
    .char plain ]

/-- One element and its quantifier. -/
def item : Checker :=
  .sequence [.ofChecker (.alternative elements), optional (category "quantifier")]

/-- All categories. Their names differ from those of the built-in types. -/
def categories : List ParserType :=
  Builtin.all ++ [
    Builtin.constant "ignored" ignored,
    Builtin.constant "escape" escape,
    Builtin.constant "quantifier" quantifier,
    Builtin.constant "charSet" charSet,
    Builtin.constant "setItems" setItems,
    Builtin.constant "setItem" setItem,
    Builtin.constant "setChar" setChar,
    Builtin.constant "typeRef" typeRef,
    Builtin.constant "backRef" backRef,
    Builtin.constant "quoted" quoted,
    Builtin.constant "group" groupCategory,
    Builtin.constant "body" body,
    Builtin.constant "sequence" sequence,
    Builtin.constant "item" item]

/-- The type of a category or a built-in type. -/
def category? (name : String) : Option ParserType := categories.find? (·.name == name)

/-- A pattern: as much of a body as there is. -/
def start : Grammar := ⟨[category "body"]⟩

end TextGrammar.Pattern
