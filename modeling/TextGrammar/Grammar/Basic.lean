/-
Checkers, entries and grammars.

A checker says how many characters of a text it matches at an offset. A grammar
is a sequence of entries; an entry repeats what its target matches. Checkers can
hold grammars and grammars checkers, and a parser type supplies a checker when
a match gets to it, so the types of this module are defined together.
-/
import TextGrammar.CharSet.Basic
import TextGrammar.Error
import TextGrammar.Host
import TextGrammar.Quantifier
import TextGrammar.Value

namespace TextGrammar

/-- A literal of at least one character. -/
structure Word where
  first : Char
  rest : List Char
  deriving DecidableEq

namespace Word

/-- All characters, the first one included. -/
def chars (word : Word) : List Char := word.first :: word.rest

/-- How many characters a match of the word takes. -/
def length (word : Word) : Nat := word.rest.length + 1

/-- The word as it is shown. -/
def string (word : Word) : String := String.ofList word.chars

/-- The word of these characters, if there is one at all. -/
def ofList? : List Char → Option Word
  | [] => none
  | c :: cs => some ⟨c, cs⟩

end Word

/-- A type named in a grammar, to be looked up when a match gets there. -/
structure TypeRef where
  name : String
  param : Option String
  deriving DecidableEq

/-- The name under which a match of an entry is kept. -/
structure Capture where
  name : String
  /-- Only the span is kept, and nothing below it. -/
  flat : Bool
  deriving DecidableEq

/-- What a pattern can refer to: the names of types, and classes of characters. -/
structure Vocabulary where
  knows : String → Bool
  classes : CharClasses

mutual

/-- What can be matched at an offset. -/
inductive Checker where
  /-- One character of a set. -/
  | char (set : CharSet)
  | word (word : Word)
  /-- The longest of the choices; the fallback only where none of them matches. -/
  | oneOf (choices : List Checker) (fallback : Option Checker)
  /-- So many characters, whichever they are; without a width, all up to the end. -/
  | any (width : Option Nat)
  /-- One character where the item does not match. -/
  | not (item : Checker)
  /-- Regions of given widths, one after the other. -/
  | fixed (regions : List Region)
  | grammar (g : Grammar)

/-- A column of a record. -/
structure Region where
  name : String
  /-- Without a width the region goes to the end of the text. -/
  width : Option Nat
  /-- Has to match all of the region. -/
  grammar : Option Grammar

/-- Entries to be matched one after the other. -/
structure Grammar where
  entries : List Entry

/-- A quantified position of a grammar. -/
structure Entry where
  capture : Option Capture
  target : Target
  quantifier : Quantifier
  /-- Has to match all of what the target matched, and gives the nodes instead of it. -/
  secondary : Option Grammar

/-- What an entry matches with. -/
inductive Target where
  | checker (c : Checker)
  | ref (r : TypeRef)
  /-- A type held by the grammar itself. -/
  | type (t : ParserType)

/-- A named source of checkers, which may also reject a match and gives nodes their values. -/
inductive ParserType where
  /-- A type given by functions. `hostDependent` says that the checker varies with the match in
  progress and is to be asked for anew each time. -/
  | computed (name : String) (hostDependent : Bool)
      (supply : Vocabulary → Host → Option String → Except GrammarError Checker)
      (accepts : Host → NodeRef → Bool)
      (evaluate : NodeRef → Report → Except GrammarError Value × Report)
  /-- A type given by a pattern, which is compiled when the type is first used. `cell` tells apart
  types that are to be compiled on their own. -/
  | pattern (name : String) (text : String) (cell : Nat)

end

namespace ParserType

/-- The name it is looked up by, which its nodes carry too. -/
def name : ParserType → String
  | .computed name _ _ _ _ => name
  | .pattern name _ _ => name

/-- The checker is asked for at each attempt, and none is kept from one attempt to the next. -/
def hostDependent : ParserType → Bool
  | .computed _ hostDependent _ _ _ => hostDependent
  | .pattern _ _ _ => false

/-- Whether the type lets a match stand. -/
def accepts : ParserType → Host → NodeRef → Bool
  | .computed _ _ _ accepts _ => accepts
  | .pattern _ _ _ => fun _ _ => true

/-- The value of a node is its text, unless the type says otherwise. -/
def textValue (ref : NodeRef) (report : Report) : Except GrammarError Value × Report :=
  (.ok (.text ref.string), report)

/-- The value of a node of this type. -/
def evaluate : ParserType → NodeRef → Report → Except GrammarError Value × Report
  | .computed _ _ _ _ evaluate => evaluate
  | .pattern _ _ _ => textValue

end ParserType

/-! ## Building checkers -/

namespace Checker

/-- The one character. -/
def single (c : Char) : Checker := .char (.single c)

/-- The literal text, if it has a character. -/
def word? (text : String) : Except CheckerError Checker :=
  match Word.ofList? text.toList with
  | some w => .ok (.word w)
  | none => .error .emptyWord

/-- The literal text; without characters, it matches without taking any. -/
def literal (text : List Char) : Checker :=
  match Word.ofList? text with
  | some w => .word w
  | none => .any (some 0)

/-- So many characters. -/
def anyOf (width : Nat) : Checker := .any (some width)

/-- All up to the end of the text. -/
def rest : Checker := .any none

/-- The choices of an alternative without a fallback, or the checker itself as the only one. -/
def choiceParts : Checker → List Checker
  | .oneOf choices none => choices
  | checker => [checker]

/-- The longest of the choices. Choices that are alternatives without a fallback are merged in. -/
def alternative (choices : List Checker) : Checker :=
  .oneOf (choices.flatMap choiceParts) none

/-- The longest of the choices, or the fallback. -/
def alternativeOr (choices : List Checker) (fallback : Checker) : Checker :=
  .oneOf (choices.flatMap choiceParts) (some fallback)

/-- Matches nowhere. -/
def never : Checker := alternative []

/-- Entries as a checker. -/
def sequence (entries : List Entry) : Checker := .grammar ⟨entries⟩

end Checker

/-- Sum of the widths that are given. A sum beyond `maxCount` stays there: it fits no text. -/
def Region.declaredWidth (regions : List Region) : Nat :=
  (regions.filterMap Region.width).foldl addSaturating 0

/-- The last region goes to the end of the text. -/
def Region.isUnbounded (regions : List Region) : Bool :=
  match regions.getLast? with
  | some region => region.width.isNone
  | none => false

/-- Regions one after the other. There has to be one, and only the last may be without a width. -/
def Checker.fixed? (regions : List Region) : Except CheckerError Checker :=
  if regions.isEmpty then .error .emptyFixed
  else if regions.dropLast.any (·.width.isNone) then .error .unboundedRegionNotLast
  else .ok (.fixed regions)

/-! ## Building entries -/

namespace Entry

/-- The target exactly once, without a name. -/
def ofTarget (target : Target) : Entry := ⟨none, target, .one, none⟩

/-- A checker exactly once, without a name. -/
def ofChecker (checker : Checker) : Entry := ofTarget (.checker checker)

/-- A reference to a type by its name. -/
def ref (name : String) (param : Option String) : Entry := ofTarget (.ref ⟨name, param⟩)

/-- A type the entry holds itself. -/
def typed (type : ParserType) : Entry := ofTarget (.type type)

/-- Under a name, with all that lies below. -/
def named (entry : Entry) (name : String) : Entry := { entry with capture := some ⟨name, false⟩ }

/-- Named, and without what lies below. -/
def flatNamed (entry : Entry) (name : String) : Entry :=
  { entry with capture := some ⟨name, true⟩ }

/-- With other bounds in place of those it has. -/
def quantified (entry : Entry) (q : Quantifier) : Entry := { entry with quantifier := q }

/-- What the target matches has to be matched by `g` too, all of it. -/
def withSecondary (entry : Entry) (g : Grammar) : Entry := { entry with secondary := some g }

/-- The name its matches are kept under. -/
def name? (entry : Entry) : Option String := entry.capture.map Capture.name

/-- Its matches are kept without what lies below. -/
def isFlat (entry : Entry) : Bool := entry.capture.any Capture.flat

/-- Nothing around the target: no name, once, and no secondary grammar. -/
def isPlain (entry : Entry) : Bool :=
  entry.capture.isNone && entry.quantifier.isOne && entry.secondary.isNone

end Entry

/-- The grammar matches without taking anything. -/
def Grammar.isEmpty (g : Grammar) : Bool := g.entries.isEmpty

end TextGrammar
