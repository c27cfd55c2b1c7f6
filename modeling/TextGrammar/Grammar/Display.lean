/-
Checkers, entries and grammars in pattern form.
-/
import TextGrammar.CharSet.Display
import TextGrammar.Grammar.Basic

namespace TextGrammar

/-- A character inside a quoted literal. -/
def Word.displayChar (c : Char) : String :=
  if c == '"' || c == '\\' then "\\" ++ c.toString
  else if c == '\n' then "\\n"
  else if c == '\t' then "\\t"
  else if c == '\r' then "\\r"
  else c.toString

/-- A literal between double quotes. -/
def Word.display (word : Word) : String :=
  "\"" ++ String.join (word.chars.map Word.displayChar) ++ "\""

def TypeRef.display (r : TypeRef) : String :=
  match r.param with
  | some param => "!" ++ r.name ++ "(" ++ param ++ ")!"
  | none => "!" ++ r.name ++ "!"

/-- The name of a captured match, as it opens a group. -/
def Capture.display (capture : Capture) : String :=
  (if capture.flat then "$" else "#") ++ capture.name ++ ": "

/-- Any characters: one, a number of them, or all that are left. -/
def Checker.displayAny : Option Nat → String
  | some 1 => "."
  | some n => ".\x7b" ++ toString n ++ "\x7d"
  | none => ".*"

/-- A region by its name and width. -/
def Region.display (region : Region) : String :=
  region.name ++ ":" ++ match region.width with
    | some width => toString width
    | none => "*"

mutual

def Checker.display : Checker → String
  | .char set => set.display
  | .word word => word.display
  | .oneOf choices fallback =>
    "(" ++ Checker.displayChoices choices ++ Checker.displayFallback fallback ++ ")"
  | .any width => Checker.displayAny width
  | .not item => "(^" ++ Checker.display item ++ ")"
  | .fixed regions => "<" ++ " ".intercalate (regions.map Region.display) ++ ">"
  | .grammar g => "(" ++ Grammar.display g ++ ")"

def Checker.displayChoices : List Checker → String
  | [] => ""
  | [c] => Checker.display c
  | c :: cs => Checker.display c ++ "|" ++ Checker.displayChoices cs

def Checker.displayFallback : Option Checker → String
  | none => ""
  | some c => "||" ++ Checker.display c

def Grammar.display : Grammar → String
  | ⟨entries⟩ => Entry.displayAll entries

/-- Entries with a space between them. -/
def Entry.displayAll : List Entry → String
  | [] => ""
  | [e] => Entry.display e
  | e :: es => Entry.display e ++ " " ++ Entry.displayAll es

/-- An entry with a name or a secondary grammar stands in a group, which takes the place of the
brackets of a grammar. -/
def Entry.display : Entry → String
  | ⟨none, target, q, none⟩ => Target.display target ++ q.display
  | ⟨capture, target, q, secondary⟩ =>
    let opening := match capture with
      | some capture => capture.display
      | none => ""
    "(" ++ opening ++ Target.displayInGroup target ++ Grammar.displaySecondary secondary ++ ")"
      ++ q.display

def Grammar.displaySecondary : Option Grammar → String
  | none => ""
  | some g => " ~ " ++ Grammar.display g

def Target.display : Target → String
  | .checker c => Checker.display c
  | .ref r => r.display
  | .type t => "!" ++ t.name ++ "!"

/-- A target inside a group: a grammar goes without brackets of its own. -/
def Target.displayInGroup : Target → String
  | .checker (.grammar g) => Grammar.display g
  | .checker c => Checker.display c
  | .ref r => r.display
  | .type t => "!" ++ t.name ++ "!"

end

end TextGrammar
