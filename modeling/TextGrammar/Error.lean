/-
What can go wrong: while a pattern is read or a type asked for its checker or
its value (`GrammarError`), while a text is matched (`ParseError`), and while a
checker is built by hand (`CheckerError`). Each error is its cause; `message`
gives the wording.
-/
import TextGrammar.Text
import TextGrammar.Text.Quoted

namespace TextGrammar

/-- An error in a pattern, in a type, or in the values of a tree. -/
inductive GrammarError where
  /-- The pattern is not well formed; `slice` is the text from `offset` on. -/
  | malformed (detail : String) (offset : Nat) (slice : String)
  /-- The same, where reading has to end at once. -/
  | fatal (detail : String) (offset : Nat) (slice : String)
  /-- No type of this name is registered. -/
  | unknownType (name : String) (offset : Nat)
  /-- A type of this name is registered already. -/
  | duplicateType (name : String)
  /-- A type could not give its checker or its value. -/
  | type (name : String) (detail : String)
  /-- All errors of one run, in the order in which they were reported. -/
  | many (errors : List GrammarError)

namespace GrammarError

/-- An error at an offset of a text, which it quotes from there on. -/
def malformedAt (detail : String) (text : Text) (offset : Nat) : GrammarError :=
  .malformed detail offset (text.stringFrom offset)

/-- The same, ending the run. -/
def fatalAt (detail : String) (text : Text) (offset : Nat) : GrammarError :=
  .fatal detail offset (text.stringFrom offset)

mutual

/-- The offset the error points at: for several errors, that of the first one. -/
def offset? : GrammarError → Option Nat
  | .malformed _ offset _ | .fatal _ offset _ | .unknownType _ offset => some offset
  | .many errors => firstOffset? errors
  | .duplicateType _ | .type _ _ => none

/-- Where the first of several errors points, whether or not a later one has an offset. -/
def firstOffset? : List GrammarError → Option Nat
  | [] => none
  | error :: _ => offset? error

end

/-- Nothing is read after this error, while others are collected. -/
def isFatal : GrammarError → Bool
  | .fatal _ _ _ => true
  | _ => false

mutual

/-- The error in words. Several errors take a line each. -/
def message : GrammarError → String
  | .malformed detail offset slice =>
    "Malformed grammar: " ++ detail ++ " at " ++ toString offset ++ ": " ++ quoted slice
  | .fatal detail offset slice =>
    "Fatal grammar error: " ++ detail ++ " at " ++ toString offset ++ ": " ++ quoted slice
  | .unknownType name offset =>
    "Unknown parser type '" ++ name ++ "' referenced at " ++ toString offset
  | .duplicateType name => "Parser type '" ++ name ++ "' is already registered"
  | .type name detail => "Parser type '" ++ name ++ "': " ++ detail
  | .many errors => lines errors

/-- A line for each error, without an end of line after the last one. -/
def lines : List GrammarError → String
  | [] => ""
  | [error] => message error
  | error :: errors => message error ++ "\n" ++ lines errors

end

end GrammarError

/-- The failure that got furthest into the text. -/
structure Unmatched where
  offset : Nat
  /-- What was expected there, in pattern form. -/
  expected : String
  /-- How many repeats of it were found before. -/
  repeats : Nat
  deriving DecidableEq

/-- What was expected and not found, and where. -/
def Unmatched.message (u : Unmatched) : String :=
  "expected " ++ u.expected ++ ", found " ++ toString u.repeats ++ " repeats at offset "
    ++ toString u.offset

/-- The result of matching a text without success: the text does not fit, or a type is amiss. -/
inductive ParseError where
  | unmatched (furthest : Unmatched)
  | unknownType (name : String) (offset : Nat)
  | type (name : String) (detail : String)
  deriving DecidableEq

namespace ParseError

/-- An error of a type as the result of a match. What is neither an unknown name nor an error of a
type keeps its wording and has no type's name. -/
def ofGrammarError : GrammarError → ParseError
  | .unknownType name offset => .unknownType name offset
  | .type name detail => .type name detail
  | error => .type "" error.message

/-- The error in words. -/
def message : ParseError → String
  | .unmatched furthest => "Unmatched: " ++ furthest.message
  | .unknownType name offset => "Unknown parser type '" ++ name ++ "' at offset " ++ toString offset
  | .type name detail => "Parser type '" ++ name ++ "': " ++ detail

end ParseError

/-- Why a checker cannot be built from its parts. -/
inductive CheckerError where
  | emptyWord
  | emptyFixed
  | unboundedRegionNotLast
  deriving DecidableEq

/-- The error in words. -/
def CheckerError.message : CheckerError → String
  | .emptyWord => "A word checker needs at least one character"
  | .emptyFixed => "A fixed checker needs at least one region"
  | .unboundedRegionNotLast => "Only the last region of a fixed checker may be unbounded"

/-- Errors that did not end the run, in the order in which they were reported. -/
structure Report where
  errors : List GrammarError := []

namespace Report

/-- One more error, after those before. -/
def add (report : Report) (error : GrammarError) : Report := ⟨report.errors ++ [error]⟩

/-- Some error has been reported. -/
def hasErrors (report : Report) : Bool := !report.errors.isEmpty

/-- No error, the only one, or all of them. -/
def finish (report : Report) : Except GrammarError Unit :=
  match report.errors with
  | [] => .ok ()
  | [error] => .error error
  | errors => .error (.many errors)

end Report

end TextGrammar
