/-
The types every registry starts with: identifiers, string literals, text in any
case, references back to captured text, and error messages.
-/
import TextGrammar.Grammar.Basic
import TextGrammar.CharSet.Simplify
import TextGrammar.Unicode.CaseMapping

namespace TextGrammar.Builtin

/-! ## Shapes of types -/

/-- A type that always has the same checker, and whose values are texts. -/
def constant (name : String) (checker : Checker) : ParserType :=
  .computed name false (fun _ _ _ => .ok checker) (fun _ _ => true) ParserType.textValue

/-- The character itself, once. -/
def singleEntry (c : Char) : Entry := .ofChecker (.single c)

/-- What a type answers that cannot do without a parameter. -/
def missingParam (name : String) : GrammarError := .type name "a parameter is required"

/-! ## Identifiers -/

/-- A letter or an underscore, and word characters after it. -/
def identifierChecker : Checker :=
  .sequence [
    .ofChecker (.char (.unionOf [.named "alpha", .single '_'])),
    (Entry.ofChecker (.char (.named "word"))).quantified .zeroOrMore]

/-- Any identifier. -/
def identifier : ParserType := constant "identifier" identifierChecker

/-- An identifier that is the parameter but for case. Without a parameter none is. -/
def identifierCI : ParserType :=
  .computed "identifierCI" false (fun _ _ _ => .ok identifierChecker)
    (fun _ ref => match ref.node.param with
      | some param => Unicode.lowercase param == Unicode.lowercase ref.string
      | none => false)
    ParserType.textValue

/-! ## String literals -/

/-- Any character after a backslash, or one that is neither a quote nor a backslash, between
quotes. -/
def stringLiteralChecker : Checker :=
  let escaped := Checker.sequence [singleEntry '\\', .ofChecker (.anyOf 1)]
  let plain := Checker.char (.complement (.ofString "\"\\"))
  .sequence [
    singleEntry '"',
    (Entry.ofChecker (.alternative [escaped, plain])).quantified .zeroOrMore,
    singleEntry '"']

/-- The character a backslash and a letter stand for; any other stands for itself. -/
def unescaped : Char → Char
  | 'n' => '\n'
  | 't' => '\t'
  | 'r' => '\r'
  | '0' => '\x00'
  | c => c

/-- The text inside a string literal with its escapes resolved. A backslash at the end stands for
itself. -/
def unescape : List Char → List Char
  | [] => []
  | ['\\'] => ['\\']
  | '\\' :: c :: cs => unescaped c :: unescape cs
  | c :: cs => c :: unescape cs

/-- What a literal holds between its first and its last character. -/
def literalContents (chars : List Char) : List Char := unescape chars.tail.dropLast

/-- A string in double quotes; its value is what the quotes hold. -/
def stringLiteral : ParserType :=
  .computed "stringLiteral" false (fun _ _ _ => .ok stringLiteralChecker) (fun _ _ => true)
    fun ref report => (.ok (.text (String.ofList (literalContents ref.chars.toList))), report)

/-! ## Text in any case -/

/-- A character and its forms in the other case, as far as these are single characters. -/
def anyCase (c : Char) : CharSet :=
  let alone : List Char → List Char
    | [x] => [x]
    | _ => []
  CharSet.ofMembers (c :: (alone (Unicode.lowerOf c) ++ alone (Unicode.upperOf c)))

/-- The text with each of its characters in either case. -/
def caseInsensitive (text : List Char) : Checker :=
  match text with
  | [] => .anyOf 0
  | [c] => .char (anyCase c)
  | cs => .sequence (cs.map fun c => .ofChecker (.char (anyCase c)))

/-- The parameter in any case. -/
def textCI : ParserType :=
  .computed "textCI" false
    (fun _ _ param => match param with
      | some text => .ok (caseInsensitive text.toList)
      | none => .error (missingParam "textCI"))
    (fun _ _ => true) ParserType.textValue

/-! ## References back -/

/-- The text captured last under the name that is the parameter. Without such a capture nothing
matches; a capture of nothing matches nothing more. -/
def backrefWith (name : String) (literal : List Char → Checker) : ParserType :=
  .computed name true
    (fun _ host param => match param with
      | none => .error (missingParam name)
      | some capture => match host.lastNamed? capture with
        | none => .ok .never
        | some found => .ok (literal found.chars.toList))
    (fun _ _ => true) ParserType.textValue

/-- The captured text exactly. -/
def backref : ParserType := backrefWith "backref" .literal

/-- The captured text in any case. -/
def backrefCI : ParserType := backrefWith "backrefCI" caseInsensitive

/-! ## Error messages -/

/-- The message of an error type: its parameter, if it has one. -/
def errorDetail (ref : NodeRef) : String := ref.node.param.getD "Syntax error"

/-- Takes all that is left; its value is a report of the parameter. -/
def error : ParserType :=
  .computed "error" false (fun _ _ _ => .ok .rest) (fun _ _ => true)
    fun ref report =>
      (.ok .unit, report.add (.malformedAt (errorDetail ref) ref.text ref.node.start))

/-- Takes all that is left; it has no value, and the parameter is the reason. -/
def fatalError : ParserType :=
  .computed "fatalError" false (fun _ _ _ => .ok .rest) (fun _ _ => true)
    fun ref report => (.error (.fatalAt (errorDetail ref) ref.text ref.node.start), report)

/-- All of them, in the order in which they are registered. -/
def all : List ParserType :=
  [identifier, stringLiteral, textCI, identifierCI, backref, backrefCI, error, fatalError]

end TextGrammar.Builtin
