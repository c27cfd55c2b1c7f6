/-
Types put together by a host program: where their checker comes from, which
matches they let stand, and how they read the text of a node.
-/
import TextGrammar.Pattern.Compile

namespace TextGrammar

/-! ## Sources of checkers -/

/-- Where a type takes its checker from. -/
inductive CheckerSource where
  | fixed (checker : Checker)
  /-- The parameter as a literal. -/
  | paramWord
  /-- The parameter as a pattern. -/
  | paramPattern
  /-- As many characters as stand before the offset. -/
  | offsetWidth
  /-- The first character of the text. -/
  | firstChar

/-- The checker a source gives. A missing parameter is an empty one. -/
def CheckerSource.supply (typeName : String) (vocabulary : Vocabulary) (host : Host)
    (param : Option String) : CheckerSource → Except GrammarError Checker
  | .fixed checker => .ok checker
  | .paramWord =>
    (Checker.word? (param.getD "")).mapError fun error => .type typeName error.message
  | .paramPattern => (Grammar.compile vocabulary (param.getD "")).map .grammar
  | .offsetWidth => .ok (.anyOf host.offset)
  | .firstChar =>
    match host.text[0]? with
    | some c => .ok (.single c)
    | none => .ok .never

/-! ## Rules about matches -/

/-- What a match must satisfy. -/
inductive Rule where
  | evenLastDigit
  | atLeast (length : Nat)
  | atMost (length : Nat)
  | textIsNot (text : String)
  /-- The text is the parameter, and there is one. -/
  | textIsParam
  /-- Something was captured under the name. -/
  | captured (name : String)
  /-- The text differs from what was captured last under the name, if anything was. -/
  | differsFromCapture (name : String)
  | childCount (count : Nat)
  | atOffset (offset : Nat)
  | never

/-- Whether a match follows the rule. -/
def Rule.accepts (host : Host) (ref : NodeRef) : Rule → Bool
  | .evenLastDigit =>
    match ref.chars.back? with
    | some c => "02468".toList.contains c
    | none => false
  | .atLeast length => length ≤ ref.node.length
  | .atMost length => ref.node.length ≤ length
  | .textIsNot text => ref.string != text
  | .textIsParam => ref.node.param == some ref.string
  | .captured name => (host.lastNamed? name).isSome
  | .differsFromCapture name =>
    match host.lastNamed? name with
    | some found => found.string != ref.string
    | none => true
  | .childCount count => ref.node.children.length == count
  | .atOffset offset => host.offset == offset
  | .never => false

/-! ## Readings of nodes -/

/-- Why a text is no integer of 64 bits. -/
inductive IntegerError where
  | empty
  | invalidDigit
  | tooLarge
  | tooSmall

def IntegerError.message : IntegerError → String
  | .empty => "cannot parse integer from empty string"
  | .invalidDigit => "invalid digit found in string"
  | .tooLarge => "number too large to fit in target type"
  | .tooSmall => "number too small to fit in target type"

/-- The number of decimal digits after those of `high`, up to `limit`. The first digit that is none,
or that leads beyond the limit, decides. -/
def readMagnitude (limit : Nat) (beyond : IntegerError) (high : Nat) :
    List Char → Except IntegerError Nat
  | [] => .ok high
  | c :: cs =>
    if c.isDigit then
      let n := high * 10 + (c.toNat - '0'.toNat)
      if n ≤ limit then readMagnitude limit beyond n cs else .error beyond
    else .error .invalidDigit

/-- An integer of 64 bits in decimal digits, with or without a sign. -/
def readInteger (chars : List Char) : Except IntegerError Int :=
  match chars with
  | [] => .error .empty
  | ['+'] | ['-'] => .error .invalidDigit
  | '-' :: digits => (readMagnitude (Nat.pow 2 63) .tooSmall 0 digits).map fun n => -(n : Int)
  | '+' :: digits => (readMagnitude (Nat.pow 2 63 - 1) .tooLarge 0 digits).map Int.ofNat
  | digits => (readMagnitude (Nat.pow 2 63 - 1) .tooLarge 0 digits).map Int.ofNat

/-- How a node is turned into a value. -/
inductive Reading where
  | text
  | integer
  /-- Whether the text is `true`. -/
  | boolean
  | unit
  | length
  | index
  | childTexts
  | custom (reference : Nat) (byte : UInt8)
  /-- Reports the parameter and goes on. -/
  | report
  /-- Ends with the parameter as the reason. -/
  | fatal

def Reading.value (typeName : String) (ref : NodeRef) (report : Report) :
    Reading → Except GrammarError Value × Report
  | .text => ParserType.textValue ref report
  | .integer =>
    match readInteger ref.chars.toList with
    | .ok n => (.ok (.int n), report)
    | .error error => (.error (.type typeName error.message), report)
  | .boolean => (.ok (.bool (ref.string == "true")), report)
  | .unit => (.ok .unit, report)
  | .length => (.ok (.int ref.node.length), report)
  | .index => (.ok (.int ref.index), report)
  | .childTexts => (.ok (.list (ref.children.map fun child => .text child.string)), report)
  | .custom reference byte => (.ok (.custom reference byte), report)
  | .report =>
    let detail := ref.node.param.getD "reported"
    (.ok .unit, report.add (.malformedAt detail ref.text ref.node.start))
  | .fatal =>
    let detail := ref.node.param.getD "stop"
    (.error (.fatalAt detail ref.text ref.node.start), report)

/-- A type put together from its parts. Without a rule every match stands. -/
def ParserType.assemble (name : String) (hostDependent : Bool) (source : CheckerSource)
    (rule : Option Rule) (reading : Reading) : ParserType :=
  .computed name hostDependent
    (fun vocabulary host param => source.supply name vocabulary host param)
    (fun host ref => match rule with
      | some rule => rule.accepts host ref
      | none => true)
    fun ref report => reading.value name ref report

end TextGrammar
