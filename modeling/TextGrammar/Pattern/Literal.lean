/-
The small parts of a pattern that stand for characters and numbers: escapes,
quoted literals and repeat bounds.
-/
import TextGrammar.CharSet.Basic
import TextGrammar.Grammar.Basic

namespace TextGrammar.Pattern

/-- An error about a node of a pattern. -/
def malformed (detail : String) (ref : NodeRef) : GrammarError :=
  .malformedAt detail ref.text ref.node.start

/-! ## Numbers -/

/-- The value of a digit in a base of at most sixteen. -/
def digit? (base : Nat) (c : Char) : Option Nat :=
  let value :=
    if '0' ≤ c && c ≤ '9' then c.toNat - '0'.toNat
    else if 'a' ≤ c && c ≤ 'f' then c.toNat - 'a'.toNat + 10
    else if 'A' ≤ c && c ≤ 'F' then c.toNat - 'A'.toNat + 10
    else base
  if value < base then some value else none

/-- The number that digits after those of `high` stand for. -/
def digitsAfter? (base high : Nat) : List Char → Option Nat
  | [] => some high
  | c :: cs => do digitsAfter? base (high * base + (← digit? base c)) cs

/-- The number written by some digits, at least one. -/
def number? (base : Nat) : List Char → Option Nat
  | [] => none
  | cs => digitsAfter? base 0 cs

/-- A count in decimal digits, up to `maxCount`. -/
def count? (cs : List Char) : Option Nat :=
  match number? 10 cs with
  | some n => if n ≤ maxCount then some n else none
  | none => none

/-- The character of a code point. Surrogates are none. -/
def charOf? (code : Nat) : Option Char :=
  if code.isValidChar then some (Char.ofNat code) else none

/-! ## Repeat bounds -/

/-- What stands between braces: a number of repeats, or a lower and an upper bound of which one may
be left out. -/
def bounds? (inner : List Char) : Option Quantifier :=
  let lower := inner.takeWhile (· != ',')
  match inner.dropWhile (· != ',') with
  | [] => (count? lower).map .exactly
  | _ :: upper =>
    match lower, upper with
    | [], [] => none
    | _, [] => (count? lower).map fun n => ⟨n, none, .possessive⟩
    | [], _ => (count? upper).map fun m => ⟨0, some m, .possessive⟩
    | _, _ =>
      match count? lower, count? upper with
      | some n, some m => if n ≤ m then some ⟨n, some m, .possessive⟩ else none
      | _, _ => none

/-- The bounds a quantifier gives without its sign of greediness. -/
def bareQuantifier? (chars : List Char) : Option Quantifier :=
  match chars with
  | ['?'] => some .zeroOrOne
  | ['*'] => some .zeroOrMore
  | ['+'] => some .oneOrMore
  | ['^'] => some .zero
  | '\x7b' :: inner => if inner.getLast? == some '\x7d' then bounds? inner.dropLast else none
  | _ => none

/-- A quantifier. What is never matched cannot be greedy. -/
def readQuantifier (ref : NodeRef) : Except GrammarError Quantifier :=
  let chars := ref.chars.toList
  let greed := ref.child? "greed"
  let width := match greed with
    | some g => g.node.length
    | none => 0
  match bareQuantifier? (chars.take (chars.length - width)) with
  | none => .error (malformed "Malformed quantifier" ref)
  | some q =>
    match greed with
    | none => .ok q
    | some g =>
      if q.isZero then
        .error (malformed "Zero quantifier cannot take a greediness marker" g)
      else .ok (q.withGreediness (if g.string == "+" then .maximum else .minimum))

/-! ## Escapes -/

/-- What an escape stands for. -/
inductive Escaped where
  | char (c : Char)
  | set (set : CharSet)

/-- Letters that stand for a control character. -/
def controlEscape? : Char → Option Char
  | 't' => some '\t'
  | 'n' => some '\n'
  | 'r' => some '\r'
  | 'f' => some '\x0c'
  | 'e' => some '\x1b'
  | 'a' => some '\x07'
  | '0' => some '\x00'
  | _ => none

/-- Letters that stand for a class or for all but a class. -/
def classEscape? : Char → Option CharSet
  | 'd' => some (.named "digit")
  | 'D' => some (.complement (.named "digit"))
  | 'w' => some (.named "word")
  | 'W' => some (.complement (.named "word"))
  | 's' => some (.named "whitespace")
  | 'S' => some (.complement (.named "whitespace"))
  | _ => none

/-- One character after a backslash. Letters and digits without a meaning are not for use. -/
def escapedChar? (c : Char) : Option Escaped :=
  match classEscape? c with
  | some set => some (.set set)
  | none =>
    match controlEscape? c with
    | some control => some (.char control)
    | none => if Unicode.isAlphanumeric c then none else some (.char c)

/-- A class named in braces. -/
def namedClass (vocabulary : Vocabulary) (ref : NodeRef) (negated : Bool) (name : String) :
    Except GrammarError Escaped :=
  if vocabulary.classes.has name then
    .ok (.set (if negated then .complement (.named name) else .named name))
  else .error (malformed ("Unknown character class '" ++ name ++ "'") ref)

/-- The character of a code in digits. -/
def codedChar? (base : Nat) (digits : List Char) : Option Escaped :=
  ((number? base digits).bind charOf?).map .char

/-- An escape, by what follows its backslash. -/
def readEscape (vocabulary : Vocabulary) (ref : NodeRef) : Except GrammarError Escaped :=
  let orInvalid : Option Escaped → Except GrammarError Escaped
    | some escaped => .ok escaped
    | none => .error (malformed "Invalid escape" ref)
  match ref.chars.toList.tail with
  | [] => orInvalid none
  | [c] => orInvalid (escapedChar? c)
  | c :: form =>
    if c == 'x' || c == 'u' then orInvalid (if form.length < 2 then none else codedChar? 16 form)
    else if c == '0' then orInvalid (codedChar? 8 form)
    else if (c == 'p' || c == 'P') && form.head? == some '\x7b' then
      namedClass vocabulary ref (c == 'P') (String.ofList form.tail.dropLast)
    else orInvalid none

/-! ## Quoted literals -/

/-- The characters from `pos` on, `count` at most, with escapes, given in the order of the text,
resolved. -/
def unquoteFrom (vocabulary : Vocabulary) (ref : NodeRef) :
    (count pos : Nat) → (escapes : List NodeRef) → Except GrammarError (List Char)
  | 0, _, _ => .ok []
  | count + 1, pos, escapes =>
    if ref.node.stop - 1 ≤ pos then .ok []
    else
      let plain : Except GrammarError (List Char) := do
        pure (ref.text.getD pos '\x00' :: (← unquoteFrom vocabulary ref count (pos + 1) escapes))
      match escapes with
      | [] => plain
      | escape :: others =>
        if escape.node.start == pos then do
          match ← readEscape vocabulary escape with
          | .char c =>
            pure (c :: (← unquoteFrom vocabulary ref count escape.node.stop others))
          | .set _ => throw (.malformedAt "Character class inside a literal" ref.text pos)
        else plain

/-- The quote of a literal and the characters between its quotes. -/
def readQuoted (vocabulary : Vocabulary) (ref : NodeRef) :
    Except GrammarError (Char × List Char) :=
  match ref.chars.toList with
  | [] => .error (malformed "Unterminated literal" ref)
  | quote :: _ => do
    let escapes := ref.descendants.filter (·.node.typeName == some "escape")
    pure (quote, ← unquoteFrom vocabulary ref ref.node.length (ref.node.start + 1) escapes)

end TextGrammar.Pattern
