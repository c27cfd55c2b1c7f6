/-
Repeat bounds of a grammar entry, and how a match inside them is chosen.
-/

namespace TextGrammar

/-- How the number of repeats of an entry is chosen. -/
inductive Greediness where
  /-- As many repeats as possible, and none is given back. -/
  | possessive
  /-- As many repeats as possible; fewer are tried when what follows fails. -/
  | maximum
  /-- As few repeats as possible; more are tried when what follows fails. -/
  | minimum
  deriving DecidableEq

/-- Repeat bounds. Without an upper bound the entry may repeat for ever. -/
structure Quantifier where
  lower : Nat
  upper : Option Nat
  greediness : Greediness := .possessive
  deriving DecidableEq

namespace Quantifier

/-- What an entry means that has no quantifier. -/
def one : Quantifier := ⟨1, some 1, .possessive⟩

/-- The entry is left out. -/
def zero : Quantifier := ⟨0, some 0, .possessive⟩

/-- The entry may be left out. -/
def zeroOrOne : Quantifier := ⟨0, some 1, .possessive⟩

/-- Any number of repeats, none included. -/
def zeroOrMore : Quantifier := ⟨0, none, .possessive⟩

/-- Any number of repeats but none. -/
def oneOrMore : Quantifier := ⟨1, none, .possessive⟩

/-- This number of repeats and no other. -/
def exactly (n : Nat) : Quantifier := ⟨n, some n, .possessive⟩

/-- The same bounds with another greediness. -/
def withGreediness (q : Quantifier) (g : Greediness) : Quantifier := { q with greediness := g }

/-- The bounds are those of an entry without a quantifier, whatever the greediness. -/
def isOne (q : Quantifier) : Bool := q.lower == 1 && q.upper == some 1

/-- The entry is left out, so nothing of it is looked at. -/
def isZero (q : Quantifier) : Bool := q.lower == 0 && q.upper == some 0

/-- Only one number of repeats is possible, so greediness does not matter. -/
def isFixed (q : Quantifier) : Bool := q.upper == some q.lower

/-- The upper bound is reached. -/
def isFull (q : Quantifier) (repeats : Nat) : Bool :=
  match q.upper with
  | some upper => upper ≤ repeats
  | none => false

/-- As far as its repeats go, an entry with these bounds has at most one outcome at an offset. -/
def isDeterministic (q : Quantifier) : Bool := q.isFixed || q.greediness == .possessive

/-- The bounds in pattern form. -/
def displayBounds (q : Quantifier) : String :=
  match q.lower, q.upper with
  | 0, some 0 => "^"
  | 0, some 1 => "?"
  | 0, none => "*"
  | 1, none => "+"
  | n, none => "\x7b" ++ toString n ++ ",\x7d"
  | 0, some m => "\x7b," ++ toString m ++ "\x7d"
  | n, some m =>
    if n == m then "\x7b" ++ toString n ++ "\x7d"
    else "\x7b" ++ toString n ++ "," ++ toString m ++ "\x7d"

/-- The sign after the bounds that chooses the greediness. -/
def displayGreediness : Greediness → String
  | .possessive => ""
  | .maximum => "+"
  | .minimum => "*"

/-- The quantifier in pattern form. Exactly once is what an entry means without a quantifier, and
has no written form, whatever its greediness. -/
def display (q : Quantifier) : String :=
  if q.isOne then "" else q.displayBounds ++ displayGreediness q.greediness

end Quantifier

end TextGrammar
