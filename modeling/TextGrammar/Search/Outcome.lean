/-
What a search for a match can end with, and what it keeps of the failures on the
way: as a rule, the one that got furthest into the text.
-/
import TextGrammar.Grammar.Determinism
import TextGrammar.Grammar.Display

namespace TextGrammar

/-- How much of the text a match has to take. -/
inductive Mode where
  /-- Characters may be left over at the end. -/
  | beginning
  | whole
  deriving DecidableEq

/-! ## Failures -/

/-- What a search was looking for where it failed. -/
inductive Expectation where
  | target (t : Target)
  /-- An entry whose match was rejected once it was complete. -/
  | entry (e : Entry)
  /-- A grammar of which nothing more is known. -/
  | grammar (g : Grammar)
  | endOfInput

def Expectation.display : Expectation → String
  | .target t => t.display
  | .entry e => e.display
  | .grammar g => g.display
  | .endOfInput => "end of input"

/-- A failed attempt. -/
structure Failure where
  offset : Nat
  expected : Expectation
  /-- Repeats of the entry found before. -/
  repeats : Nat

def Failure.unmatched (failure : Failure) : Unmatched :=
  ⟨failure.offset, failure.expected.display, failure.repeats⟩

/-- Of two the one that reaches further into the text; of two that reach equally far the first. -/
def further {α : Type} (reach : α → Nat) : Option α → Option α → Option α
  | some a, some b => if reach a < reach b then some b else some a
  | some a, none => some a
  | none, b => b

section

variable {α β : Type} {reach : α → Nat}

@[simp] theorem further_none (a : Option α) : further reach a none = a := by
  cases a <;> rfl

/-- Of three the first one that reaches furthest is kept, either way. -/
theorem further_assoc (a b c : Option α) :
    further reach (further reach a b) c = further reach a (further reach b c) := by
  rcases a with _ | a <;> rcases b with _ | b <;> rcases c with _ | c <;> try rfl
  · rw [further_none, further_none]
  · by_cases hab : reach a < reach b <;> by_cases hbc : reach b < reach c
    · simp [further, hab, hbc, Nat.lt_trans hab hbc]
    · simp [further, hab, hbc]
    · simp [further, hab, hbc]
    · simp [further, hab, hbc, show ¬ reach a < reach c by omega]

theorem eq_or_eq_of_further {a b : Option α} {kept : α} (h : further reach a b = some kept) :
    a = some kept ∨ b = some kept := by
  cases a <;> cases b <;> simp only [further] at h
  · cases h
  · exact .inr h
  · exact .inl h
  · split at h
    · exact .inr h
    · exact .inl h

/-- A map that keeps the order keeps which of two reaches further. -/
theorem further_map {f : α → β} {reach' : β → Nat}
    (hf : ∀ a b, reach' (f a) < reach' (f b) ↔ reach a < reach b) (a b : Option α) :
    further reach' (a.map f) (b.map f) = (further reach a b).map f := by
  rcases a with _ | a <;> rcases b with _ | b <;> try rfl
  simp only [Option.map_some, further, hf]
  split <;> rfl

end

/-- The failure further into the text; of two at the same offset the first. -/
def furthest : Option Failure → Option Failure → Option Failure := further Failure.offset

@[simp] theorem furthest_none (a : Option Failure) : furthest a none = a := further_none a

theorem furthest_assoc (a b c : Option Failure) :
    furthest (furthest a b) c = furthest a (furthest b c) := further_assoc a b c

/-- What is kept of the failures a search meets. -/
class FailureLog (L : Type) where
  empty : L
  of : Failure → L
  /-- Failures met before, and failures met after them. -/
  merge : L → L → L

/-- The failure that got furthest is kept. -/
instance : FailureLog (Option Failure) := ⟨none, some, furthest⟩

/-- A value together with the failures met while it was found. -/
structure Seen (L α : Type) where
  value : α
  failures : L

/-- A value found without any failure. -/
def Seen.of {L α : Type} [FailureLog L] (value : α) : Seen L α := ⟨value, FailureLog.empty⟩

/-! ## Ends of a search -/

/-- Reasons to end a search that say nothing about the text. -/
inductive Fault where
  /-- The pattern type of this cell has to be compiled first. -/
  | uncompiled (cell : Nat) (pattern : String)
  /-- A part of the text was asked for that lies past its end. -/
  | outOfRange
  /-- The steps allowed for the search are used up. -/
  | outOfFuel

/-- Why a search ends before it has an answer. -/
inductive Stop where
  | refused (error : ParseError)
  | fault (f : Fault)

/-- A match of a grammar: the offset where it ends and its nodes. -/
structure Match where
  stop : Nat
  nodes : List Node

/-- A match of a checker. -/
structure Found where
  stop : Nat
  nodes : List Node
  /-- The nodes come from a grammar, and may stand in the place of an unnamed node. -/
  built : Bool

/-! ## Surroundings of a search -/

/-- What a search knows about types and classes. -/
structure TypeEnv where
  find? : String → Option ParserType
  classes : CharClasses
  /-- The pattern types compiled so far, with what came of it. -/
  compiled? : Nat → Option (Except GrammarError Checker)

/-- What patterns compiled against these types can refer to. -/
def TypeEnv.vocabulary (types : TypeEnv) : Vocabulary :=
  ⟨fun name => (types.find? name).isSome, types.classes⟩

/-- Asks a type for its checker. -/
def TypeEnv.supply (types : TypeEnv) (host : Host) (param : Option String) :
    ParserType → Except Fault (Except GrammarError Checker)
  | .computed _ _ supply _ _ => .ok (supply types.vocabulary host param)
  | .pattern _ text cell =>
    match types.compiled? cell with
    | some result => .ok result
    | none => .error (.uncompiled cell text)

/-- Choices of the search that are about its cost. -/
structure Strategy where
  /-- A nested grammar is walked by the search itself, which can then come back into it; any other
  one is matched by a search of its own. -/
  opens : Grammar → Bool
  /-- The checker of a type is asked for once in a search, and not at every attempt. -/
  keepsCheckers : Bool

/-- Only what may have several outcomes is walked, and checkers are kept. -/
def Strategy.standard : Strategy := ⟨fun g => g.isDeterministic != some true, true⟩

/-- What stays the same during a search. -/
structure Setting where
  types : TypeEnv
  strategy : Strategy
  text : Text
  /-- Nodes completed around this search, the innermost level first. -/
  outer : List Trail

/-- The same without anything around it. -/
def Setting.alone (setting : Setting) : Setting := { setting with outer := [] }

/-- A way to match a grammar from an offset of the text. -/
abbrev Runner (L : Type) := Setting → Mode → Grammar → Nat → Except Stop (Seen L (Option Match))

end TextGrammar
