/-
Searches from the outside: matching the beginning or the whole of a text,
looking for the first place that matches, and the length of a checker's match.
-/
import TextGrammar.Search.Machine
import TextGrammar.Tree.MatchTree

namespace TextGrammar

/-- Steps allowed to a search; more than any machine takes. -/
def searchFuel : Nat := Nat.pow 2 62

/-- A search with these types and nothing around it. -/
def TypeEnv.setting (types : TypeEnv) (text : Text) : Setting := ⟨types, .standard, text, []⟩

/-- Searches of at most so many steps that keep the failure that got furthest. -/
def searchWithin (fuel : Nat) : Runner (Option Failure) := runWithin fuel

namespace Grammar

/-- The first match from an offset, or the failure that got furthest. -/
def matchFrom (fuel : Nat) (types : TypeEnv) (text : Text) (mode : Mode) (start : Nat)
    (g : Grammar) : Except Stop MatchTree :=
  match searchWithin fuel (types.setting text) mode g start with
  | .error stop => .error stop
  | .ok ⟨some m, _⟩ => .ok (.ofNodes text start m.stop m.nodes)
  | .ok ⟨none, furthest⟩ =>
    let failure := furthest.getD ⟨start, .grammar g, 0⟩
    .error (.refused (.unmatched failure.unmatched))

/-- Matches a beginning of the text. -/
def parse (fuel : Nat) (types : TypeEnv) (text : Text) (g : Grammar) : Except Stop MatchTree :=
  g.matchFrom fuel types text .beginning 0

/-- Matches the whole text. -/
def matchWhole (fuel : Nat) (types : TypeEnv) (text : Text) (g : Grammar) :
    Except Stop MatchTree :=
  g.matchFrom fuel types text .whole 0

/-- The failure further into the text; of two at the same offset the first. -/
def furthestUnmatched : Option Unmatched → Unmatched → Unmatched
  | some a, b => if a.offset < b.offset then b else a
  | none, b => b

/-- Tries `count` starts from `start` on. -/
def findFrom (fuel : Nat) (types : TypeEnv) (text : Text) (g : Grammar) :
    (count start : Nat) → Option Unmatched → Except Stop MatchTree
  | 0, _, furthest =>
    .error (.refused (.unmatched (furthest.getD ⟨0, g.display, 0⟩)))
  | count + 1, start, furthest =>
    match g.matchFrom fuel types text .beginning start with
    | .error (.refused (.unmatched u)) =>
      findFrom fuel types text g count (start + 1) (some (furthestUnmatched furthest u))
    | result => result

/-- The match at the first start that has one, the end of the text included. -/
def find (fuel : Nat) (types : TypeEnv) (text : Text) (g : Grammar) : Except Stop MatchTree :=
  findFrom fuel types text g (text.size + 1) 0 none

end Grammar

/-- The length of what a checker matches exactly at the offset. -/
def Checker.matchAt (fuel : Nat) (types : TypeEnv) (text : Text) (offset : Nat)
    (checker : Checker) : Except Fault (Option Nat) :=
  checker.lengthAt (searchWithin fuel) (types.setting text) offset

end TextGrammar
