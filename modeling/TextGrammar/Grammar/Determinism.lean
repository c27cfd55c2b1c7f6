/-
Whether a checker has at most one outcome at an offset, as far as that can be
told without matching: `some true` when it has, `some false` when its quantifiers
leave a choice, `none` when it depends on types that are known only during a
match.
-/
import TextGrammar.Grammar.Basic

namespace TextGrammar

/-- The answer for two parts together: a choice in one of them is a choice, and otherwise an unknown
part leaves the whole unknown. The second part is looked at only when it matters. -/
def bothDeterministic (a : Option Bool) (b : Unit → Option Bool) : Option Bool :=
  match a with
  | some false => some false
  | some true => b ()
  | none => match b () with
    | some false => some false
    | _ => none

mutual

def Checker.isDeterministic : Checker → Option Bool
  | .char _ | .word _ | .any _ => some true
  | .oneOf choices fallback =>
    bothDeterministic (Checker.allDeterministic choices) fun _ =>
      Checker.optionDeterministic fallback
  | .not item => (Checker.isDeterministic item).map fun _ => true
  | .fixed regions => Region.allDeterministic regions
  | .grammar g => Grammar.isDeterministic g

def Checker.allDeterministic : List Checker → Option Bool
  | [] => some true
  | c :: cs => bothDeterministic (Checker.isDeterministic c) fun _ => Checker.allDeterministic cs

def Checker.optionDeterministic : Option Checker → Option Bool
  | none => some true
  | some c => Checker.isDeterministic c

def Region.isDeterministic : Region → Option Bool
  | ⟨_, _, g⟩ => Grammar.optionDeterministic g

def Region.allDeterministic : List Region → Option Bool
  | [] => some true
  | r :: rs => bothDeterministic (Region.isDeterministic r) fun _ => Region.allDeterministic rs

def Grammar.isDeterministic : Grammar → Option Bool
  | ⟨entries⟩ => Entry.allDeterministic entries

def Grammar.optionDeterministic : Option Grammar → Option Bool
  | none => some true
  | some g => Grammar.isDeterministic g

/-- An entry that is never matched leaves no choice. -/
def Entry.allDeterministic : List Entry → Option Bool
  | [] => some true
  | e :: es =>
    if e.quantifier.isZero then Entry.allDeterministic es
    else bothDeterministic (Entry.isDeterministic e) fun _ => Entry.allDeterministic es

def Entry.isDeterministic : Entry → Option Bool
  | ⟨_, target, q, secondary⟩ =>
    if q.isDeterministic then
      bothDeterministic (Target.isDeterministic target) fun _ =>
        Grammar.optionDeterministic secondary
    else some false

def Target.isDeterministic : Target → Option Bool
  | .checker c => Checker.isDeterministic c
  | .ref _ | .type _ => none

end

end TextGrammar
