/-
Simpler checkers and grammars that match the same: one-letter literals become
characters, repeated choices are dropped, a sole choice takes the place of its
alternative, and character sets are simplified.
-/
import TextGrammar.CharSet.Simplify
import TextGrammar.Grammar.Equality

namespace TextGrammar

/-- The choices with only the last of equal ones kept, since among equally long matches the last
choice wins. -/
def Checker.keepLast : List Checker → List Checker
  | [] => []
  | c :: cs => if cs.any (Checker.same c) then keepLast cs else c :: keepLast cs

/-- An alternative of simplified choices. -/
def Checker.chooseSimple (choices : List Checker) (fallback : Option Checker) : Checker :=
  match Checker.keepLast choices, fallback with
  | [c], none => c
  | [], some d => d
  | cs, none => Checker.alternative cs
  | cs, some d => Checker.alternativeOr cs d

mutual

def Checker.simplify : Checker → Checker
  | .char set => .char set.simplify
  | .word ⟨c, []⟩ => Checker.single c
  | .word word => .word word
  | .oneOf choices fallback =>
    Checker.chooseSimple (Checker.simplifyAll choices) (Checker.simplifyOption fallback)
  | .any width => .any width
  | .not (.not item) => Checker.simplify item
  | .not item => .not (Checker.simplify item)
  | .fixed regions => .fixed (Region.simplifyAll regions)
  | .grammar g => .grammar (Grammar.simplify g)

def Checker.simplifyAll : List Checker → List Checker
  | [] => []
  | c :: cs => Checker.simplify c :: Checker.simplifyAll cs

def Checker.simplifyOption : Option Checker → Option Checker
  | none => none
  | some c => some (Checker.simplify c)

def Region.simplify : Region → Region
  | ⟨name, width, g⟩ => ⟨name, width, Grammar.simplifyOption g⟩

def Region.simplifyAll : List Region → List Region
  | [] => []
  | r :: rs => Region.simplify r :: Region.simplifyAll rs

def Grammar.simplify : Grammar → Grammar
  | ⟨entries⟩ => ⟨Entry.simplifyAll entries⟩

def Grammar.simplifyOption : Option Grammar → Option Grammar
  | none => none
  | some g => some (Grammar.simplify g)

def Entry.simplifyAll : List Entry → List Entry
  | [] => []
  | e :: es => Entry.simplify e :: Entry.simplifyAll es

def Entry.simplify : Entry → Entry
  | ⟨capture, target, q, secondary⟩ =>
    ⟨capture, Target.simplify target, q, Grammar.simplifyOption secondary⟩

def Target.simplify : Target → Target
  | .checker c => .checker (Checker.simplify c)
  | .ref r => .ref r
  | .type t => .type t

end

end TextGrammar
