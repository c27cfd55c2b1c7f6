/-
Equality of grammars as expressions. Types held by a grammar are the same when
they have the same name.
-/
import TextGrammar.Grammar.Basic

namespace TextGrammar

mutual

def Checker.same : Checker → Checker → Bool
  | .char a, .char b => a == b
  | .word a, .word b => a == b
  | .oneOf cs d, .oneOf cs' d' => Checker.sameAll cs cs' && Checker.sameOption d d'
  | .any a, .any b => a == b
  | .not a, .not b => Checker.same a b
  | .fixed a, .fixed b => Region.sameAll a b
  | .grammar a, .grammar b => Grammar.same a b
  | _, _ => false
termination_by structural x => x

def Checker.sameAll : List Checker → List Checker → Bool
  | [], [] => true
  | a :: as, b :: bs => Checker.same a b && Checker.sameAll as bs
  | _, _ => false
termination_by structural x => x

def Checker.sameOption : Option Checker → Option Checker → Bool
  | none, none => true
  | some a, some b => Checker.same a b
  | _, _ => false
termination_by structural x => x

def Region.same : Region → Region → Bool
  | ⟨name, width, g⟩, ⟨name', width', g'⟩ =>
    name == name' && width == width' && Grammar.sameOption g g'
termination_by structural x => x

def Region.sameAll : List Region → List Region → Bool
  | [], [] => true
  | a :: as, b :: bs => Region.same a b && Region.sameAll as bs
  | _, _ => false
termination_by structural x => x

def Grammar.same : Grammar → Grammar → Bool
  | ⟨as⟩, ⟨bs⟩ => Entry.sameAll as bs
termination_by structural x => x

def Grammar.sameOption : Option Grammar → Option Grammar → Bool
  | none, none => true
  | some a, some b => Grammar.same a b
  | _, _ => false
termination_by structural x => x

def Entry.sameAll : List Entry → List Entry → Bool
  | [], [] => true
  | a :: as, b :: bs => Entry.same a b && Entry.sameAll as bs
  | _, _ => false
termination_by structural x => x

def Entry.same : Entry → Entry → Bool
  | ⟨capture, target, q, secondary⟩, ⟨capture', target', q', secondary'⟩ =>
    capture == capture' && Target.same target target' && q == q'
      && Grammar.sameOption secondary secondary'
termination_by structural x => x

def Target.same : Target → Target → Bool
  | .checker a, .checker b => Checker.same a b
  | .ref a, .ref b => a == b
  | .type a, .type b => a.name == b.name
  | _, _ => false
termination_by structural x => x

end

instance : BEq Checker := ⟨Checker.same⟩
instance : BEq Grammar := ⟨Grammar.same⟩

end TextGrammar
