/-
Values that nodes of a match are turned into.
-/
import TextGrammar.Decimal.Shortest
import TextGrammar.Text.Quoted

namespace TextGrammar

/-- The value of a node. -/
inductive Value where
  | unit
  | text (s : String)
  | int (n : Int)
  | float (x : Float)
  | bool (b : Bool)
  | list (items : List Value)
  /-- A byte kept by the host program under a reference. Two such values are equal when they are the
  same reference, whatever they hold. -/
  | custom (reference : Nat) (byte : UInt8)

namespace Value

/-- The text of a value that is one. -/
def text? : Value → Option String
  | .text s => some s
  | _ => none

/-- The byte of a value that the host program made. -/
def byte? : Value → Option UInt8
  | .custom _ byte => some byte
  | _ => none

mutual

/-- Equality of values. Floating-point numbers compare as numbers, so one that is not a number
differs from itself. -/
def equal : Value → Value → Bool
  | .unit, .unit => true
  | .text a, .text b => a == b
  | .int a, .int b => a == b
  | .float a, .float b => a == b
  | .bool a, .bool b => a == b
  | .list a, .list b => equalAll a b
  | .custom a _, .custom b _ => a == b
  | _, _ => false

def equalAll : List Value → List Value → Bool
  | [], [] => true
  | a :: as, b :: bs => equal a b && equalAll as bs
  | _, _ => false

end

instance : BEq Value := ⟨equal⟩

mutual

/-- The value as it is shown to a reader. -/
def display : Value → String
  | .unit => "()"
  | .text s => quoted s
  | .int n => toString n
  | .float x => Decimal.plain x
  | .bool b => if b then "true" else "false"
  | .list items => "[" ++ displayItems items ++ "]"
  | .custom _ _ => "<custom>"

def displayItems : List Value → String
  | [] => ""
  | [item] => display item
  | item :: items => display item ++ ", " ++ displayItems items

end

mutual

/-- The value with its kind. -/
def describe : Value → String
  | .unit => "Unit"
  | .text s => "Text(" ++ quoted s ++ ")"
  | .int n => "Int(" ++ toString n ++ ")"
  | .float x => "Float(" ++ Decimal.marked x ++ ")"
  | .bool b => if b then "Bool(true)" else "Bool(false)"
  | .list items => "List([" ++ describeItems items ++ "])"
  | .custom _ _ => "Custom(..)"

def describeItems : List Value → String
  | [] => ""
  | [item] => describe item
  | item :: items => describe item ++ ", " ++ describeItems items

end

end Value

end TextGrammar
