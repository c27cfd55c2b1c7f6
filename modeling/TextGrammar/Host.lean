/-
What a parser type sees of the match in progress: the text, the offset it is
asked at, and the nodes completed so far at every level.
-/
import TextGrammar.Tree.Trail

namespace TextGrammar

/-- A match in progress. -/
structure Host where
  text : Text
  offset : Nat
  /-- The nodes completed so far at each level, the innermost level first. -/
  scopes : List Trail

namespace Host

mutual

/-- The last node of this name below a node. -/
def lastBelow? (text : Text) (name : String) : Node → Option NodeRef
  | ⟨_, _, _, _, _, children⟩ => lastAmong? text name 0 children

/-- The last node of this name among nodes standing at `index` and after it, and those below them.
A node comes after the nodes below it. -/
def lastAmong? (text : Text) (name : String) (index : Nat) : List Node → Option NodeRef
  | [] => none
  | node :: nodes =>
    match lastAmong? text name (index + 1) nodes with
    | some found => some found
    | none =>
      if node.name == some name then some ⟨text, node, index⟩ else lastBelow? text name node

end

/-- The last node of this name in nodes listed from the newest to the oldest, each with its place,
and below them. -/
def lastIn? (text : Text) (name : String) : List (Nat × Node) → Option NodeRef
  | [] => none
  | (index, node) :: older =>
    if node.name == some name then some ⟨text, node, index⟩
    else match lastBelow? text name node with
      | some found => some found
      | none => lastIn? text name older

/-- The node of this name completed most recently, looking outwards from the innermost level. A node
completes after those below it. -/
def lastNamed? (host : Host) (name : String) : Option NodeRef :=
  host.scopes.findSome? fun trail => lastIn? host.text name trail.numbered

end Host

end TextGrammar
