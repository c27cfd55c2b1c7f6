/-
The result of a successful match: its nodes under one root that spans all that
was matched, and the outline it is shown as.
-/
import TextGrammar.Tree.Node
import TextGrammar.Text.Quoted

namespace TextGrammar

/-- A successful match of a text. -/
structure MatchTree where
  text : Text
  root : Node

namespace MatchTree

/-- The tree of a match with these nodes, under a root that has no name. -/
def ofNodes (text : Text) (start stop : Nat) (nodes : List Node) : MatchTree :=
  ⟨text, { start, stop, children := nodes }⟩

/-- The root in the text. -/
def rootRef (tree : MatchTree) : NodeRef := ⟨tree.text, tree.root, 0⟩

/-- The nodes right below the root. -/
def nodes (tree : MatchTree) : List Node := tree.root.children

/-! ## Outline -/

/-- How an outline calls a node: by its name, its type between exclamation marks, or both where
they differ. -/
def label? (name typeName : Option String) : Option String :=
  match name, typeName with
  | some n, some t => if n == t then some n else some (n ++ ": !" ++ t ++ "!")
  | some n, none => some n
  | none, some t => some ("!" ++ t ++ "!")
  | none, none => none

/-- A span and the text in it. -/
def displaySpan (text : Text) (start stop : Nat) : String :=
  toString start ++ ".." ++ toString stop ++ " " ++ quoted (text.slice start stop).string

mutual

/-- A node with a label takes a line, two spaces deeper for each labelled node around it; a node
without passes its children on. -/
def outlineNode (text : Text) (depth : Nat) : Node → String
  | ⟨name, typeName, _, start, stop, children⟩ =>
    match label? name typeName with
    | some label =>
      String.ofList (List.replicate (depth * 2) ' ') ++ label ++ " " ++ displaySpan text start stop
        ++ "\n" ++ outlineNodes text (depth + 1) children
    | none => outlineNodes text depth children

def outlineNodes (text : Text) (depth : Nat) : List Node → String
  | [] => ""
  | node :: nodes => outlineNode text depth node ++ outlineNodes text depth nodes

end

/-- The span of the match, and an indented line for every node with a name or a type. -/
def outline (tree : MatchTree) : String :=
  displaySpan tree.text tree.root.start tree.root.stop ++ "\n"
    ++ outlineNodes tree.text 1 tree.root.children

end MatchTree

end TextGrammar
