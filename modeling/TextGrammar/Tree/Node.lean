/-
Nodes of a match: spans of the text with a name or a type, and what they were
made of. A `NodeRef` is a node together with the text its span lies in.
-/
import TextGrammar.Text

namespace TextGrammar

/-- One repeat of an entry: the characters from `start` up to `stop` excluded. -/
structure Node where
  name : Option String := none
  typeName : Option String := none
  /-- Parameter the type was used with. -/
  param : Option String := none
  start : Nat
  stop : Nat
  children : List Node := []

namespace Node

/-- A node of nothing but its span. -/
def leaf (start stop : Nat) : Node := { start, stop }

/-- How many characters the match took. -/
def length (node : Node) : Nat := node.stop - node.start

/-- The match took nothing. -/
def isEmpty (node : Node) : Bool := node.start == node.stop

/-- Neither name nor type nor children. -/
def isAnonymous (node : Node) : Bool :=
  node.name.isNone && node.typeName.isNone && node.children.isEmpty

end Node

/-- A node in its text. -/
structure NodeRef where
  text : Text
  node : Node
  /-- Position among the children of its parent. -/
  index : Nat

namespace NodeRef

/-- The characters of the node's span. -/
def chars (ref : NodeRef) : Text := ref.text.slice ref.node.start ref.node.stop

/-- The text of the node's span. -/
def string (ref : NodeRef) : String := ref.chars.string

/-- The children, each with its place among them. -/
def children (ref : NodeRef) : List NodeRef :=
  ref.node.children.zipIdx.map fun (node, index) => ⟨ref.text, node, index⟩

/-- First child of this name. -/
def child? (ref : NodeRef) (name : String) : Option NodeRef :=
  ref.children.find? (·.node.name == some name)

/-- Children of this type. -/
def typedChildren (ref : NodeRef) (typeName : String) : List NodeRef :=
  ref.children.filter (·.node.typeName == some typeName)

/-- First child of this type. -/
def typedChild? (ref : NodeRef) (typeName : String) : Option NodeRef :=
  ref.children.find? (·.node.typeName == some typeName)

mutual

/-- All nodes below a node, each before its own children. -/
def below (text : Text) : Node → List NodeRef
  | ⟨_, _, _, _, _, children⟩ => belowAll text 0 children

/-- Nodes standing at `index` and after it, each with all below it. -/
def belowAll (text : Text) (index : Nat) : List Node → List NodeRef
  | [] => []
  | node :: nodes => ⟨text, node, index⟩ :: (below text node ++ belowAll text (index + 1) nodes)

end

/-- All nodes below this one in the order of the text, each before its own children. -/
def descendants (ref : NodeRef) : List NodeRef := below ref.text ref.node

/-- First node of this name below. -/
def find? (ref : NodeRef) (name : String) : Option NodeRef :=
  ref.descendants.find? (·.node.name == some name)

/-- All nodes of this name below. -/
def findAll (ref : NodeRef) (name : String) : List NodeRef :=
  ref.descendants.filter (·.node.name == some name)

end NodeRef

end TextGrammar
