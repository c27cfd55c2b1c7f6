/-
What stands to the left of a node: the nodes before it at its own level, then
those before the node around it, and so on out to the top level, each level
read from right to left and each node before those below it. This is the order
in which a match in progress is searched for a captured name, so what a search
reads while the tree is being built can be said of the tree it ends with.
-/
import TextGrammar.Proofs.CompletionOrder
import TextGrammar.Proofs.TiledAttempts

namespace TextGrammar

mutual

/-- The node, and then all below it from right to left, each node before those below it. -/
def Node.backwards : Node → List Node
  | ⟨name, typeName, param, start, stop, children⟩ =>
    ⟨name, typeName, param, start, stop, children⟩ :: Node.allBackwards children

/-- Nodes side by side with all below them, from right to left. -/
def Node.allBackwards : List Node → List Node
  | [] => []
  | node :: nodes => Node.allBackwards nodes ++ Node.backwards node

end

section

variable (holds : List Node → Node → Prop)

mutual

/-- The node, with `left` to the left of it, is as it should be, and so are all nodes below it with
what is to the left of them. -/
def Node.Placed (left : List Node) : Node → Prop
  | ⟨name, typeName, param, start, stop, children⟩ =>
    holds left ⟨name, typeName, param, start, stop, children⟩ ∧ Node.AllPlaced left children

/-- The same for nodes side by side: each of them has those before it to its left. -/
def Node.AllPlaced (left : List Node) : List Node → Prop
  | [] => True
  | node :: nodes => Node.Placed left node ∧ Node.AllPlaced (Node.backwards node ++ left) nodes

end

end

namespace Node

variable {holds : List Node → Node → Prop} {left : List Node}

@[simp] theorem allBackwards_append (nodes later : List Node) :
    allBackwards (nodes ++ later) = allBackwards later ++ allBackwards nodes := by
  induction nodes with
  | nil => exact (List.append_nil _).symm
  | cons node nodes ih =>
    rw [List.cons_append, allBackwards, ih, List.append_assoc, ← allBackwards]

@[simp] theorem allBackwards_singleton (node : Node) : allBackwards [node] = node.backwards := rfl

theorem AllPlaced.append {nodes later : List Node} (h : AllPlaced holds left nodes)
    (hlater : AllPlaced holds (allBackwards nodes ++ left) later) :
    AllPlaced holds left (nodes ++ later) := by
  induction nodes generalizing left with
  | nil => exact hlater
  | cons node nodes ih =>
    refine ⟨h.1, ih h.2 ?_⟩
    rwa [allBackwards, List.append_assoc] at hlater

/-- A node alone, with what lies below it. -/
theorem AllPlaced.single {name typeName param : Option String} {start stop : Nat}
    {children : List Node} (hnode : holds left ⟨name, typeName, param, start, stop, children⟩)
    (h : AllPlaced holds left children) :
    AllPlaced holds left [⟨name, typeName, param, start, stop, children⟩] :=
  ⟨⟨hnode, h⟩, trivial⟩

/-- Nodes with nothing below them, each as it should be wherever it stands. -/
theorem AllPlaced.leaves {nodes : List Node}
    (h : ∀ node ∈ nodes, node.children = [] ∧ ∀ left, holds left node) :
    AllPlaced holds left nodes := by
  induction nodes generalizing left with
  | nil => trivial
  | cons node nodes ih =>
    obtain ⟨⟨hchildren, hnode⟩, hnodes⟩ := List.forall_mem_cons.mp h
    refine ⟨?_, ih hnodes⟩
    obtain ⟨name, typeName, param, start, stop, children⟩ := node
    obtain rfl : children = [] := hchildren
    exact ⟨hnode left, trivial⟩

mutual

/-- All that a tiled node holds lies in it. -/
theorem Tiled.backwards_within : ∀ {node : Node}, node.Tiled →
    ∀ below ∈ node.backwards, below.start ≤ below.stop ∧ below.stop ≤ node.stop
  | ⟨_, _, _, start, stop, children⟩, h => by
    refine List.forall_mem_cons.mpr ⟨⟨h.1, Nat.le_refl _⟩, ?_⟩
    rcases h.2 with rfl | hchildren
    · exact fun _ hmem => nomatch hmem
    · exact Tile.backwards_within hchildren

theorem Tile.backwards_within : ∀ {start stop : Nat} {nodes : List Node}, Tile start stop nodes →
    ∀ below ∈ allBackwards nodes, below.start ≤ below.stop ∧ below.stop ≤ stop
  | _, _, [], _ => fun _ hmem => nomatch hmem
  | _, _, node :: nodes, h => by
    intro below hmem
    rcases List.mem_append.mp hmem with hmem | hmem
    · exact Tile.backwards_within h.2.2 below hmem
    · obtain ⟨hle, hstop⟩ := Tiled.backwards_within h.2.1 below hmem
      exact ⟨hle, Nat.le_trans hstop h.2.2.le⟩

end

end Node

/-! ## Properties of all nodes -/

/-- All of the nodes, and all of those below them, have the property. -/
def AllNodes (p : Node → Prop) (nodes : List Node) : Prop := ∀ node ∈ Node.allBackwards nodes, p node

namespace AllNodes

variable {p q : Node → Prop} {nodes later below : List Node} {name typeName param : Option String}
  {start stop : Nat}

theorem nil : AllNodes p [] := fun _ h => by cases h

theorem append_iff : AllNodes p (nodes ++ later) ↔ AllNodes p nodes ∧ AllNodes p later := by
  rw [AllNodes, Node.allBackwards_append, List.forall_mem_append]
  exact and_comm

theorem append (h : AllNodes p nodes) (h' : AllNodes p later) : AllNodes p (nodes ++ later) :=
  append_iff.mpr ⟨h, h'⟩

theorem cons_iff {node : Node} :
    AllNodes p (node :: nodes) ↔ AllNodes p [node] ∧ AllNodes p nodes := by
  rw [← List.singleton_append, append_iff]

theorem node (h : AllNodes p below) (hnode : p ⟨name, typeName, param, start, stop, below⟩) :
    AllNodes p [⟨name, typeName, param, start, stop, below⟩] := List.forall_mem_cons.mpr ⟨hnode, h⟩

theorem children (h : AllNodes p [⟨name, typeName, param, start, stop, below⟩]) :
    AllNodes p below := (List.forall_mem_cons.mp h).2

theorem head {node : Node} (h : AllNodes p (node :: nodes)) : p node := by
  obtain ⟨name, typeName, param, start, stop, children⟩ := node
  exact (List.forall_mem_cons.mp (cons_iff.mp h).1).1

theorem mono (h : AllNodes p nodes) (hpq : ∀ node, p node → q node) : AllNodes q nodes :=
  fun node hnode => hpq node (h node hnode)

end AllNodes

/-! ## Levels of a match in progress -/

/-- The nodes completed at several levels, the innermost level first, each read backwards. -/
def Trail.leftOf (scopes : List Trail) : List Node :=
  scopes.flatMap fun trail => Node.allBackwards trail.toList

@[simp] theorem Trail.leftOf_cons (trail : Trail) (scopes : List Trail) :
    leftOf (trail :: scopes) = Node.allBackwards trail.toList ++ leftOf scopes :=
  List.flatMap_cons

theorem Node.allBackwards_reverse (nodes : List Node) :
    Node.allBackwards nodes.reverse = nodes.flatMap Node.backwards := by
  induction nodes with
  | nil => rfl
  | cons node nodes ih =>
    rw [List.reverse_cons, allBackwards_append, allBackwards_singleton, ih, List.flatMap_cons]

/-- What is to the left of a search lies in the text before it. -/
theorem Setting.Fits.left_within {setting : Setting} {offset : Nat} (fits : setting.Fits offset) :
    ∀ node ∈ Trail.leftOf setting.outer, node.start ≤ node.stop ∧ node.stop ≤ offset := by
  intro node hnode
  obtain ⟨trail, htrail, hnode⟩ := List.mem_flatMap.mp hnode
  have heach := fits.outer trail htrail
  rw [← List.reverse_reverse trail.toList, Node.allBackwards_reverse] at hnode
  obtain ⟨top, htop, hnode⟩ := List.mem_flatMap.mp hnode
  obtain ⟨htiled, hstop⟩ := heach top (List.mem_reverse.mp htop)
  obtain ⟨hle, hwithin⟩ := htiled.backwards_within node hnode
  exact ⟨hle, Nat.le_trans hwithin hstop⟩

/-! ## The search for a captured name -/

/-- A node in a text, whatever its place among its neighbours. -/
def NodeRef.placeless (ref : NodeRef) : Text × Node := (ref.text, ref.node)

mutual

/-- Backwards is the order of completion read from its end. -/
theorem Node.backwards_eq_reverse (text : Text) : ∀ (index : Nat) (node : Node),
    node.backwards.map (text, ·) = (node.completion text index).reverse.map NodeRef.placeless
  | _, ⟨_, _, _, _, _, children⟩ => by
    rw [Node.backwards, Node.completion, List.reverse_append, List.map_append, List.map_cons,
      Node.allBackwards_eq_reverse text 0 children]
    rfl

theorem Node.allBackwards_eq_reverse (text : Text) : ∀ (index : Nat) (nodes : List Node),
    (Node.allBackwards nodes).map (text, ·) =
      (Node.completions text index nodes).reverse.map NodeRef.placeless
  | _, [] => rfl
  | index, node :: nodes => by
    rw [Node.allBackwards, Node.completions, List.reverse_append, List.map_append, List.map_append,
      Node.backwards_eq_reverse text index node,
      Node.allBackwards_eq_reverse text (index + 1) nodes]

end

/-- What is to the left of a search, read from its end, is all that was completed before. -/
theorem Trail.leftOf_eq_reverse (text : Text) (scopes : List Trail) :
    (leftOf scopes).map (text, ·) = (scopes.reverse.flatMap fun trail =>
      Node.completions text 0 trail.toList).reverse.map NodeRef.placeless := by
  induction scopes with
  | nil => rfl
  | cons trail scopes ih =>
    rw [leftOf_cons, List.map_append, ih, List.reverse_cons, List.flatMap_append,
      List.flatMap_singleton, List.reverse_append, List.map_append,
      Node.allBackwards_eq_reverse text 0]

/-- **The node found for a captured name** is the first of that name to the left, from the innermost
level outwards. -/
theorem Host.lastNamed?_eq_find? (host : Host) (name : String) :
    (host.lastNamed? name).map NodeRef.placeless =
      ((Trail.leftOf host.scopes).find? (·.name == some name)).map (host.text, ·) := by
  have hnamed : ((fun ref : Text × Node => ref.2.name == some name) ∘ NodeRef.placeless) =
      fun ref => ref.node.name == some name := rfl
  rw [host.lastNamed?_eq_lastNamed?, NodeRef.lastNamed?, List.getLast?_eq_head?_reverse,
    ← List.filter_reverse, List.head?_filter, ← hnamed, ← List.find?_map,
    ← Trail.leftOf_eq_reverse, List.find?_map]
  rfl

end TextGrammar
