/-
A trail: the nodes completed so far at one level of a match. Nodes are only
ever added at its end, and copies of a trail share what they have in common,
so that saving one costs nothing.
-/
import TextGrammar.Tree.Node

namespace TextGrammar

/-- Nodes in the order of their completion, kept with the newest first, and how many there are. -/
structure Trail where
  newestFirst : List Node
  count : Nat
  count_eq : count = newestFirst.length

namespace Trail

/-- No node has been completed. -/
def empty : Trail := ⟨[], 0, rfl⟩

/-- Adds a node, as the newest one. -/
def push (trail : Trail) (node : Node) : Trail :=
  ⟨node :: trail.newestFirst, trail.count + 1, congrArg Nat.succ trail.count_eq⟩

/-- Adds nodes, the first one first. -/
def pushAll (trail : Trail) (nodes : List Node) : Trail := nodes.foldl push trail

/-- The nodes, oldest first. -/
def toList (trail : Trail) : List Node := trail.newestFirst.reverse

/-- The trail of these nodes, the oldest one first. -/
def ofList (nodes : List Node) : Trail := ⟨nodes.reverse, nodes.length, List.length_reverse.symm⟩

/-- The nodes from the newest to the oldest, each with its place from the oldest on. The places are
counted down from the number of nodes. -/
def numbered (trail : Trail) : List (Nat × Node) :=
  (List.range trail.count).reverse.zip trail.newestFirst

theorem eq_of_newestFirst {trail trail' : Trail} (h : trail.newestFirst = trail'.newestFirst) :
    trail = trail' := by
  obtain ⟨nodes, _, rfl⟩ := trail
  obtain ⟨nodes', _, rfl⟩ := trail'
  cases h
  rfl

/-- Every trail is made by adding nodes to the one without any. -/
@[elab_as_elim]
theorem pushInduction {motive : Trail → Prop} (empty : motive empty)
    (push : ∀ (trail : Trail) (node : Node), motive trail → motive (trail.push node))
    (trail : Trail) : motive trail := by
  obtain ⟨nodes, _, rfl⟩ := trail
  induction nodes with
  | nil => exact empty
  | cons node older ih => exact push ⟨older, older.length, rfl⟩ node ih

@[simp] theorem numbered_empty : empty.numbered = [] := rfl

/-- The newest node stands behind all the others, whose places stay. -/
@[simp] theorem numbered_push (trail : Trail) (node : Node) :
    (trail.push node).numbered = (trail.count, node) :: trail.numbered := by
  simp [numbered, push, List.range_succ]

@[simp] theorem toList_empty : empty.toList = [] := rfl

@[simp] theorem toList_push (trail : Trail) (node : Node) :
    (trail.push node).toList = trail.toList ++ [node] := by
  simp [push, toList]

@[simp] theorem toList_pushAll (trail : Trail) (nodes : List Node) :
    (trail.pushAll nodes).toList = trail.toList ++ nodes := by
  induction nodes generalizing trail with
  | nil => simp [pushAll]
  | cons node nodes ih =>
    rw [show trail.pushAll (node :: nodes) = (trail.push node).pushAll nodes from rfl, ih]
    simp

theorem length_toList (trail : Trail) : trail.toList.length = trail.count := by
  rw [toList, List.length_reverse, ← trail.count_eq]

@[simp] theorem toList_ofList (nodes : List Node) : (ofList nodes).toList = nodes := by
  simp [ofList, toList]

end Trail

end TextGrammar
