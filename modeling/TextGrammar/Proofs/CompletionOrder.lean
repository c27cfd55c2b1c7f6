/-
The order in which the nodes of a match in progress were completed: siblings
from left to right, each after all that lies below it, and what an outer level
holds before what the levels inside it hold. The search for a captured name
goes the other way, from the innermost level outwards and into a node only when
the node itself does not have the name; what it finds is the node of that name
completed last.
-/
import TextGrammar.Host

namespace TextGrammar

/-! ## Order of completion -/

namespace Node

mutual

/-- A node standing at `index`, after all that lies below it. -/
def completion (text : Text) (index : Nat) : Node → List NodeRef
  | ⟨name, typeName, param, start, stop, children⟩ =>
    completions text 0 children ++ [⟨text, ⟨name, typeName, param, start, stop, children⟩, index⟩]

/-- Nodes standing at `index` and after it, from left to right with all that lies below them. -/
def completions (text : Text) (index : Nat) : List Node → List NodeRef
  | [] => []
  | node :: nodes => completion text index node ++ completions text (index + 1) nodes

end

/-- The node is one of these, or lies below one of them at some depth. -/
inductive StandsIn (node : Node) : List Node → Prop where
  | among {nodes : List Node} (h : node ∈ nodes) : StandsIn node nodes
  | deeper {nodes : List Node} {other : Node} (hother : other ∈ nodes)
    (h : StandsIn node other.children) : StandsIn node nodes

variable {text : Text} {index : Nat}

theorem completion_eq (node : Node) :
    completion text index node = completions text 0 node.children ++ [⟨text, node, index⟩] := by
  cases node
  rfl

theorem completions_append (nodes later : List Node) :
    completions text index (nodes ++ later) =
      completions text index nodes ++ completions text (index + nodes.length) later := by
  induction nodes generalizing index with
  | nil => rfl
  | cons node nodes ih =>
    rw [List.cons_append, completions, completions, ih, List.append_assoc, List.length_cons,
      Nat.add_assoc, Nat.add_comm 1]

theorem StandsIn.cons {node other : Node} {nodes : List Node} (h : node.StandsIn nodes) :
    node.StandsIn (other :: nodes) := by
  cases h with
  | among h => exact .among (List.mem_cons_of_mem _ h)
  | deeper hmem h => exact .deeper (List.mem_cons_of_mem _ hmem) h

mutual

theorem standsIn_of_mem_completion : ∀ {index : Nat} {node : Node},
    ∀ ref ∈ completion text index node, ref.node = node ∨ ref.node.StandsIn node.children
  | _, ⟨_, _, _, _, _, children⟩ => by
    intro ref href
    rcases List.mem_append.mp href with href | href
    · exact .inr (standsIn_of_mem_completions ref href)
    · exact .inl (congrArg NodeRef.node (List.mem_singleton.mp href))

theorem standsIn_of_mem_completions : ∀ {index : Nat} {nodes : List Node},
    ∀ ref ∈ completions text index nodes, ref.node.StandsIn nodes
  | _, [] => fun _ href => nomatch href
  | _, node :: nodes => by
    intro ref href
    rcases List.mem_append.mp href with href | href
    · rcases standsIn_of_mem_completion ref href with heq | hbelow
      · exact .among (heq ▸ List.mem_cons_self)
      · exact .deeper List.mem_cons_self hbelow
    · exact (standsIn_of_mem_completions ref href).cons

end

variable (text index) in
/-- What stands among nodes is completed with all that lies below it. -/
theorem completion_subset {nodes : List Node} {node : Node} (h : node ∈ nodes) :
    ∃ place, ∀ ref ∈ completion text place node, ref ∈ completions text index nodes := by
  obtain ⟨before, after, rfl⟩ := List.append_of_mem h
  refine ⟨index + before.length, fun ref href => ?_⟩
  rw [completions_append, completions]
  exact List.mem_append_right _ (List.mem_append_left _ href)

theorem exists_mem_completions {node : Node} {nodes : List Node} (h : node.StandsIn nodes) :
    ∀ index, ∃ ref ∈ completions text index nodes, ref.node = node := by
  induction h with
  | @among nodes hmem =>
    intro index
    obtain ⟨place, hsub⟩ := completion_subset text index hmem
    refine ⟨⟨text, node, place⟩, hsub _ ?_, rfl⟩
    rw [completion_eq]
    exact List.mem_append_right _ (List.mem_singleton.mpr rfl)
  | @deeper nodes other hmem _ ih =>
    intro index
    obtain ⟨place, hsub⟩ := completion_subset text index hmem
    obtain ⟨ref, href, hnode⟩ := ih 0
    refine ⟨ref, hsub ref ?_, hnode⟩
    rw [completion_eq]
    exact List.mem_append_left _ href

/-- **The nodes completed** are those that stand somewhere in the tree. -/
theorem mem_completions_iff {node : Node} {nodes : List Node} :
    (∃ ref ∈ completions text index nodes, ref.node = node) ↔ node.StandsIn nodes := by
  constructor
  · rintro ⟨ref, href, rfl⟩
    exact standsIn_of_mem_completions ref href
  · exact fun h => exists_mem_completions h index

end Node

/-! ## The last of a name -/

/-- The last node of this name in a sequence. -/
def NodeRef.lastNamed? (name : String) (refs : List NodeRef) : Option NodeRef :=
  (refs.filter (·.node.name == some name)).getLast?

namespace NodeRef

variable {name : String}

theorem lastNamed?_append (refs later : List NodeRef) :
    lastNamed? name (refs ++ later) = (lastNamed? name later).or (lastNamed? name refs) := by
  rw [lastNamed?, List.filter_append, List.getLast?_append]
  rfl

theorem lastNamed?_singleton (ref : NodeRef) :
    lastNamed? name [ref] = if ref.node.name == some name then some ref else none := by
  cases h : ref.node.name == some name <;> simp [lastNamed?, h]

theorem lastNamed?_eq_none_iff {refs : List NodeRef} :
    lastNamed? name refs = none ↔ ∀ ref ∈ refs, ref.node.name ≠ some name := by
  rw [lastNamed?, List.getLast?_eq_none_iff, List.filter_eq_nil_iff]
  simp only [beq_iff_eq, ne_eq]

end NodeRef

/-! ## The search for a captured name -/

namespace Host

variable {text : Text} {name : String}

/-- The node itself is asked first, then what lies below it. -/
theorem lastNamed?_completion {index : Nat} {node : Node}
    (h : lastBelow? text name node =
      NodeRef.lastNamed? name (Node.completions text 0 node.children)) :
    NodeRef.lastNamed? name (node.completion text index) =
      if node.name == some name then some ⟨text, node, index⟩ else lastBelow? text name node := by
  rw [Node.completion_eq, NodeRef.lastNamed?_append, NodeRef.lastNamed?_singleton, h]
  cases node.name == some name <;> rfl

mutual

theorem lastBelow?_eq_lastNamed? : ∀ node : Node,
    lastBelow? text name node = NodeRef.lastNamed? name (Node.completions text 0 node.children)
  | ⟨_, _, _, _, _, children⟩ => lastAmong?_eq_lastNamed? 0 children

theorem lastAmong?_eq_lastNamed? : ∀ (index : Nat) (nodes : List Node),
    lastAmong? text name index nodes = NodeRef.lastNamed? name (Node.completions text index nodes)
  | _, [] => rfl
  | index, node :: nodes => by
    rw [Node.completions, NodeRef.lastNamed?_append,
      lastNamed?_completion (lastBelow?_eq_lastNamed? node),
      ← lastAmong?_eq_lastNamed? (index + 1) nodes, lastAmong?]
    cases lastAmong? text name (index + 1) nodes <;> rfl

end

/-- The places counted down along a trail are those the nodes have from the oldest on. -/
theorem lastIn?_eq_lastNamed? (trail : Trail) :
    lastIn? text name trail.numbered =
      NodeRef.lastNamed? name (Node.completions text 0 trail.toList) := by
  induction trail using Trail.pushInduction with
  | empty => rfl
  | push trail node ih =>
    rw [Trail.toList_push, Node.completions_append, NodeRef.lastNamed?_append, Node.completions,
      Node.completions, List.append_nil, lastNamed?_completion (lastBelow?_eq_lastNamed? node),
      Trail.length_toList, Nat.zero_add, ← ih, Trail.numbered_push, lastIn?]
    cases node.name == some name
    · cases lastBelow? text name node <;> rfl
    · rfl

/-- The node found for a captured name is the last of that name in the order of completion. -/
theorem lastNamed?_eq_lastNamed? (host : Host) (name : String) :
    host.lastNamed? name = NodeRef.lastNamed? name
      (host.scopes.reverse.flatMap fun trail => Node.completions host.text 0 trail.toList) := by
  obtain ⟨text, offset, scopes⟩ := host
  simp only [lastNamed?]
  induction scopes with
  | nil => rfl
  | cons trail scopes ih =>
    rw [List.reverse_cons, List.flatMap_append, NodeRef.lastNamed?_append, List.flatMap_singleton,
      List.findSome?_cons, lastIn?_eq_lastNamed? trail, ih]
    cases NodeRef.lastNamed? name (Node.completions text 0 trail.toList) <;> rfl

end Host

/-! ## Levels listed and levels kept -/

/-- The nodes completed at one level: in a list, or in the trail that a search keeps. -/
inductive Level where
  | listed (nodes : List Node)
  | kept (trail : Trail)

namespace Level

/-- The nodes, oldest first. -/
def nodes : Level → List Node
  | .listed nodes => nodes
  | .kept trail => trail.toList

def trail : Level → Trail
  | .listed nodes => .ofList nodes
  | .kept trail => trail

/-- The last node of this name at the level. A list is gone through by the places in it, a trail
from its newest node on. -/
def lastNamed? (text : Text) (name : String) : Level → Option NodeRef
  | .listed nodes => Host.lastAmong? text name 0 nodes
  | .kept trail => Host.lastIn? text name trail.numbered

theorem toList_trail (level : Level) : level.trail.toList = level.nodes := by
  cases level with
  | listed nodes => exact Trail.toList_ofList nodes
  | kept trail => rfl

/-- Both ways to go through a level come to the same. -/
theorem lastNamed?_eq_lastIn? (text : Text) (name : String) (level : Level) :
    level.lastNamed? text name = Host.lastIn? text name level.trail.numbered := by
  cases level with
  | listed nodes =>
    rw [trail, Host.lastIn?_eq_lastNamed?, Trail.toList_ofList]
    exact Host.lastAmong?_eq_lastNamed? 0 nodes
  | kept trail => rfl

end Level

/-- A match in progress with nodes completed at these levels, the outermost level first. -/
def Host.ofLevels (text : Text) (offset : Nat) (levels : List Level) : Host :=
  ⟨text, offset, levels.reverse.map Level.trail⟩

/-- **The node found for a captured name is the one completed last**: of all the nodes of that name
at any depth of any level it comes last in the order of completion, and it is found with its place
among its siblings, whether levels are listed or kept as trails. None is found only where there is
no node of that name. -/
theorem Host.captured_name_completed_last (text : Text) (offset : Nat) (levels : List Level)
    (name : String) :
    let found := (Host.ofLevels text offset levels).lastNamed? name
    found = levels.reverse.findSome? (Level.lastNamed? text name) ∧
      found = ((levels.flatMap fun level => Node.completions text 0 level.nodes).filter
        (·.node.name == some name)).getLast? ∧
      (found = none ↔ ∀ level ∈ levels, ∀ node : Node, node.StandsIn level.nodes →
        node.name ≠ some name) := by
  intro found
  have hlast : found = NodeRef.lastNamed? name
      (levels.flatMap fun level => Node.completions text 0 level.nodes) := by
    refine ((Host.ofLevels text offset levels).lastNamed?_eq_lastNamed? name).trans ?_
    simp only [Host.ofLevels, List.map_reverse, List.reverse_reverse, List.flatMap_map,
      Level.toList_trail]
  refine ⟨?_, hlast, ?_⟩
  · have hlevels : Level.lastNamed? text name =
        fun level => Host.lastIn? text name level.trail.numbered :=
      funext (Level.lastNamed?_eq_lastIn? text name)
    rw [hlevels]
    exact List.findSome?_map
  · rw [hlast, NodeRef.lastNamed?_eq_none_iff]
    constructor
    · intro hnone level hlevel node hnode
      obtain ⟨ref, href, rfl⟩ : ∃ ref ∈ Node.completions text 0 level.nodes, ref.node = node :=
        Node.mem_completions_iff.mpr hnode
      exact hnone ref (List.mem_flatMap.mpr ⟨level, hlevel, href⟩)
    · intro hnone ref href
      obtain ⟨level, hlevel, href⟩ := List.mem_flatMap.mp href
      exact hnone level hlevel ref.node (Node.mem_completions_iff.mp ⟨ref, href, rfl⟩)

/-- A node is found before the one of its name below it. -/
example :
    let inner : Node := { name := some "x", start := 0, stop := 1 }
    let outer : Node := { name := some "x", start := 0, stop := 2, children := [inner, .leaf 1 2] }
    (Host.ofLevels #[] 2 [.listed [.leaf 0 0, outer], .kept .empty]).lastNamed? "x" =
      some ⟨#[], outer, 1⟩ := by
  rfl

end TextGrammar
