/-
What a reference to captured text can see of a match in progress: the names and
the spans of the nodes that have one, in the order of their completion. Matches
with the same marks at every level give back the same text for every name,
whatever other nodes they have made.
-/
import TextGrammar.Proofs.CompletionOrder

namespace TextGrammar

/-- A node with a name, by the name and its span. -/
structure Mark where
  name : String
  start : Nat
  stop : Nat

namespace Node

mutual

/-- The marks of a node and of all that lies below it. -/
def marks : Node → List Mark
  | ⟨name, _, _, start, stop, children⟩ =>
    marksAll children ++ (name.map fun name => ⟨name, start, stop⟩).toList

def marksAll : List Node → List Mark
  | [] => []
  | node :: nodes => marks node ++ marksAll nodes

end

@[simp] theorem marksAll_nil : marksAll [] = [] := by rw [marksAll]

@[simp] theorem marksAll_append (nodes later : List Node) :
    marksAll (nodes ++ later) = marksAll nodes ++ marksAll later := by
  induction nodes with
  | nil => rw [List.nil_append, marksAll_nil, List.nil_append]
  | cons node nodes ih => rw [List.cons_append, marksAll, marksAll, ih, List.append_assoc]

@[simp] theorem marksAll_singleton (node : Node) : marksAll [node] = node.marks := by
  rw [marksAll, marksAll_nil, List.append_nil]

theorem marks_eq (node : Node) : node.marks = marksAll node.children ++
    (node.name.map fun name => ⟨name, node.start, node.stop⟩).toList := by
  cases node
  rw [marks]

/-! ## Marks and the nodes completed -/

variable {text : Text} {name : String}

variable (text name) in
/-- The texts of the marks of this name. -/
def captured (marks : List Mark) : List Text :=
  (marks.filter (·.name == name)).map fun mark => text.slice mark.start mark.stop

theorem captured_append (marks later : List Mark) :
    captured text name (marks ++ later) = captured text name marks ++ captured text name later := by
  rw [captured, List.filter_append, List.map_append, captured, captured]

mutual

theorem chars_completion : ∀ (index : Nat) (node : Node),
    ((completion text index node).filter (·.node.name == some name)).map NodeRef.chars =
      captured text name node.marks
  | _, ⟨nodeName, _, _, start, stop, children⟩ => by
    rw [completion, marks, List.filter_append, List.map_append, captured_append,
      chars_completions 0 children]
    cases nodeName with
    | none => rfl
    | some other =>
      refine congrArg _ ?_
      by_cases h : other == name
      · simp [captured, NodeRef.chars, h]
      · simp [captured, h]

theorem chars_completions : ∀ (index : Nat) (nodes : List Node),
    ((completions text index nodes).filter (·.node.name == some name)).map NodeRef.chars =
      captured text name (marksAll nodes)
  | _, [] => by
    rw [completions, marksAll]
    rfl
  | index, node :: nodes => by
    rw [completions, marksAll, List.filter_append, List.map_append, captured_append,
      chars_completion index node, chars_completions (index + 1) nodes]

end

end Node

/-! ## Levels with the same marks -/

/-- The marks of one level. -/
def Trail.marks (trail : Trail) : List Mark := Node.marksAll trail.toList

@[simp] theorem Trail.marks_pushAll (trail : Trail) (nodes : List Node) :
    (trail.pushAll nodes).marks = trail.marks ++ Node.marksAll nodes := by
  rw [marks, Trail.toList_pushAll, Node.marksAll_append, marks]

/-- The same place in the same text, with the same marks at every level. -/
structure Host.Echoes (host host' : Host) : Prop where
  text : host'.text = host.text
  offset : host'.offset = host.offset
  marks : host'.scopes.map Trail.marks = host.scopes.map Trail.marks

/-- The text captured last under a name is told by the marks. -/
theorem Host.chars_lastNamed? (host : Host) (name : String) :
    (host.lastNamed? name).map NodeRef.chars =
      ((host.scopes.map Trail.marks).reverse.flatMap (Node.captured host.text name)).getLast? := by
  rw [Host.lastNamed?_eq_lastNamed?, NodeRef.lastNamed?, ← List.getLast?_map, List.filter_flatMap,
    List.map_flatMap]
  simp only [Node.chars_completions]
  rw [← List.map_reverse, List.flatMap_map]
  rfl

/-- **References see marks only**: where these are the same, the text captured last under a name is
the same, or nothing is captured under it. -/
theorem Host.Echoes.chars_lastNamed? {host host' : Host} (h : host.Echoes host') (name : String) :
    (host'.lastNamed? name).map NodeRef.chars = (host.lastNamed? name).map NodeRef.chars := by
  rw [Host.chars_lastNamed?, Host.chars_lastNamed?, h.marks, h.text]

end TextGrammar
