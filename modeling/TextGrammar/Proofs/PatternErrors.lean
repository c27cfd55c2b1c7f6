/-
Errors of patterns. Whatever is wrong with a pattern is said of one of its
nodes, and the nodes lie in the pattern; so every error points into the pattern
and quotes it from there on.
-/
import TextGrammar.Proofs.PatternSearch
import TextGrammar.Types.Registry

namespace TextGrammar

/-- The error is about a place of the text: it points there, and quotes the text from there on. -/
def GrammarError.PointsInto (text : Text) : GrammarError → Prop
  | .malformed _ offset slice | .fatal _ offset slice =>
    offset ≤ text.size ∧ slice = text.stringFrom offset
  | .unknownType _ offset => offset ≤ text.size
  | .duplicateType _ | .type _ _ | .many _ => False

namespace Pattern

variable {α β : Type} {text : Text} {vocabulary : Vocabulary}

/-! ## Results -/

/-- If there is an error it is about a place of the text. -/
def FailsInside (text : Text) (x : Except GrammarError α) : Prop :=
  ∀ error, x = .error error → error.PointsInto text

namespace FailsInside

theorem ok {a : α} : FailsInside text (.ok a) := nofun

theorem pure {a : α} : FailsInside text (Pure.pure a : Except GrammarError α) := nofun

theorem error {e : GrammarError} (h : e.PointsInto text) :
    FailsInside text (.error e : Except GrammarError α) := by
  rintro error ⟨⟩
  exact h

theorem bind {x : Except GrammarError α} {f : α → Except GrammarError β}
    (h : FailsInside text x) (hf : ∀ a, FailsInside text (f a)) : FailsInside text (x >>= f) := by
  cases x with
  | ok a => exact hf a
  | error e => exact .error (h e rfl)

end FailsInside

/-! ## Nodes -/

/-- The node lies in the text with all below it. -/
def Inside (text : Text) (ref : NodeRef) : Prop :=
  ref.text = text ∧ ∀ node ∈ ref.node.backwards, node.Sits (Allowed text) text.size

namespace Inside

variable {ref : NodeRef}

theorem sits (h : Inside text ref) : ref.node.Sits (Allowed text) text.size := by
  obtain ⟨text, ⟨name, typeName, param, start, stop, children⟩, index⟩ := ref
  exact h.2 _ List.mem_cons_self

theorem start (h : Inside text ref) : ref.node.start ≤ text.size :=
  Nat.le_trans h.sits.start h.sits.stop

/-- An error about a node points to where it starts. -/
theorem malformed (h : Inside text ref) (detail : String) :
    (malformed detail ref).PointsInto text := by
  obtain ⟨rfl, -⟩ := id h
  exact ⟨h.start, rfl⟩

end Inside

theorem backwards_mem_of_mem {node : Node} {nodes : List Node} (h : node ∈ nodes) :
    ∀ below ∈ node.backwards, below ∈ Node.allBackwards nodes := by
  induction nodes with
  | nil => cases h
  | cons first nodes ih =>
    intro below hbelow
    rcases List.mem_cons.mp h with rfl | h
    · exact List.mem_append_right _ hbelow
    · exact List.mem_append_left _ (ih h below hbelow)

theorem node_mem_children {ref child : NodeRef} (h : child ∈ ref.children) :
    child.text = ref.text ∧ child.node ∈ ref.node.children := by
  obtain ⟨⟨node, place⟩, hmem, rfl⟩ := List.mem_map.mp h
  obtain ⟨i, hi⟩ := List.mem_iff_getElem?.mp hmem
  simp only [List.getElem?_zipIdx] at hi
  obtain ⟨n, hn, heq⟩ := Option.map_eq_some_iff.mp hi
  cases heq
  exact ⟨rfl, List.mem_of_getElem? hn⟩

/-- What a node holds is read in the same text. -/
theorem Inside.child {ref child : NodeRef} (h : Inside text ref) (hchild : child ∈ ref.children) :
    Inside text child := by
  obtain ⟨htext, hnode⟩ := node_mem_children hchild
  obtain ⟨whole, ⟨name, typeName, param, start, stop, children⟩, index⟩ := ref
  exact ⟨htext.trans h.1, fun below hbelow => h.2 below
    (List.mem_cons_of_mem _ (backwards_mem_of_mem hnode below hbelow))⟩

theorem Inside.child? {ref child : NodeRef} {name : String} (h : Inside text ref)
    (hchild : ref.child? name = some child) : Inside text child :=
  h.child (List.mem_of_find?_eq_some hchild)

theorem Inside.typedChild? {ref child : NodeRef} {name : String} (h : Inside text ref)
    (hchild : ref.typedChild? name = some child) : Inside text child :=
  h.child (List.mem_of_find?_eq_some hchild)

mutual

/-- All nodes below a node are among those that are read from it backwards. -/
theorem below_inside (whole : Text) : ∀ (node : Node), ∀ ref ∈ NodeRef.below whole node,
    ref.text = whole ∧ ∀ n ∈ ref.node.backwards, n ∈ node.backwards
  | ⟨_, _, _, _, _, children⟩, ref, href => by
    obtain ⟨htext, hmem⟩ := belowAll_inside whole 0 children ref href
    exact ⟨htext, fun n hn => List.mem_cons_of_mem _ (hmem n hn)⟩

theorem belowAll_inside (whole : Text) : ∀ (index : Nat) (nodes : List Node),
    ∀ ref ∈ NodeRef.belowAll whole index nodes,
      ref.text = whole ∧ ∀ n ∈ ref.node.backwards, n ∈ Node.allBackwards nodes
  | _, [], _, href => nomatch href
  | index, node :: nodes, ref, href => by
    rcases List.mem_cons.mp href with rfl | href
    · exact ⟨rfl, fun n hn => List.mem_append_right _ hn⟩
    rcases List.mem_append.mp href with href | href
    · obtain ⟨htext, hmem⟩ := below_inside whole node ref href
      exact ⟨htext, fun n hn => List.mem_append_right _ (hmem n hn)⟩
    · obtain ⟨htext, hmem⟩ := belowAll_inside whole (index + 1) nodes ref href
      exact ⟨htext, fun n hn => List.mem_append_left _ (hmem n hn)⟩

end

theorem Inside.descendant {ref below : NodeRef} (h : Inside text ref)
    (hbelow : below ∈ ref.descendants) : Inside text below := by
  obtain ⟨htext, hmem⟩ := below_inside ref.text ref.node below hbelow
  exact ⟨htext.trans h.1, fun n hn => h.2 n (hmem n hn)⟩

/-! ## Characters and counts -/

theorem readEscape_fails {ref : NodeRef} (h : Inside text ref) :
    FailsInside text (readEscape vocabulary ref) := by
  have hclass (negated : Bool) (name : String) :
      FailsInside text (namedClass vocabulary ref negated name) := by
    simp only [namedClass]
    split
    · exact .ok
    · exact .error (h.malformed _)
  have hinvalid : FailsInside text (.error (malformed "Invalid escape" ref) :
      Except GrammarError Escaped) := .error (h.malformed _)
  unfold readEscape
  dsimp only
  split
  · exact hinvalid
  · split
    · exact .ok
    · exact hinvalid
  · split
    · split
      · exact .ok
      · exact hinvalid
    · split
      · split
        · exact .ok
        · exact hinvalid
      · split
        · exact hclass _ _
        · exact hinvalid

theorem readQuantifier_fails {ref : NodeRef} (h : Inside text ref) :
    FailsInside text (readQuantifier ref) := by
  simp only [readQuantifier]
  split
  · exact .error (h.malformed _)
  · split
    · exact .ok
    · next greed hgreed =>
      split
      · exact .error ((h.child? hgreed).malformed _)
      · exact .ok

theorem unquoteFrom_fails {ref : NodeRef} (h : ref.text = text) (count : Nat) :
    ∀ pos escapes, (∀ escape ∈ escapes, Inside text escape) →
      FailsInside text (unquoteFrom vocabulary ref count pos escapes) := by
  induction count with
  | zero => exact fun _ _ _ => .ok
  | succ count ih =>
    intro pos escapes hescapes
    have hplain : FailsInside text (do
        Pure.pure (ref.text.getD pos '\x00' ::
          (← unquoteFrom vocabulary ref count (pos + 1) escapes))) :=
      .bind (ih (pos + 1) escapes hescapes) fun _ => .pure
    unfold unquoteFrom
    split
    · exact .ok
    · cases escapes with
      | nil => exact hplain
      | cons escape others =>
        obtain ⟨hescape, hothers⟩ := List.forall_mem_cons.mp hescapes
        dsimp only
        split
        · next hstart =>
          refine .bind (readEscape_fails hescape) fun escaped => ?_
          cases escaped with
          | char c => exact .bind (ih _ others hothers) fun _ => .pure
          | set set =>
            have hpos : pos ≤ text.size := beq_iff_eq.mp hstart ▸ hescape.start
            exact .error ⟨hpos, h ▸ rfl⟩
        · exact hplain

theorem readQuoted_fails {ref : NodeRef} (h : Inside text ref) :
    FailsInside text (readQuoted vocabulary ref) := by
  unfold readQuoted
  split
  · exact .error (h.malformed _)
  · exact .bind (unquoteFrom_fails h.1 _ _ _ fun escape hescape =>
      h.descendant (List.mem_of_mem_filter hescape)) fun _ => .pure

/-! ## References -/

theorem knownType_fails {ref : NodeRef} (h : Inside text ref) (name : String)
    (param : Option String) : FailsInside text (knownType vocabulary ref name param) := by
  simp only [knownType]
  split
  · exact .ok
  · exact .error h.start

theorem readTypeRef_fails {ref : NodeRef} (h : Inside text ref) :
    FailsInside text (readTypeRef vocabulary ref) := by
  unfold readTypeRef
  split
  · exact .error (h.malformed _)
  · exact .bind (knownType_fails h _ _) fun _ => .pure

theorem readBackRef_fails {ref : NodeRef} (h : Inside text ref) :
    FailsInside text (readBackRef vocabulary ref) := by
  unfold readBackRef
  split
  · exact .error (h.malformed _)
  · exact knownType_fails h _ _

/-! ## Sets -/

theorem readSetChar_fails {ref : NodeRef} (h : Inside text ref) :
    FailsInside text (readSetChar vocabulary ref) := by
  unfold readSetChar
  split
  · next escape hescape => exact readEscape_fails (h.typedChild? hescape)
  · split
    · exact .ok
    · exact .error (h.malformed _)

theorem readPlainItem_fails {ref : NodeRef} (h : Inside text ref) :
    FailsInside text (readPlainItem vocabulary ref) := by
  unfold readPlainItem
  split
  · next lo hi hlo hhi =>
    refine .bind (readSetChar_fails (h.child? hlo)) fun low => ?_
    refine .bind (readSetChar_fails (h.child? hhi)) fun high => ?_
    split
    · exact .pure
    · exact .error (h.malformed _)
  · split
    · exact .error (h.malformed _)
    · next char hchar =>
      refine .bind (readSetChar_fails (h.typedChild? hchar)) fun escaped => ?_
      cases escaped <;> exact .pure

/-- Nodes side by side in the text. -/
def AllInside (text : Text) : List Node → Prop := AllNodes (Node.Sits (Allowed text) text.size)

theorem AllInside.head {node : Node} {nodes : List Node} (h : AllInside text (node :: nodes)) :
    Inside text (inText text node) := ⟨rfl, fun n hn => h n (List.mem_append_right _ hn)⟩

theorem AllInside.tail {node : Node} {nodes : List Node} (h : AllInside text (node :: nodes)) :
    AllInside text nodes := fun n hn => h n (List.mem_append_left _ hn)

theorem Inside.children {name typeName param : Option String} {start stop : Nat}
    {children : List Node}
    (h : Inside text (inText text ⟨name, typeName, param, start, stop, children⟩)) :
    AllInside text children := fun n hn => h.2 n (List.mem_cons_of_mem _ hn)

mutual

theorem readSet_fails : ∀ {node : Node}, Inside text (inText text node) →
    FailsInside text (readSet vocabulary text node)
  | ⟨_, _, _, _, _, children⟩, h => by
    unfold readSet
    exact .bind (readItems_fails h.children) fun _ => .pure

theorem readItems_fails : ∀ {nodes : List Node}, AllInside text nodes →
    FailsInside text (readItems vocabulary text nodes)
  | [], _ => .ok
  | ⟨_, _, _, _, _, children⟩ :: nodes, h => by
    unfold readItems
    split
    · exact readParts_fails h.head.children
    · exact readItems_fails h.tail

theorem readParts_fails : ∀ {nodes : List Node}, AllInside text nodes →
    FailsInside text (readParts vocabulary text nodes)
  | [], _ => .ok
  | ⟨_, _, _, _, _, children⟩ :: nodes, h => by
    unfold readParts
    split
    · exact .bind (readMembers_fails h.head.children) fun _ =>
        .bind (readParts_fails h.tail) fun _ => .pure
    · exact readParts_fails h.tail

theorem readMembers_fails : ∀ {nodes : List Node}, AllInside text nodes →
    FailsInside text (readMembers vocabulary text nodes)
  | [], _ => .ok
  | ⟨_, _, _, _, _, children⟩ :: nodes, h => by
    unfold readMembers
    split
    · exact .bind (readNestedSet_fails (readPlainItem_fails h.head) h.head.children) fun _ =>
        .bind (readMembers_fails h.tail) fun _ => .pure
    · exact readMembers_fails h.tail

theorem readNestedSet_fails {plain : Except GrammarError CharSet} : ∀ {nodes : List Node},
    FailsInside text plain → AllInside text nodes →
      FailsInside text (readNestedSet vocabulary text plain nodes)
  | [], hplain, _ => hplain
  | node :: nodes, hplain, h => by
    unfold readNestedSet
    split
    · exact readSet_fails h.head
    · exact readNestedSet_fails hplain h.tail

end

/-! ## Bodies -/

theorem readElement_fails {ref : NodeRef} (h : Inside text ref) (q : Quantifier) :
    FailsInside text (readElement vocabulary ref q) := by
  unfold readElement
  split
  · exact .bind (readTypeRef_fails h) fun _ => .pure
  · exact .bind (readBackRef_fails h) fun _ => .pure
  · refine .bind (readQuoted_fails h) fun ⟨quote, chars⟩ => ?_
    dsimp only
    split <;> exact .pure
  · refine .bind (readEscape_fails h) fun escaped => ?_
    cases escaped with
    | char c =>
      dsimp only
      split <;> exact .pure
    | set set => exact .pure
  · dsimp only
    split <;> exact .pure

mutual

theorem readBody_fails : ∀ {node : Node}, Inside text (inText text node) →
    FailsInside text (readBody vocabulary text node)
  | ⟨_, _, _, _, _, children⟩, h => by
    unfold readBody
    exact .bind (readSegments_fails h.children) fun _ => .pure

theorem readSegments_fails : ∀ {nodes : List Node}, AllInside text nodes →
    FailsInside text (readSegments vocabulary text nodes)
  | [], _ => .ok
  | ⟨_, _, _, _, _, children⟩ :: nodes, h => by
    unfold readSegments
    split
    · exact .bind (readPieces_fails h.head.children) fun _ =>
        .bind (readSegments_fails h.tail) fun _ => .pure
    · split
      · exact .bind (readSegments_fails h.tail) fun _ => .pure
      · exact readSegments_fails h.tail

theorem readPieces_fails : ∀ {nodes : List Node}, AllInside text nodes →
    FailsInside text (readPieces vocabulary text nodes)
  | [], _ => .ok
  | ⟨name, typeName, param, start, stop, children⟩ :: nodes, h => by
    unfold readPieces
    split
    · dsimp only
      split
      · next q hq =>
        exact .bind (readQuantifier_fails (h.head.typedChild? hq)) fun q =>
          .bind (readItem_fails (h.head.malformed _) h.head.children) fun _ =>
            .bind (readPieces_fails h.tail) fun _ => .pure
      · exact .bind .ok fun q =>
          .bind (readItem_fails (h.head.malformed _) h.head.children) fun _ =>
            .bind (readPieces_fails h.tail) fun _ => .pure
    · exact readPieces_fails h.tail

theorem readItem_fails {missing : GrammarError} {q : Quantifier} : ∀ {nodes : List Node},
    missing.PointsInto text → AllInside text nodes →
      FailsInside text (readItem vocabulary text missing q nodes)
  | [], hmissing, _ => .error hmissing
  | node :: nodes, hmissing, h => by
    unfold readItem
    split
    · exact readItem_fails hmissing h.tail
    · split
      · exact .bind (readGroup_fails h.head) fun _ => .pure
      · split
        · exact .bind (readSet_fails h.head) fun _ => .pure
        · exact readElement_fails h.head q

theorem readGroup_fails : ∀ {node : Node}, Inside text (inText text node) →
    FailsInside text (readGroup vocabulary text node)
  | ⟨_, _, _, _, _, children⟩, h => by
    unfold readGroup
    dsimp only
    refine .bind (readInner_fails (h.malformed _) h.children) fun body => ?_
    refine .bind (readSecond_fails h.children) fun second => ?_
    cases second <;>
    · refine .bind .pure fun entry => ?_
      split <;> exact .pure

theorem readInner_fails {unclosed : GrammarError} : ∀ {nodes : List Node},
    unclosed.PointsInto text → AllInside text nodes →
      FailsInside text (readInner vocabulary text unclosed nodes)
  | [], hunclosed, _ => .error hunclosed
  | node :: nodes, hunclosed, h => by
    unfold readInner
    split
    · exact readBody_fails h.head
    · exact readInner_fails hunclosed h.tail

theorem readSecond_fails : ∀ {nodes : List Node}, AllInside text nodes →
    FailsInside text (readSecond vocabulary text nodes)
  | [], _ => .ok
  | node :: nodes, h => by
    unfold readSecond
    split
    · exact .bind (readBody_fails h.head) fun _ => .pure
    · exact readSecond_fails h.tail

end

/-! ## Patterns -/

/-- Of the nodes that stand for an error the first one is reported, and it points into the
pattern. -/
theorem reportErrors_cases {refs : List NodeRef} (h : ∀ ref ∈ refs, Inside text ref)
    (herror : ∀ ref ∈ refs, isErrorNode ref = true) :
    refs = [] ∧ reportErrors refs {} = .ok () ∨
      ∃ error, error.PointsInto text ∧ reportErrors refs {} = .error error := by
  cases refs with
  | nil => exact .inl ⟨rfl, rfl⟩
  | cons ref refs =>
    have hinside : Inside text ref := h ref List.mem_cons_self
    have hnode : isErrorNode ref = true := herror ref List.mem_cons_self
    obtain ⟨whole, ⟨name, typeName, param, start, stop, children⟩, index⟩ := ref
    obtain rfl : typeName = some "fatalError" := by
      simp only [isErrorNode, Bool.or_eq_true, beq_iff_eq] at hnode
      exact hnode.resolve_left fun htype => (hinside.sits.type "error" htype).fatal rfl
    have hfind : category? "fatalError" = some Builtin.fatalError := rfl
    have htext : whole = text := hinside.1
    simp only [reportErrors, NodeRef.value, Node.value, hfind]
    refine .inr ⟨_, ?_, rfl⟩
    exact ⟨hinside.start, htext ▸ rfl⟩

theorem readFirst_fails {nodes : List Node} (h : AllInside text nodes) :
    FailsInside text (readFirst vocabulary text nodes) := by
  induction nodes with
  | nil => exact .ok
  | cons node nodes ih =>
    unfold readFirst
    split
    · exact readBody_fails h.head
    · exact ih h.tail

/-- A pattern is always matched, and the nodes of the match lie in it. -/
theorem start_tree (text : Text) : ∃ tree : MatchTree,
    (∀ fuel, fuelFor text.size ≤ fuel → start.parse fuel patternTypes text = .ok tree) ∧
    tree.text = text ∧ tree.root.stop ≤ text.size ∧ Inside text tree.rootRef ∧
    AllInside text tree.nodes := by
  obtain ⟨stop, nodes, hparse, hstop, hbetween, hsits⟩ := start_parse text
  have hroot : Node.Sits (Allowed text) text.size { start := 0, stop, children := nodes } :=
    ⟨Nat.zero_le _, hstop, hbetween, nofun⟩
  refine ⟨.ofNodes text 0 stop nodes, hparse, rfl, hstop, ⟨rfl, fun node hnode => ?_⟩, hsits⟩
  rcases List.mem_cons.mp hnode with rfl | hnode
  · exact hroot
  · exact hsits node hnode

theorem readTree_fails (pattern : String) :
    FailsInside (Text.ofString pattern) (readTree pattern) ∧
      ∀ tree, readTree pattern = .ok tree →
        tree.text = Text.ofString pattern ∧ AllInside (Text.ofString pattern) tree.nodes := by
  obtain ⟨tree, hparse, htext, hstop, hroot, hnodes⟩ := start_tree (Text.ofString pattern)
  unfold readTree
  dsimp only
  rw [hparse _ (Nat.le_refl _)]
  dsimp only [bind, Except.bind]
  rcases reportErrors_cases (fun ref href => hroot.descendant (List.mem_of_mem_filter href))
    (fun ref href => (List.mem_filter.mp href).2) with ⟨-, hreport⟩ | ⟨error, hpoints, hreport⟩
  · rw [hreport]
    dsimp only
    split
    · exact ⟨.error ⟨hstop, rfl⟩, fun _ hok => by cases hok⟩
    · refine ⟨.pure, fun _ hok => ?_⟩
      obtain rfl := Except.ok.inj hok
      exact ⟨htext, hnodes⟩
  · rw [hreport]
    exact ⟨.error hpoints, fun _ hok => by cases hok⟩

theorem read_fails (vocabulary : Vocabulary) (pattern : String) :
    FailsInside (Text.ofString pattern) (read vocabulary pattern) := by
  obtain ⟨hfails, htree⟩ := readTree_fails pattern
  unfold read
  cases h : readTree pattern with
  | error error => exact .error (hfails error h)
  | ok tree =>
    obtain ⟨htext, hnodes⟩ := htree tree h
    exact htext ▸ readFirst_fails (htext ▸ hnodes)

end Pattern

/-- What is wrong with a pattern is said of a place in it. -/
theorem TypeRegistry.compile_fails (registry : TypeRegistry) (pattern : String) :
    Pattern.FailsInside (Text.ofString pattern) (registry.compile pattern) := by
  unfold compile Grammar.compile
  cases h : Pattern.read registry.vocabulary pattern with
  | ok body => exact .ok
  | error error => exact .error (Pattern.read_fails registry.vocabulary pattern error h)

end TextGrammar
