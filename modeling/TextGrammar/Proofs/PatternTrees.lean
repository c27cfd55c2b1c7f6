/-
The trees of patterns. A pattern can be read if no node of its tree is a fatal
error and the tree reaches its end; a pattern of one sequence then compiles to
the entries of its items.
-/
import TextGrammar.Proofs.PatternBuilding

namespace TextGrammar.Pattern

open Inlay (Sound separated)

variable {vocabulary : Vocabulary} {text : Text}

/-! ## Nodes without errors -/

theorem below_children (text : Text) (node : Node) :
    NodeRef.below text node = NodeRef.belowAll text 0 node.children := by
  cases node
  rfl

mutual

/-- Every node is itself the first of those read from it, or is below it. -/
theorem mem_below (text : Text) : ∀ {node : Node}, ∀ below ∈ node.backwards,
    below = node ∨ ∃ ref ∈ NodeRef.below text node, ref.node = below
  | ⟨_, _, _, _, _, _⟩, below, h => by
    rcases List.mem_cons.mp h with rfl | h
    · exact .inl rfl
    · exact .inr (mem_belowAll text 0 below h)

theorem mem_belowAll (text : Text) (index : Nat) : ∀ {nodes : List Node},
    ∀ below ∈ Node.allBackwards nodes, ∃ ref ∈ NodeRef.belowAll text index nodes, ref.node = below
  | [], _, h => by cases h
  | node :: nodes, below, h => by
    rcases List.mem_append.mp h with h | h
    · obtain ⟨ref, href, hnode⟩ := mem_belowAll text (index + 1) below h
      exact ⟨ref, List.mem_cons_of_mem _ (List.mem_append_right _ href), hnode⟩
    · rcases mem_below text below h with rfl | ⟨ref, href, hnode⟩
      · exact ⟨_, List.mem_cons_self, rfl⟩
      · exact ⟨ref, List.mem_cons_of_mem _ (List.mem_append_left _ href), hnode⟩

end

/-- Nodes of which none is an error. -/
theorem no_error_nodes {nodes : List Node} (hinside : AllInside text nodes) :
    (NodeRef.belowAll text 0 nodes).filter isErrorNode = [] ↔ Sound nodes := by
  rw [List.filter_eq_nil_iff]
  refine ⟨fun h node hnode hfatal => ?_, fun h ref href herror => ?_⟩
  · obtain ⟨ref, href, rfl⟩ := mem_belowAll text 0 node hnode
    refine h ref href ?_
    simp only [isErrorNode, hfatal, Bool.or_eq_true, beq_self_eq_true, or_true]
  · have hmem : ref.node ∈ Node.allBackwards nodes := by
      refine (belowAll_inside text 0 nodes ref href).2 ref.node ?_
      obtain ⟨_, ⟨_, _, _, _, _, _⟩, _⟩ := ref
      exact List.mem_cons_self
    simp only [isErrorNode, Bool.or_eq_true, beq_iff_eq] at herror
    rcases herror with htype | htype
    · exact ((hinside _ hmem).type "error" htype).fatal rfl
    · exact h _ hmem htype

/-- The tree of a pattern that can be read: it has no errors and goes up to the end. -/
theorem readTree_ok {pattern : String} {tree : MatchTree} (h : readTree pattern = .ok tree) :
    start.parse (fuelFor (Text.ofString pattern).size) patternTypes (Text.ofString pattern) =
      .ok tree ∧ tree.text = Text.ofString pattern ∧
      (Text.ofString pattern)[tree.root.stop]? = none ∧ Sound tree.nodes ∧
      AllInside (Text.ofString pattern) tree.nodes := by
  obtain ⟨tree', hparse, htext, hstop, hroot, hnodes⟩ := start_tree (Text.ofString pattern)
  unfold readTree at h
  dsimp only at h
  rw [hparse _ (Nat.le_refl _)] at h
  obtain ⟨u, hreport, h⟩ := ok_of_bind h
  split at h
  · cases h
  · next hend =>
    obtain rfl : tree' = tree := Except.ok.inj h
    refine ⟨hparse _ (Nat.le_refl _), htext, hend, ?_, hnodes⟩
    refine (no_error_nodes hnodes).mp ?_
    rw [← htext, MatchTree.nodes, ← below_children]
    rcases reportErrors_cases (fun ref href => hroot.descendant (List.mem_of_mem_filter href))
      (fun ref href => (List.mem_filter.mp href).2) with ⟨hnone, -⟩ | ⟨error, -, herror⟩
    · exact hnone
    · cases hreport.symm.trans herror

/-- A pattern that is matched to its end without errors can be read. -/
theorem readTree_of_parse {pattern : String} {nodes : List Node}
    (hparse : start.parse (fuelFor (Text.ofString pattern).size) patternTypes
      (Text.ofString pattern) = .ok (.ofNodes (Text.ofString pattern) 0
        (Text.ofString pattern).size nodes)) (hsound : Sound nodes) :
    readTree pattern =
      .ok (.ofNodes (Text.ofString pattern) 0 (Text.ofString pattern).size nodes) := by
  obtain ⟨tree, htree, -, -, -, hnodes⟩ := start_tree (Text.ofString pattern)
  obtain rfl := Except.ok.inj ((htree _ (Nat.le_refl _)).symm.trans hparse)
  have herrors : (NodeRef.descendants (MatchTree.rootRef (.ofNodes (Text.ofString pattern) 0
      (Text.ofString pattern).size nodes))).filter isErrorNode = [] :=
    (no_error_nodes hnodes).mpr hsound
  have hend : (Text.ofString pattern)[(Text.ofString pattern).size]? = none :=
    Array.getElem?_eq_none (Nat.le_refl _)
  unfold readTree
  dsimp only
  rw [hparse]
  dsimp only [bind, Except.bind]
  rw [herrors]
  dsimp only [reportErrors, MatchTree.ofNodes]
  rw [hend]
  rfl

/-! ## Patterns of one sequence -/

/-- No separators stand in the body of the pattern itself, outside of all groups. -/
def Unseparated (pattern : String) : Prop :=
  ∀ tree, readTree pattern = .ok tree →
    ∀ body ∈ tree.nodes, ∀ node ∈ body.children, node.name ≠ some "sep"

theorem unseparated_iff {pattern : String} :
    Unseparated pattern ↔ ((readTree pattern).toOption.all fun tree =>
      tree.nodes.all fun body => body.children.all (·.name != some "sep")) = true := by
  cases h : readTree pattern with
  | error e => exact iff_of_true (fun tree htree => by rw [h] at htree; cases htree) rfl
  | ok tree =>
    simp only [Unseparated, h, Except.toOption, Option.all_some, List.all_eq_true, bne_iff_ne]
    exact ⟨fun hall => hall tree rfl, fun hall _ heq => Except.ok.inj heq ▸ hall⟩

instance (pattern : String) : Decidable (Unseparated pattern) :=
  decidable_of_iff _ unseparated_iff.symm

/-- The pattern is a sequence of these items and pieces. -/
structure PatternAt (l : Inlay) (k : Nat) (items blanks : List Node) (pieces : List Piece) :
    Prop where
  sequence : l.SequenceAt 0 k items blanks l.inner.size
  clean : l.Clean (items ++ blanks)
  inside : AllInside l.inner (items ++ blanks)
  reads : readPieces l.vocabulary l.inner (items ++ blanks) = .ok pieces

/-- What a body of one sequence is read to. -/
theorem readFirst_sequence (vocabulary : Vocabulary) (text : Text) (stop : Nat)
    (nodes : List Node) :
    readFirst vocabulary text [categoryNode "body" 0 stop [categoryNode "sequence" 0 stop nodes]] =
      (readPieces vocabulary text nodes).map fun pieces => .sequence (entriesOf [] pieces) := by
  have hread : readFirst vocabulary text
      [categoryNode "body" 0 stop [categoryNode "sequence" 0 stop nodes]] =
        ((readPieces vocabulary text nodes >>= fun pieces =>
          Except.ok ([], []) >>= fun r => pure (entriesOf [] pieces :: r.1, r.2)) >>= fun r =>
            pure (Body.ofSequences (r.1 :: r.2))) := rfl
  rw [hread]
  cases readPieces vocabulary text nodes <;> rfl

/-- A pattern that compiles and has no separators, inside another text. -/
theorem Inlay.of_compile (l : Inlay) {pattern : String} {g : Grammar}
    (hinner : l.inner = Text.ofString pattern)
    (hcompile : Grammar.compile l.vocabulary pattern = .ok g) (hsole : Unseparated pattern) :
    ∃ k items blanks pieces, PatternAt l k items blanks pieces ∧ g = ⟨entriesOf [] pieces⟩ := by
  have hread : ∃ body, Pattern.read l.vocabulary pattern = .ok body ∧ g = body.grammar := by
    unfold Grammar.compile at hcompile
    cases hbody : Pattern.read l.vocabulary pattern with
    | error e =>
      rw [hbody] at hcompile
      cases hcompile
    | ok body =>
      rw [hbody] at hcompile
      exact ⟨body, rfl, (Except.ok.inj hcompile).symm⟩
  obtain ⟨body, hread, rfl⟩ := hread
  obtain ⟨tree, htree, hfirst⟩ := ok_of_bind hread
  obtain ⟨hparse, htext, hend, hsound, hinside⟩ := readTree_ok htree
  obtain ⟨_, hR, hin, k, items, blanks, stop, later, rfl, hbody⟩ :=
    Inlay.body_yields (fun _ _ hj => Inlay.group_yields hj) (Nat.zero_le l.inner.size)
  have hstart : Reads l.inner start.entries 0 _ := .last (.once rfl (.category body_category hR))
  rw [← hinner] at hparse hend hinside
  obtain rfl := Except.ok.inj (hparse.symm.trans hstart.parse)
  have hsize : later.stop = l.inner.size := by
    have hle : later.stop ≤ l.inner.size := (hin _ rfl).2
    by_contra hne
    have hlt : later.stop < l.inner.size := by omega
    have hget : l.inner[later.stop]? = none := hend
    rw [Array.getElem?_eq_getElem hlt] at hget
    cases hget
  have hunseparated : later = ⟨stop, []⟩ := by
    refine hbody.unseparated.resolve_right fun hsep => ?_
    obtain ⟨node, hnode, hname⟩ := hsep
    exact hsole _ htree _ List.mem_cons_self node (List.mem_cons_of_mem _ hnode) hname
  subst hunseparated
  obtain rfl : stop = l.inner.size := hsize
  have hmapped : (readPieces l.vocabulary l.inner (items ++ blanks)).map
      (fun pieces => Body.sequence (entriesOf [] pieces)) = .ok body :=
    (readFirst_sequence _ _ _ _).symm.trans hfirst
  obtain ⟨pieces, hpieces, rfl⟩ : ∃ pieces, readPieces l.vocabulary l.inner (items ++ blanks) =
      .ok pieces ∧ Body.sequence (entriesOf [] pieces) = body := by
    cases hread : readPieces l.vocabulary l.inner (items ++ blanks) with
    | error e =>
      rw [hread] at hmapped
      cases hmapped
    | ok pieces =>
      rw [hread] at hmapped
      exact ⟨pieces, rfl, Except.ok.inj hmapped⟩
  have hitems : Sound (items ++ blanks) := hsound.children.children
  exact ⟨k, items, blanks, pieces, ⟨hbody.first, hbody.first.clean hitems pieces hpieces,
    hinside.head.children.head.children, hpieces⟩, rfl⟩

/-- Items and blanks that make up a whole text are a pattern of the pieces they are read to. -/
theorem compile_of_chain (vocabulary : Vocabulary) {pattern : String} {k : Nat}
    {items blanks : List Node}
    (hitems : Chain (SpacedItem (Text.ofString pattern)) 0 items k)
    (hblanks : Blanks (Text.ofString pattern) k blanks (Text.ofString pattern).size)
    (hsound : Sound (items ++ blanks)) :
    Grammar.compile vocabulary pattern =
      (readPieces vocabulary (Text.ofString pattern) (items ++ blanks)).map fun pieces =>
        ⟨entriesOf [] pieces⟩ := by
  have hend : (Text.ofString pattern)[(Text.ofString pattern).size]? = none :=
    Array.getElem?_eq_none (Nat.le_refl _)
  have hignored : Attempts (Text.ofString pattern) (many (category "ignored"))
      (Text.ofString pattern).size none := by
    refine no_ignored (fun x hx => ?_) fun hparen => ?_
    · rw [hend] at hx
      cases hx
    · rw [hend] at hparen
      cases hparen
  have hitem : Attempts (Text.ofString pattern) (category "item") (Text.ofString pattern).size
      none := no_item fun x hx => by
    rw [hend] at hx
    cases hx
  have hbar : (Text.ofString pattern)[(Text.ofString pattern).size]? ≠ some '|' := by
    rw [hend]
    rintro ⟨⟩
  have hbody := Reads.last (body_reads hitems hblanks hignored hitem hbar)
  have htree := readTree_of_parse (Reads.parse hbody)
    (.node (.node hsound (by decide)) (by decide))
  have hread : Pattern.read vocabulary pattern =
      (readPieces vocabulary (Text.ofString pattern) (items ++ blanks)).map fun pieces =>
        .sequence (entriesOf [] pieces) := by
    unfold Pattern.read
    rw [htree]
    exact readFirst_sequence vocabulary (Text.ofString pattern) _ _
  rw [Grammar.compile, hread]
  cases readPieces vocabulary (Text.ofString pattern) (items ++ blanks) <;> rfl

/-- Such a pattern compiles if its pieces can be read. -/
theorem compile_of_sequence {pattern : String} {k : Nat} {items blanks : List Node}
    {pieces : List Piece} (hitems : Chain (SpacedItem (Text.ofString pattern)) 0 items k)
    (hblanks : Blanks (Text.ofString pattern) k blanks (Text.ofString pattern).size)
    (hsound : Sound (items ++ blanks))
    (hpieces : readPieces vocabulary (Text.ofString pattern) (items ++ blanks) = .ok pieces) :
    Grammar.compile vocabulary pattern = .ok ⟨entriesOf [] pieces⟩ := by
  rw [compile_of_chain vocabulary hitems hblanks hsound, hpieces]
  rfl

end TextGrammar.Pattern
