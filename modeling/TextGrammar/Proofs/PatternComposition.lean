/-
Patterns next to each other and in parentheses. A line break and an empty group
keep the meaning of what stands on both sides of them, and parentheses that of
what they enclose, as long as the patterns are whole and no separators stand in
them outside of groups.
-/
import TextGrammar.Proofs.PatternRereading
import TextGrammar.Proofs.PatternTrees
import TextGrammar.Types.Registry

namespace TextGrammar

namespace Pattern

open Inlay (Sound captureEntries signs)

variable {vocabulary : Vocabulary} {text : Text} {i j k : Nat} {items blanks : List Node}
  {pieces : List Piece}

/-! ## Sequences in a text -/

/-- Items and blanks from one place of a text to another, which are read to these pieces. -/
structure SequenceIn (vocabulary : Vocabulary) (text : Text) (i k j : Nat)
    (items blanks : List Node) (pieces : List Piece) : Prop where
  chain : Chain (SpacedItem text) i items k
  after : Blanks text k blanks j
  sound : Sound (items ++ blanks)
  reads : readPieces vocabulary text (items ++ blanks) = .ok pieces

mutual

theorem backwards_shift (n : Nat) : ∀ node : Node,
    (node.shift n).backwards = node.backwards.map (Node.shift n)
  | ⟨_, _, _, _, _, children⟩ => by
    rw [Node.shift, Node.backwards, Node.backwards, allBackwards_shift n children]
    rfl

theorem allBackwards_shift (n : Nat) : ∀ nodes : List Node,
    Node.allBackwards (Node.shiftAll n nodes) = (Node.allBackwards nodes).map (Node.shift n)
  | [] => rfl
  | node :: nodes => by
    rw [Node.shiftAll, Node.allBackwards, Node.allBackwards, allBackwards_shift n nodes,
      backwards_shift n node, List.map_append]

end

theorem sound_shift {n : Nat} {nodes : List Node} (h : Sound nodes) :
    Sound (Node.shiftAll n nodes) := by
  intro node hnode
  rw [allBackwards_shift] at hnode
  obtain ⟨original, hmem, rfl⟩ := List.mem_map.mp hnode
  rw [Node.shift_typeName]
  exact h original hmem

/-- A pattern in a longer text is a sequence of the same pieces there. -/
theorem PatternAt.moved {l : Inlay} (h : PatternAt l k items blanks pieces) :
    SequenceIn l.vocabulary l.outer l.shift (k + l.shift) (l.inner.size + l.shift)
      (Node.shiftAll l.shift items) (Node.shiftAll l.shift blanks) pieces := by
  obtain ⟨hitems, hblanks⟩ := AllNodes.append_iff.mp h.clean
  have hchain := h.sequence.moves hitems
  rw [Nat.zero_add] at hchain
  refine ⟨hchain, h.sequence.after.moves hblanks, ?_, ?_⟩
  · rw [← Node.shiftAll_append]
    exact sound_shift h.clean.sound
  · rw [← Node.shiftAll_append]
    exact Inlay.readPieces_copies h.inside _ h.reads

namespace SequenceIn

/-- A character of white space after a sequence is one more blank. -/
theorem blank {c : Char} (h : SequenceIn vocabulary text i k j items blanks pieces)
    (hget : text[j]? = some c) (hspace : (CharSet.named "whitespace").contains .standard c = true) :
    SequenceIn vocabulary text i k (j + 1) items
      (blanks ++ [categoryNode "ignored" j (j + 1) []]) pieces := by
  refine ⟨h.chain, h.after.append (blank_step hget hspace), ?_, ?_⟩
  · rw [← List.append_assoc]
    exact AllNodes.append_iff.mpr ⟨h.sound, Sound.node (by rintro _ ⟨⟩) (by decide)⟩
  · rw [← List.append_assoc, readPieces_append, h.reads]
    exact congrArg Except.ok (List.append_nil pieces)

/-- Sequences with an item between them. -/
theorem append {item : Match} {k' j' : Nat} {items' blanks' : List Node}
    {middle pieces' : List Piece} (h : SequenceIn vocabulary text i k j items blanks pieces)
    (hend : Attempts text (many (category "ignored")) j none)
    (hopen : ∃ x, text[j]? = some x ∧ x ∉ signs) (hitem : Steps text (category "item") j item)
    (hlt : j < item.stop) (hsound : Sound item.nodes)
    (hread : readPieces vocabulary text item.nodes = .ok middle)
    (h' : SequenceIn vocabulary text item.stop k' j' items' blanks' pieces') :
    SequenceIn vocabulary text i k' j' (items ++ ((blanks ++ item.nodes) ++ items')) blanks'
      (pieces ++ (middle ++ pieces')) := by
  have hspaced : SpacedItem text k (item.after blanks) :=
    ⟨j, blanks, item, h.after, hend, hopen, hitem, hlt, rfl⟩
  have hnodes : items ++ ((blanks ++ item.nodes) ++ items') ++ blanks' =
      (items ++ blanks) ++ (item.nodes ++ (items' ++ blanks')) := by
    simp only [List.append_assoc]
  refine ⟨h.chain.append (.cons hspaced ?_ h'.chain), h'.after, ?_, ?_⟩
  · exact Nat.lt_of_le_of_lt h.after.chain.le hlt
  · rw [hnodes]
    exact AllNodes.append_iff.mpr ⟨h.sound, AllNodes.append_iff.mpr ⟨hsound, h'.sound⟩⟩
  · rw [hnodes, readPieces_append, h.reads, readPieces_append, hread, h'.reads]
    rfl

/-- The blanks a sequence begins with, if none follow it. What follows them is neither a blank nor
a sign. -/
theorem lead (h : SequenceIn vocabulary text i k j items blanks pieces)
    (hignored : Attempts text (many (category "ignored")) j none) (hsign : text[j]? ≠ some '^') :
    ∃ lead s k' items' blanks', Blanks text i lead s ∧
      Attempts text (many (category "ignored")) s none ∧ text[s]? ≠ some '^' ∧ Sound lead ∧
      SequenceIn vocabulary text s k' j items' blanks' pieces := by
  obtain ⟨hchain, hafter, hsound, hreads⟩ := h
  cases hchain with
  | nil =>
    refine ⟨blanks, j, j, [], [], hafter, hignored, hsign, hsound, .nil j,
      ⟨.nil j, by rintro _ ⟨⟩⟩, by rintro _ ⟨⟩, ?_⟩
    have hnone : readPieces vocabulary text (blanks ++ []) = readPieces vocabulary text [] :=
      readPieces_ignored hafter.ignored []
    rw [List.append_nil] at hnone
    exact hnone.symm.trans hreads
  | cons hfirst hlt hlater =>
    obtain ⟨s, lead, item, hlead, hend, ⟨x, hx, hsign⟩, hitem, hstop, rfl⟩ := hfirst
    have hcaret : text[s]? ≠ some '^' := by
      rw [hx]
      rintro ⟨⟩
      exact hsign (by decide)
    have hspaced : SpacedItem text s item :=
      ⟨s, [], item, ⟨.nil s, by rintro _ ⟨⟩⟩, hend, ⟨x, hx, hsign⟩, hitem, hstop, rfl⟩
    rw [Match.after, List.append_assoc, List.append_assoc] at hsound hreads
    rw [readPieces_ignored hlead.ignored] at hreads
    obtain ⟨hsoundLead, hsoundRest⟩ := AllNodes.append_iff.mp hsound
    rw [← List.append_assoc] at hsoundRest hreads
    exact ⟨lead, s, k, _, blanks, hlead, hend, hcaret, hsoundLead, .cons hspaced hstop hlater,
      hafter, hsoundRest, hreads⟩

end SequenceIn

/-! ## Groups -/

/-- No child meets a condition that none of the nodes meets. -/
theorem no_first_child {ref : NodeRef} {p : Node → Bool}
    (h : ∀ node ∈ ref.node.children, p node = false) :
    ref.children.find? (fun child => p child.node) = none := by
  refine List.find?_eq_none.mpr fun child hchild => ?_
  obtain ⟨⟨node, index⟩, hmem, rfl⟩ := List.mem_map.mp hchild
  exact ne_true_of_eq_false (h node (List.fst_mem_of_mem_zipIdx hmem))

theorem no_child_named {ref : NodeRef} {name : String}
    (h : ∀ node ∈ ref.node.children, node.name ≠ some name) : ref.child? name = none :=
  no_first_child (p := fun node => node.name == some name) fun node hnode =>
    beq_false_of_ne (h node hnode)

theorem no_child {ref : NodeRef} (h : ∀ node ∈ ref.node.children, node.name = none)
    (name : String) : ref.child? name = none :=
  no_child_named fun node hnode heq => nomatch (h node hnode).symm.trans heq

/-- A group without a name is read to its body. -/
theorem readGroup_node {s : Nat} {lead nodes : List Node} (hlead : IsIgnored lead)
    (hread : readPieces vocabulary text nodes = .ok pieces) :
    readGroup vocabulary text (groupNode i j s lead nodes) =
      .ok (Body.entry (.sequence (entriesOf [] pieces))) := by
  have hskip : IsSkipped ([.leaf i (i + 1)] ++ lead) :=
    List.forall_mem_append.mpr ⟨IsSkipped.leaf _ _, hlead.skipped⟩
  have hbody (unclosed : GrammarError) (later : List Node) : readInner vocabulary text unclosed
      (([.leaf i (i + 1)] ++ lead) ++
        ([categoryNode "body" s j [categoryNode "sequence" s j nodes]] ++ later)) =
          .ok (.sequence (entriesOf [] pieces)) := by
    rw [readInner_skipped hskip]
    have hinner : readInner vocabulary text unclosed
        ([categoryNode "body" s j [categoryNode "sequence" s j nodes]] ++ later) =
          ((readPieces vocabulary text nodes >>= fun pieces =>
            Except.ok ([], []) >>= fun r => pure (entriesOf [] pieces :: r.1, r.2)) >>= fun r =>
              pure (Body.ofSequences (r.1 :: r.2))) := rfl
    rw [hinner, hread]
    rfl
  have hsecond : readSecond vocabulary text (([.leaf i (i + 1)] ++ lead) ++
      ([categoryNode "body" s j [categoryNode "sequence" s j nodes]] ++ [.leaf j (j + 1)])) =
        .ok none := by
    rw [readSecond_skipped hskip]
    rfl
  have hnames : ∀ node ∈ (inText text (groupNode i j s lead nodes)).node.children,
      node.name = none := by
    intro node hnode
    rcases List.mem_append.mp hnode with hnode | hnode
    · rw [List.mem_singleton.mp hnode]
      rfl
    rcases List.mem_append.mp hnode with hnode | hnode
    · exact (hlead node hnode).2
    rcases List.mem_append.mp hnode with hnode | hnode <;>
    · rw [List.mem_singleton.mp hnode]
      rfl
  have hchild := no_child hnames
  rw [List.append_assoc] at hsecond
  rw [groupNode, categoryNode] at hchild ⊢
  rw [readGroup]
  dsimp only
  rw [hchild "not", hchild "kind", hsecond, ← List.append_assoc, hbody]
  rfl

/-- A group as an item is read to its body, repeated once. -/
theorem readPieces_group {s : Nat} {lead nodes : List Node} (hlead : IsIgnored lead)
    (hread : readPieces vocabulary text nodes = .ok pieces) :
    readPieces vocabulary text [categoryNode "item" i (j + 1) [groupNode i j s lead nodes]] =
      .ok [.entry ((Body.entry (.sequence (entriesOf [] pieces))).quantified .one)] := by
  have hitem : readPieces vocabulary text
      [categoryNode "item" i (j + 1) [groupNode i j s lead nodes]] =
        ((readGroup vocabulary text (groupNode i j s lead nodes) >>= fun entry =>
          pure (Piece.entry (entry.quantified .one))) >>= fun piece =>
            Except.ok [] >>= fun pieces => pure (piece :: pieces)) := rfl
  rw [hitem, readGroup_node hlead hread]
  rfl

/-- Parentheses around a sequence make a group with its body. -/
theorem SequenceIn.group (h : SequenceIn vocabulary text (i + 1) k j items blanks pieces)
    (hopen : text[i]? = some '(') (hclose : text[j]? = some ')')
    (hcapture : Reads text captureEntries (i + 1) none) : ∃ nodes,
      Steps text (category "group") i ⟨j + 1, nodes⟩ ∧ Sound nodes ∧ i < j ∧
      readPieces vocabulary text [categoryNode "item" i (j + 1) nodes] =
        .ok [.entry ((Body.entry (.sequence (entriesOf [] pieces))).quantified .one)] := by
  obtain ⟨lead, s, k', items', blanks', hlead, hend, hcaret, hsound, h'⟩ :=
    h.lead (bare_close hclose) (Text.no_other_at hclose (by decide))
  refine ⟨_, group_steps hopen hcapture hlead hend hcaret h'.chain h'.after hclose, ?_, ?_,
    readPieces_group hlead.ignored h'.reads⟩
  · refine .node (AllNodes.append_iff.mpr ⟨Sound.leaf _ _, AllNodes.append_iff.mpr ⟨hsound,
      AllNodes.append_iff.mpr ⟨?_, Sound.leaf _ _⟩⟩⟩) (by decide)
    exact Sound.node (.node h'.sound (by decide)) (by decide)
  · have hle := Nat.le_trans hlead.chain.le (Nat.le_trans h'.chain.le h'.after.chain.le)
    exact Nat.lt_of_lt_of_le (Nat.lt_succ_self i) hle

/-- A name for a group begins with its kind. -/
theorem no_capture (h : ∀ x, text[i]? = some x → x ≠ '#' ∧ x ≠ '$') :
    Reads text captureEntries i none := by
  have hkind : ((Entry.ofChecker (.char (.ofString "#$"))).named "kind").MatchedBy patternTypes
      none (.char (.ofString "#$")) := (Entry.MatchedBy.ofChecker _).named _
  refine .stuck (.once rfl (.not_char hkind fun x hx => ?_))
  refine eq_false_of_ne_true fun hset => ?_
  obtain ⟨hhash, hdollar⟩ := h x hx
  rw [show CharSet.ofString "#$" = .members ['#', '$'] from rfl] at hset
  simp [CharSet.contains, hhash, hdollar] at hset

/-! ## Entries -/

/-- An entry between pieces stands between their entries. -/
theorem entriesOf_entry (pending : List Char) (pieces later : List Piece) (e : Entry) :
    entriesOf pending (pieces ++ .entry e :: later) =
      entriesOf pending pieces ++ e :: entriesOf [] later := by
  induction pieces generalizing pending with
  | nil => rfl
  | cons piece pieces ih =>
    cases piece with
    | literal chars => exact ih _
    | entry e' =>
      rw [List.cons_append, entriesOf, entriesOf, ih, List.append_assoc]
      rfl

/-- A sequence that makes up a whole text. -/
theorem SequenceIn.compile {pattern : String} (h : SequenceIn vocabulary (Text.ofString pattern) 0 k
    (Text.ofString pattern).size items blanks pieces) :
    Grammar.compile vocabulary pattern = .ok ⟨entriesOf [] pieces⟩ :=
  compile_of_sequence h.chain h.after h.sound h.reads

/-! ## Texts -/

theorem ofString_append (a b : String) :
    Text.ofString (a ++ b) = Text.ofString a ++ Text.ofString b := by
  simp only [Text.ofString, String.toList_append, List.append_toArray]

/-- A text between two others, with a line break after it if there is anything. -/
def Inlay.between (vocabulary : Vocabulary) {before inner after outer : Text}
    (houter : outer = before ++ (inner ++ after)) (hafter : ∀ c, after[0]? = some c → c = '\n') :
    Inlay where
  vocabulary := vocabulary
  inner := inner
  outer := outer
  shift := before.size
  same i hi := by
    rw [houter, Array.getElem?_append_right (by omega), Nat.add_sub_cancel,
      Array.getElem?_append_left hi]
  beyond c hc := by
    refine hafter c ?_
    rwa [houter, Array.getElem?_append_right (by omega), Nat.add_sub_cancel,
      Array.getElem?_append_right (Nat.le_refl _), Nat.sub_self] at hc

theorem getElem?_after (a b : Text) (i : Nat) : (a ++ b)[a.size + i]? = b[i]? := by
  rw [Array.getElem?_append_right (Nat.le_add_right _ _), Nat.add_sub_cancel_left]

theorem SequenceIn.nil (vocabulary : Vocabulary) (text : Text) (i : Nat) :
    SequenceIn vocabulary text i i i [] [] [] :=
  ⟨.nil i, ⟨.nil i, by rintro _ ⟨⟩⟩, by rintro _ ⟨⟩, rfl⟩

/-- A pattern that does not come to an end at once begins with no sign. -/
theorem PatternAt.opens {l : Inlay} (h : PatternAt l k items blanks pieces) :
    ∀ x, l.inner[0]? = some x → x ∉ signs := by
  intro x hx
  rcases h.sequence.opens with hsize | ⟨y, hy, hsign⟩
  · rw [hsize, Array.getElem?_eq_none (Nat.le_refl _)] at hx
    cases hx
  · rw [hx] at hy
    cases hy
    exact hsign

/-- A pattern without the sign of a name at its beginning does not name a group around it: where it
begins with a reference, that is no kind of a name either. -/
theorem PatternAt.unnamed {l : Inlay} (h : PatternAt l k items blanks pieces)
    (hhash : l.inner[0]? ≠ some '#') : Reads l.outer captureEntries l.shift none := by
  by_cases hdollar : l.inner[0]? = some '$'
  · have hlt : 0 < l.inner.size := (Array.getElem?_eq_some_iff.mp hdollar).1
    have hunnamed := h.sequence.unnamed hdollar
      (Inlay.Clean.sound (AllNodes.append_iff.mp h.clean).1)
    have hnone : Reads l.inner captureEntries 0 none := hunnamed.resolve_left (Nat.ne_of_lt hlt)
    obtain ⟨found, hread, -, hsteady, -⟩ := Inlay.capture_yields (Nat.zero_le l.inner.size)
    obtain rfl := hread.unique hnone
    have houter := hsteady.alike
    rw [Inlay.Alike, Nat.zero_add] at houter
    exact houter
  · refine no_capture fun x hx => ?_
    rcases Nat.eq_zero_or_pos l.inner.size with hzero | hpos
    · have hbeyond := l.beyond x
      rw [hzero, Nat.zero_add] at hbeyond
      rw [hbeyond hx]
      decide
    · have hsame := l.same 0 hpos
      rw [Nat.zero_add, hx] at hsame
      refine ⟨?_, ?_⟩
      · rintro rfl
        exact hhash hsame.symm
      · rintro rfl
        exact hdollar hsame.symm

/-! ## Patterns next to each other -/

/-- An empty group between two patterns. -/
theorem compile_next {p q : String} {g g' : Grammar} (hp : Grammar.compile vocabulary p = .ok g)
    (hq : Grammar.compile vocabulary q = .ok g') (hsole : Unseparated p) (hsole' : Unseparated q) :
    Grammar.compile vocabulary (p ++ "\n()" ++ q) =
      .ok ⟨g.entries ++ .ofChecker (.sequence []) :: g'.entries⟩ := by
  let before := Text.ofString p
  let after := Text.ofString q
  let middle : Text := #['\n', '(', ')']
  let text := Text.ofString (p ++ "\n()" ++ q)
  have htext : text = before ++ (middle ++ after) := by
    rw [← Array.append_assoc]
    simp only [text, ofString_append]
    rfl
  have hmiddle (i : Nat) (hi : i < 3) : text[before.size + i]? = middle[i]? := by
    rw [htext, getElem?_after, Array.getElem?_append_left hi]
  have hline : text[before.size]? = some '\n' := hmiddle 0 (by decide)
  have hopen : text[before.size + 1]? = some '(' := hmiddle 1 (by decide)
  have hclose : text[before.size + 2]? = some ')' := hmiddle 2 (by decide)
  have hlast : text[before.size + 3]? = after[0]? := by
    rw [htext, getElem?_after]
    exact getElem?_after middle after 0
  have hbefore : text = #[] ++ (before ++ (middle ++ after)) := htext.trans Array.empty_append.symm
  have hafter : text = (before ++ middle) ++ (after ++ #[]) := by
    rw [htext, Array.append_empty, Array.append_assoc]
  obtain ⟨k, items, blanks, pieces, hat, rfl⟩ := (Inlay.between vocabulary hbefore fun c hc => by
    rw [Array.getElem?_append_left (by decide)] at hc
    exact (Option.some.inj hc).symm).of_compile rfl hp hsole
  obtain ⟨k', items', blanks', pieces', hat', rfl⟩ :=
    (Inlay.between vocabulary hafter (by rintro c ⟨⟩)).of_compile rfl hq hsole'
  have hsize : after.size + (before ++ middle).size = text.size := by
    have hsizes := congrArg Array.size hafter
    simp only [Array.size_append, Array.size_empty] at hsizes ⊢
    omega
  have hmoved : SequenceIn vocabulary text (before ++ middle).size _
      (after.size + (before ++ middle).size) _ _ pieces' := hat'.moved
  have hshift : (before ++ middle).size = before.size + 3 := Array.size_append
  rw [hsize, hshift] at hmoved
  have hcapture : Reads text captureEntries (before.size + 1 + 1) none := by
    refine no_capture fun x hx => ?_
    obtain rfl := Option.some.inj (hclose.symm.trans hx)
    decide
  obtain ⟨nodes, hgroup, hsound, hlt, hread⟩ :=
    (SequenceIn.nil vocabulary text (before.size + 2)).group hopen hclose hcapture
  have hitem := group_item hopen hgroup fun x hx => hat'.opens x (hlast.symm.trans hx)
  have hend : Attempts text (many (category "ignored")) (before.size + 1) none := by
    refine no_ignored (fun x hx => ?_) fun _ hstar => ?_
    · obtain rfl := Option.some.inj (hopen.symm.trans hx)
      decide
    · cases hclose.symm.trans hstar
  have hwhole := (hat.moved.blank hline (by decide)).append hend ⟨_, hopen, by decide⟩ hitem
    (Nat.lt_succ_of_lt hlt) (.node hsound (by decide)) hread hmoved
  have hcompile : Grammar.compile vocabulary (p ++ "\n()" ++ q) = .ok _ := hwhole.compile
  rw [hcompile]
  exact congrArg (fun entries => Except.ok (Grammar.mk entries))
    (entriesOf_entry [] pieces pieces' _)

/-! ## Patterns in parentheses -/

/-- A pattern that does not look like the name of a group, in parentheses. -/
theorem compile_group {p : String} {g : Grammar} (hp : Grammar.compile vocabulary p = .ok g)
    (hsole : Unseparated p) (hname : p.toList.head? ≠ some '#') :
    Grammar.compile vocabulary ("(" ++ p ++ "\n)") =
      .ok ⟨[(Body.entry (.sequence g.entries)).quantified .one]⟩ := by
  let inner := Text.ofString p
  let text := Text.ofString ("(" ++ p ++ "\n)")
  have htext : text = #['('] ++ (inner ++ #['\n', ')']) := by
    rw [← Array.append_assoc]
    simp only [text, ofString_append]
    rfl
  obtain ⟨k, items, blanks, pieces, hat, rfl⟩ := (Inlay.between vocabulary htext
    fun c hc => (Option.some.inj hc).symm).of_compile rfl hp hsole
  have hopen : text[0]? = some '(' := by
    rw [htext, Array.getElem?_append_left (by decide)]
    rfl
  have hinside (i : Nat) : text[1 + i]? = (inner ++ #['\n', ')'])[i]? := by
    rw [htext]
    exact getElem?_after #['('] _ i
  have hrest (i : Nat) : text[inner.size + 1 + i]? = #['\n', ')'][i]? := by
    rw [show inner.size + 1 + i = 1 + (inner.size + i) by omega, hinside, getElem?_after]
  have hline : text[inner.size + 1]? = some '\n' := hrest 0
  have hclose : text[inner.size + 1 + 1]? = some ')' := hrest 1
  have hcapture : Reads text captureEntries (0 + 1) none := by
    refine hat.unnamed fun hhash => hname ?_
    rw [List.head?_eq_getElem?, ← hhash]
    exact List.getElem?_toArray.symm
  obtain ⟨nodes, hgroup, hsound, hlt, hread⟩ :=
    (hat.moved.blank hline (by decide)).group hopen hclose hcapture
  have hend : text[inner.size + 1 + 1 + 1]? = none := hrest 2
  have hitem := group_item hopen hgroup fun x hx => by
    cases hend.symm.trans hx
  have hignored : Attempts text (many (category "ignored")) 0 none := by
    refine no_ignored (fun x hx => ?_) fun _ hstar => ?_
    · obtain rfl := Option.some.inj (hopen.symm.trans hx)
      decide
    · rcases Nat.eq_zero_or_pos inner.size with hzero | hpos
      · rw [hzero] at hline
        cases hline.symm.trans hstar
      · rw [hinside 0, Array.getElem?_append_left hpos] at hstar
        exact hat.opens _ hstar (by decide)
  have hsize : inner.size + 1 + 1 + 1 = text.size := by
    have hsizes := congrArg Array.size htext
    have hbefore : (#['('] : Text).size = 1 := rfl
    have hafter : (#['\n', ')'] : Text).size = 2 := rfl
    simp only [Array.size_append, hbefore, hafter] at hsizes
    omega
  have hnil := SequenceIn.nil vocabulary text text.size
  rw [← hsize] at hnil
  have hwhole := (SequenceIn.nil vocabulary text 0).append hignored ⟨_, hopen, by decide⟩ hitem
    (Nat.lt_succ_of_lt hlt) (.node hsound (by decide)) hread hnil
  rw [hsize] at hwhole
  exact hwhole.compile

end Pattern

open Pattern

/-- **Compiling is compositional.** Of two patterns whose bodies have no separators of their own,
with a line break and an empty group between them, come the entries of the first, the empty group
and the entries of the second. A pattern that does not begin with the sign of a name keeps its
entries in parentheses: they are the grammar of the one entry there is; only a sole entry with
nothing around its target stays as it is, repeated exactly once. -/
theorem TypeRegistry.compile_compositional (registry : TypeRegistry) {p q : String}
    {g g' : Grammar} (hp : registry.compile p = .ok g) (hq : registry.compile q = .ok g')
    (hsole : Unseparated p) (hsole' : Unseparated q) :
    registry.compile (p ++ "\n()" ++ q) =
      .ok ⟨g.entries ++ [.ofChecker (.grammar ⟨[]⟩)] ++ g'.entries⟩ ∧
    (p.toList.head? ≠ some '#' → ∃ entry,
      registry.compile ("(" ++ p ++ "\n)") = .ok ⟨[entry]⟩ ∧
      (∀ e, g.entries = [e] → e.isPlain = true → entry = e.quantified .one) ∧
      ((∀ e, g.entries = [e] → e.isPlain = false) → entry = .ofChecker (.grammar g))) := by
  refine ⟨?_, fun hname =>
    ⟨_, compile_group hp hsole hname, fun e he hplain => ?_, fun hother => ?_⟩⟩
  · rw [List.append_assoc]
    exact compile_next hp hq hsole hsole'
  · rw [he, Body.entry, if_pos hplain]
  · obtain ⟨entries⟩ := g
    rcases entries with _ | ⟨e, _ | ⟨e', entries⟩⟩
    · rfl
    · rw [Body.entry, if_neg (by rw [hother e rfl]; exact Bool.false_ne_true)]
      rfl
    · rfl

/-- A letter before a choice in parentheses, both of them as the theorem says. -/
theorem TypeRegistry.letter_next_to_choice : ∃ g g' : Grammar,
    TypeRegistry.empty.compile "a" = .ok g ∧ TypeRegistry.empty.compile "(b|c)" = .ok g' ∧
    Unseparated "a" ∧ Unseparated "(b|c)" ∧
    TypeRegistry.empty.compile ("a" ++ "\n()" ++ "(b|c)") =
      .ok ⟨g.entries ++ [.ofChecker (.grammar ⟨[]⟩)] ++ g'.entries⟩ ∧
    ∃ entry, TypeRegistry.empty.compile ("(" ++ "a" ++ "\n)") = .ok ⟨[entry]⟩ := by
  have hletter : (TypeRegistry.empty.compile "a").isOk = true := by decide +kernel
  have hchoice : (TypeRegistry.empty.compile "(b|c)").isOk = true := by decide +kernel
  have hsole : Unseparated "a" := by decide +kernel
  have hsole' : Unseparated "(b|c)" := by decide +kernel
  cases hp : TypeRegistry.empty.compile "a" with
  | error e =>
    rw [hp] at hletter
    cases hletter
  | ok g =>
    cases hq : TypeRegistry.empty.compile "(b|c)" with
    | error e =>
      rw [hq] at hchoice
      cases hchoice
    | ok g' =>
      obtain ⟨hnext, hgroup⟩ := TypeRegistry.empty.compile_compositional hp hq hsole hsole'
      obtain ⟨entry, hentry, -⟩ := hgroup (by decide)
      exact ⟨g, g', rfl, rfl, hsole, hsole', hnext, entry, hentry⟩

/-- The sole entry of a pattern need not stay exactly as it is in parentheses: the greediness of a
repeat that is exactly one is lost. -/
theorem TypeRegistry.parentheses_drop_greediness : ¬ ∀ (registry : TypeRegistry) (p q : String)
    (g g' : Grammar), registry.compile p = .ok g → registry.compile q = .ok g' →
    Unseparated p → Unseparated q →
    registry.compile (p ++ "\n()" ++ q) =
      .ok ⟨g.entries ++ [.ofChecker (.grammar ⟨[]⟩)] ++ g'.entries⟩ ∧
    (p.toList.head? ≠ some '#' → ∃ entry,
      registry.compile ("(" ++ p ++ "\n)") = .ok ⟨[entry]⟩ ∧
      (∀ e, g.entries = [e] → e.isPlain = true → entry = e) ∧
      ((∀ e, g.entries = [e] → e.isPlain = false) → entry = .ofChecker (.grammar g))) := by
  let shape (pattern : String) := (TypeRegistry.empty.compile pattern).toOption.map fun g =>
    g.entries.map fun e => (e.isPlain, e.quantifier)
  have halone : shape ".{1}+" = some [(true, ⟨1, some 1, .maximum⟩)] := by decide +kernel
  have hinside : shape ("(" ++ ".{1}+" ++ "\n)") = some [(true, .one)] := by decide +kernel
  have hsole : Unseparated ".{1}+" := by decide +kernel
  intro h
  cases hp : TypeRegistry.empty.compile ".{1}+" with
  | error e =>
    simp only [shape, hp, Except.toOption, Option.map_none] at halone
    cases halone
  | ok g =>
    obtain ⟨-, hgroup⟩ := h _ _ _ g g hp hp hsole hsole
    obtain ⟨entry, hentry, hsame, -⟩ := hgroup (by decide)
    simp only [shape, hp, hentry, Except.toOption, Option.map_some, Option.some.injEq]
      at halone hinside
    obtain ⟨_ | ⟨e, _ | ⟨e', entries⟩⟩⟩ := g
    · cases halone
    · simp only [List.map_cons, List.map_nil, List.cons.injEq, Prod.mk.injEq] at halone hinside
      rw [hsame e rfl halone.1.1, halone.1.2] at hinside
      exact absurd hinside.1.2 (by decide)
    · exact absurd (congrArg List.length halone) (by simp)

end TextGrammar
