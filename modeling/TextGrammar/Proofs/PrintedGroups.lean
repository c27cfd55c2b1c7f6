/-
Groups of patterns as they are printed: bodies of one sequence or of choices with
separators between them, and what may stand around a body in its parentheses, a
name, the sign of a negation and a secondary body. A group is an element, and is
read to an entry of its parts.
-/
import TextGrammar.Proofs.PrintedElements

namespace TextGrammar.Pattern

open Inlay (Sound captureEntries secondEntries separator separated signs)

variable {vocabulary : Vocabulary} {text : Text} {i j k stop : Nat} {items blanks nodes : List Node}
  {pieces : List Piece} {c : Char}

/-! ## Sequences -/

theorem SequenceIn.of_blanks (vocabulary : Vocabulary) (h : Blanks text i blanks j)
    (hsound : Sound blanks) : SequenceIn vocabulary text i i j [] blanks [] where
  chain := .nil i
  after := h
  sound := hsound
  reads := by
    have hnone : readPieces vocabulary text (blanks ++ []) = readPieces vocabulary text [] :=
      readPieces_ignored h.ignored []
    rwa [List.append_nil] at hnone

/-- An item between two sequences. -/
theorem ItemIn.between {piece : Piece} {k' j' : Nat} {items' blanks' : List Node}
    {pieces' : List Piece} (h : ItemIn vocabulary text j stop nodes piece)
    (hbefore : SequenceIn vocabulary text i k j items blanks pieces)
    (hlater : SequenceIn vocabulary text stop k' j' items' blanks' pieces') :
    ∃ items, SequenceIn vocabulary text i k' j' items blanks' (pieces ++ piece :: pieces') := by
  have hitem : Steps text (category "item") j ⟨stop, nodes⟩ := h.step
  exact ⟨_, hbefore.append h.bare h.opens hitem h.lt h.sound h.reads hlater⟩

/-- An item is a sequence by itself. -/
theorem ItemIn.sequence {piece : Piece} (h : ItemIn vocabulary text i stop nodes piece) :
    ∃ items, SequenceIn vocabulary text i stop stop items [] [piece] :=
  h.between (.nil vocabulary text i) (.nil vocabulary text stop)

/-- The signs that may follow a sequence inside of a group. -/
def closings : List Char := [')', '|', '~']

theorem bare_end (h : text[i]? = some c) (hc : c ∈ closings) :
    Attempts text (many (category "ignored")) i none := by
  have hends : ∀ c ∈ closings, c ≠ '/' ∧ c ≠ '(' ∧
      (CharSet.named "whitespace").contains .standard c = false :=
    List.all_iff_forall_prop.mp (by decide)
  exact bare_at h (hends c hc)

/-- A sequence before such a sign is found as a node. -/
theorem SequenceIn.found (h : SequenceIn vocabulary text i k j items blanks pieces)
    (hend : text[j]? = some c) (hc : c ∈ closings) : Repeats text (category "sequence") 0 i
      (some ⟨j, [categoryNode "sequence" i j (items ++ blanks)]⟩) :=
  .once rfl (.category (by rfl) (sequence_reads h.chain h.after (bare_end hend hc)
    (no_item (Text.only_at hend hc))))

/-! ## Bodies -/

/-- Separators and sequences after them, read to what is left of the segment they stand in and to
the segments after it. -/
structure SegmentsIn (vocabulary : Vocabulary) (text : Text) (i : Nat) (nodes : List Node)
    (stop : Nat) (sequences : List (List Entry)) (segments : List (List (List Entry))) : Prop where
  chain : Chain (Steps text separated) i nodes stop
  sound : Sound nodes
  reads : readSegments vocabulary text nodes = .ok (sequences, segments)

namespace SegmentsIn

variable {sequences : List (List Entry)} {segments : List (List (List Entry))}

theorem nil (vocabulary : Vocabulary) (text : Text) (i : Nat) :
    SegmentsIn vocabulary text i [] i [] [] :=
  ⟨.nil i, by rintro _ ⟨⟩, rfl⟩

/-- The node of a separator. -/
def separatorNode (i stop : Nat) : Node := ⟨some "sep", none, none, i, stop, []⟩

/-- The bar of a choice. -/
theorem found_bar (h : text[i]? = some '|') (hnext : text[i + 1]? ≠ some '|') :
    Repeats text separator 0 i (some ⟨i + 1, [separatorNode i (i + 1)]⟩) := by
  have hword : text.hasAt i (Word.chars ⟨'|', ['|']⟩) = false :=
    eq_false_of_ne_true fun hhas => hnext (Inlay.hasAt_two hhas).2
  have hone : Chooses text (.single '|') i (some ⟨i + 1, [], false⟩) := .char h (by rfl)
  have hbar : Chooses text (.oneOf [.literal ['|', '|'], .single '|'] none) i
      (some ⟨i + 1, [], false⟩) := .one_of ((Among.nil.only hone).skip (.not_word hword))
  exact .once rfl (.at_once ((Entry.MatchedBy.ofChecker _).named "sep") rfl hbar)

/-- The two bars before a fallback. -/
theorem found_bars (h : text[i]? = some '|') (hnext : text[i + 1]? = some '|') :
    Repeats text separator 0 i (some ⟨i + 2, [separatorNode i (i + 2)]⟩) := by
  have hhas : text.hasAt i (Word.chars ⟨'|', ['|']⟩) = true := by
    simp [Word.chars, Text.hasAt, h, hnext]
  have hone : Chooses text (.single '|') i (some ⟨i + 1, [], false⟩) := .char h (by rfl)
  have hword : Chooses text (.word ⟨'|', ['|']⟩) i (some ⟨i + 2, [], false⟩) := by
    have hlength : Chooses text (.word ⟨'|', ['|']⟩) i _ := Chooses.word _
    rwa [Word.lengthAt, if_pos hhas] at hlength
  have hboth := (Among.nil.only hone).cons hword
  rw [longer, further, if_pos (Nat.lt_succ_self _)] at hboth
  have hbars : Chooses text (.oneOf [.literal ['|', '|'], .single '|'] none) i
      (some ⟨i + 2, [], false⟩) := .one_of hboth
  exact .once rfl (.at_once ((Entry.MatchedBy.ofChecker _).named "sep") rfl hbars)

/-- A choice is read after a bar, and a segment after two. -/
theorem readSegments_bar (h : text[i]? = some '|') :
    readSegments vocabulary text (separatorNode i (i + 1) :: nodes) =
      readSegments vocabulary text nodes := by
  have hleft : text.LeftAt i (['|'] ++ text.toList.drop (i + 1)) := .of_get h
  have hslice : (text.slice i (i + 1)).toList = ['|'] := hleft.slice
  rw [separatorNode, readSegments, if_neg (by decide), if_neg]
  rw [hslice]
  decide

theorem readSegments_bars (h : text[i]? = some '|') (hnext : text[i + 1]? = some '|') :
    readSegments vocabulary text (separatorNode i (i + 2) :: nodes) =
      (readSegments vocabulary text nodes >>= fun r => pure ([], r.1 :: r.2)) := by
  have hleft : text.LeftAt i (['|', '|'] ++ text.toList.drop (i + 1 + 1)) := by
    show text.LeftAt i ('|' :: '|' :: text.toList.drop (i + 1 + 1))
    rw [← Text.LeftAt.of_get hnext]
    exact .of_get h
  have hslice : (text.slice i (i + 2)).toList = ['|', '|'] := hleft.slice
  have hbars :
      (some "sep" == some "sep" && (text.slice i (i + 2)).toList == ['|', '|']) = true := by
    rw [hslice]
    decide
  rw [separatorNode, readSegments, if_neg (by decide), if_pos hbars]

/-- A separator and a sequence, before others. -/
theorem chain_cons {s : Nat} {sep : Node} (hsep : Repeats text separator 0 i (some ⟨s, [sep]⟩))
    (hlt : i < s) (h : SequenceIn vocabulary text s k j items blanks pieces)
    (hend : text[j]? = some c) (hc : c ∈ closings)
    (hlater : Chain (Steps text separated) j nodes stop) :
    Chain (Steps text separated) i
      (sep :: categoryNode "sequence" s j (items ++ blanks) :: nodes) stop := by
  have hentry : separated.MatchedBy patternTypes none
      (.sequence [separator, category "sequence"]) := (Entry.MatchedBy.ofChecker _).quantified rfl
  have hstep : Steps text separated i
      ⟨j, [sep, categoryNode "sequence" s j (items ++ blanks)]⟩ :=
    .group hentry rfl (.cons hsep (.last (h.found hend hc)))
  have hle : s ≤ j := Nat.le_trans h.chain.le h.after.chain.le
  exact .cons hstep (Nat.lt_of_lt_of_le hlt hle) hlater

/-- What a sequence before others is read to. -/
theorem readSegments_sequence (hlater : SegmentsIn vocabulary text j nodes stop sequences segments)
    (h : SequenceIn vocabulary text i k j items blanks pieces) :
    readSegments vocabulary text (categoryNode "sequence" i j (items ++ blanks) :: nodes) =
      .ok (entriesOf [] pieces :: sequences, segments) := by
  have hread : readSegments vocabulary text
      (categoryNode "sequence" i j (items ++ blanks) :: nodes) =
        (readPieces vocabulary text (items ++ blanks) >>= fun pieces =>
          readSegments vocabulary text nodes >>= fun r =>
            pure (entriesOf [] pieces :: r.1, r.2)) := rfl
  rw [hread, h.reads, hlater.reads]
  rfl

theorem sound_cons {s a b : Nat}
    (hlater : SegmentsIn vocabulary text j nodes stop sequences segments)
    (h : SequenceIn vocabulary text s k j items blanks pieces) :
    Sound (separatorNode a b :: categoryNode "sequence" s j (items ++ blanks) :: nodes) := by
  refine AllNodes.cons_iff.mpr ⟨Sound.node (by rintro _ ⟨⟩) (fun heq => nomatch heq), ?_⟩
  exact AllNodes.cons_iff.mpr ⟨Sound.node h.sound (by decide), hlater.sound⟩

/-- Another choice. -/
theorem bar (hlater : SegmentsIn vocabulary text j nodes stop sequences segments)
    (hbar : text[i]? = some '|') (hnext : text[i + 1]? ≠ some '|')
    (h : SequenceIn vocabulary text (i + 1) k j items blanks pieces) (hend : text[j]? = some c)
    (hc : c ∈ closings) : ∃ nodes,
      SegmentsIn vocabulary text i nodes stop (entriesOf [] pieces :: sequences) segments := by
  refine ⟨_, chain_cons (found_bar hbar hnext) (Nat.lt_succ_self i) h hend hc hlater.chain,
    hlater.sound_cons h, ?_⟩
  rw [readSegments_bar hbar, hlater.readSegments_sequence h]

/-- The first choice of another segment. -/
theorem bars (hlater : SegmentsIn vocabulary text j nodes stop sequences segments)
    (hbar : text[i]? = some '|') (hnext : text[i + 1]? = some '|')
    (h : SequenceIn vocabulary text (i + 2) k j items blanks pieces) (hend : text[j]? = some c)
    (hc : c ∈ closings) : ∃ nodes, SegmentsIn vocabulary text i nodes stop []
      ((entriesOf [] pieces :: sequences) :: segments) := by
  refine ⟨_, chain_cons (found_bars hbar hnext) (Nat.lt_succ_of_lt (Nat.lt_succ_self i)) h hend hc
    hlater.chain, hlater.sound_cons h, ?_⟩
  rw [readSegments_bars hbar hnext, hlater.readSegments_sequence h]
  rfl

end SegmentsIn

/-- A body from one place to another. -/
structure BodyIn (vocabulary : Vocabulary) (text : Text) (i : Nat) (nodes : List Node) (stop : Nat)
    (body : Body) : Prop where
  le : i ≤ stop
  found : Reads text [category "sequence", separated] i (some ⟨stop, nodes⟩)
  sound : Sound nodes
  reads : ∀ name, readBody vocabulary text ⟨name, some "body", none, i, stop, nodes⟩ = .ok body

/-- A body of a sequence and those after it. -/
theorem SequenceIn.body (h : SequenceIn vocabulary text i k j items blanks pieces)
    {sequences : List (List Entry)} {segments : List (List (List Entry))}
    (hlater : SegmentsIn vocabulary text j nodes stop sequences segments)
    (hend : text[j]? = some c) (hc : c ∈ closings) (hstop : text[stop]? ≠ some '|') :
    ∃ nodes, BodyIn vocabulary text i nodes stop
      (.ofSequences ((entriesOf [] pieces :: sequences) :: segments)) := by
  have hseparated : Repeats text separated 0 j (some ⟨stop, nodes⟩) :=
    .chain rfl rfl hlater.chain (separated_misses hstop) 0
  have hle : i ≤ j := Nat.le_trans h.chain.le h.after.chain.le
  refine ⟨_, Nat.le_trans hle hlater.chain.le, .cons (h.found hend hc) (.last hseparated), ?_,
    fun name => ?_⟩
  · exact AllNodes.append_iff.mpr ⟨Sound.node h.sound (by decide), hlater.sound⟩
  · have hread := hlater.readSegments_sequence h
    rw [readBody]
    show (readSegments vocabulary text
      (categoryNode "sequence" i j (items ++ blanks) :: nodes) >>= _) = _
    rw [hread]
    rfl

/-! ## Secondary bodies -/

/-- What stands between a body and the parenthesis that closes its group. -/
structure SecondIn (vocabulary : Vocabulary) (text : Text) (i : Nat) (nodes : List Node)
    (stop : Nat) (second : Option Grammar) : Prop where
  found : Repeats text (optional (group secondEntries)) 0 i (some ⟨stop, nodes⟩)
  le : i ≤ stop
  close : text[stop]? = some ')'
  sound : Sound nodes
  names : ∀ node ∈ nodes, node.name = none ∨ node.name = some "second"
  reads : readSecond vocabulary text (nodes ++ [.leaf stop (stop + 1)]) = .ok second

theorem SecondIn.left_out (vocabulary : Vocabulary) (h : text[i]? = some ')') :
    SecondIn vocabulary text i [] i none where
  found := Inlay.no_second h
  le := Nat.le_refl i
  close := h
  sound := by rintro _ ⟨⟩
  names := by rintro _ ⟨⟩
  reads := rfl

theorem SecondIn.given {body : Body} (hsign : text[i]? = some '~')
    (h : BodyIn vocabulary text (i + 1) nodes stop body) (hclose : text[stop]? = some ')') :
    SecondIn vocabulary text i
      [.leaf i (i + 1), ⟨some "second", some "body", none, i + 1, stop, nodes⟩] stop
      (some body.grammar) where
  found := by
    have hentry : ((category "body").named "second").MatchedBy patternTypes
        (some ⟨Builtin.constant "body" (.sequence [category "sequence", separated]), none⟩)
        (.sequence [category "sequence", separated]) :=
      (category_matched Inlay.body_category).named "second"
    have hbody : Repeats text ((category "body").named "second") 0 (i + 1)
        (some ⟨stop, [⟨some "second", some "body", none, i + 1, stop, nodes⟩]⟩) :=
      .once rfl (.grammar hentry h.found)
    have hblanks : Blanks text i [] i := ⟨.nil i, by rintro _ ⟨⟩⟩
    exact .once rfl (.group Inlay.second_matched rfl
      (.cons (hblanks.read (bare_end hsign (by decide))) (.cons (read_char hsign) (.last hbody))))
  le := Nat.le_of_succ_le h.le
  close := hclose
  sound := AllNodes.cons_iff.mpr ⟨Sound.leaf _ _, Sound.node h.sound (by decide)⟩
  names := List.forall_mem_cons.mpr ⟨.inl rfl, List.forall_mem_singleton.mpr (.inr rfl)⟩
  reads := by
    show (readBody vocabulary text _ >>= fun body => pure (some body.grammar)) = _
    rw [h.reads]
    rfl

/-! ## Names -/

/-- The name that the children of a group give it. -/
def captureOf (ref : NodeRef) : Option Capture :=
  match ref.child? "kind", ref.child? "name" with
  | some kind, some name => some ⟨name.string, kind.string == "$"⟩
  | _, _ => none

/-- What stands between the opening parenthesis of a group and what it holds. -/
structure CaptureIn (text : Text) (i : Nat) (nodes : List Node) (stop : Nat)
    (capture : Option Capture) : Prop where
  found : Repeats text (optional (group captureEntries)) 0 i (some ⟨stop, nodes⟩)
  le : i ≤ stop
  sound : Sound nodes
  skipped : IsSkipped nodes
  /-- It tells the name, and that nothing is negated, if what follows does not. -/
  reads : ∀ (ref : NodeRef) (first : Node) (later : List Node), ref.text = text →
    ref.node.children = first :: (nodes ++ later) → first.name = none →
    (∀ node ∈ later, node.name = none ∨ node.name = some "second") →
    captureOf ref = capture ∧ ref.child? "not" = none

theorem CaptureIn.left_out (h : Reads text captureEntries i none) :
    CaptureIn text i [] i none where
  found := not_capture h
  le := Nat.le_refl i
  sound := by rintro _ ⟨⟩
  skipped := by rintro _ ⟨⟩
  reads ref first later _ hchildren hfirst hlater := by
    have hnames : ∀ node ∈ ref.node.children, node.name = none ∨ node.name = some "second" := by
      rw [hchildren]
      exact List.forall_mem_cons.mpr ⟨.inl hfirst, hlater⟩
    have hnone {name : String} (hname : name ≠ "second") : ref.child? name = none := by
      refine no_child_named fun node hnode heq => ?_
      rcases hnames node hnode with h | h
      · cases h.symm.trans heq
      · exact hname (Option.some.inj (heq.symm.trans h))
    refine ⟨?_, hnone (by decide)⟩
    rw [captureOf, hnone (by decide)]

/-- The sign of a name tells whether what lies below is left out. -/
def kindSign (flat : Bool) : Char := if flat then '$' else '#'

theorem toList_displayCapture (capture : Capture) : capture.display.toList =
    kindSign capture.flat :: (capture.name.toList ++ [':', ' ']) := by
  obtain ⟨name, flat⟩ := capture
  cases flat <;> simp [Capture.display, kindSign]

theorem CaptureIn.given {capture : Capture} {rest : List Char} (hname : IsName capture.name)
    (hleft : text.LeftAt i (kindSign capture.flat :: (capture.name.toList ++ ':' :: rest))) :
    ∃ nodes, CaptureIn text i nodes (i + 1 + capture.name.toList.length + 1) (some capture) := by
  obtain ⟨children, hread, hchildren⟩ := read_name "name" hname hleft.next (by decide)
  have hkind : ((Entry.ofChecker (.char (.ofString "#$"))).named "kind").MatchedBy patternTypes
      none (.char (.ofString "#$")) := (Entry.MatchedBy.ofChecker _).named _
  have hset : (CharSet.ofString "#$").contains .standard (kindSign capture.flat) = true := by
    cases capture.flat <;> decide
  have hfound : Reads text captureEntries i (some ⟨_, _⟩) :=
    .cons (.once rfl (.char hkind hleft.get hset)) (.cons hread
      (.last (read_char hleft.next.skip.get)))
  let stop := i + 1 + capture.name.toList.length
  let kind : Node := ⟨some "kind", none, none, i, i + 1, []⟩
  let name : Node := ⟨some "name", none, none, i + 1, stop, children⟩
  let nodes := [kind, name, .leaf stop (stop + 1)]
  have hnodes : ∀ node ∈ nodes, node.typeName = none ∧ node.name ≠ some "second" ∧
      node.name ≠ some "not" := by
    simp [nodes, kind, name, Node.leaf]
  refine ⟨nodes, .once rfl (.group ((Entry.MatchedBy.ofChecker _).quantified rfl) rfl hfound),
    by omega, ?_, fun node hnode => ?_, fun ref first later htext hrefs hfirst hlater => ?_⟩
  · exact AllNodes.cons_iff.mpr ⟨Sound.node (by rintro _ ⟨⟩) (by decide),
      AllNodes.cons_iff.mpr ⟨Sound.node hchildren.sound (by decide), Sound.leaf _ _⟩⟩
  · obtain ⟨htype, hsecond, -⟩ := hnodes node hnode
    exact ⟨by simp [htype], hsecond⟩
  · have hkindAt : ref.node.children =
        [first] ++ kind :: ([name, .leaf stop (stop + 1)] ++ later) := hrefs
    have hkindChild : ref.child? "kind" = some ⟨ref.text, kind, 1⟩ :=
      first_child (p := fun node => node.name == some "kind") hkindAt
        (List.forall_mem_singleton.mpr (by rw [hfirst]; rfl)) rfl
    have hnameAt : ref.node.children =
        [first, kind] ++ name :: ([.leaf stop (stop + 1)] ++ later) := hrefs
    have hnameChild : ref.child? "name" = some ⟨ref.text, name, 2⟩ :=
      first_child (p := fun node => node.name == some "name") hnameAt
        (List.forall_mem_cons.mpr ⟨by rw [hfirst]; rfl, List.forall_mem_singleton.mpr rfl⟩) rfl
    refine ⟨?_, no_child_named fun node hnode heq => ?_⟩
    · have hname : (text.slice (i + 1) stop).toList = capture.name.toList := hleft.next.slice
      have hkind : (text.slice i (i + 1)).toList = [kindSign capture.flat] := by
        rw [← List.singleton_append] at hleft
        exact hleft.slice
      have hsign : (String.ofList [kindSign capture.flat] == "$") = capture.flat := by
        cases capture.flat <;> decide
      rw [captureOf, hkindChild, hnameChild, htext]
      show some (Capture.mk (String.ofList (text.slice (i + 1) stop).toList)
        (String.ofList (text.slice i (i + 1)).toList == "$")) = _
      rw [hname, hkind, hsign, String.ofList_toList]
    · rw [hrefs] at hnode
      rcases List.mem_cons.mp hnode with rfl | hnode
      · cases hfirst.symm.trans heq
      · rcases List.mem_append.mp hnode with hnode | hnode
        · exact (hnodes node hnode).2.2 heq
        · rcases hlater node hnode with h | h <;> exact absurd (h.symm.trans heq) (by decide)

/-! ## Groups -/

/-- A body as an entry has nothing around it. -/
theorem Body.entry_isPlain (body : Body) :
    body.entry.capture = none ∧ body.entry.quantifier.isOne = true ∧
      body.entry.secondary = none := by
  have hplain : body.entry.isPlain = true := by
    unfold Body.entry
    split
    · split
      · assumption
      · rfl
    · rfl
    · rfl
  simpa [Entry.isPlain, and_assoc] using hplain

/-- The children of a group name its entry. -/
theorem named_by_children (ref : NodeRef) {entry : Entry} (h : entry.capture = none) :
    (match ref.child? "kind", ref.child? "name" with
      | some kind, some name => (pure (if kind.string == "$" then entry.flatNamed name.string
          else entry.named name.string) : Except GrammarError Entry)
      | _, _ => pure entry) = .ok { entry with capture := captureOf ref } := by
  unfold captureOf
  split
  · next kind name _ _ => cases kind.string == "$" <;> rfl
  · obtain ⟨_, target, q, second⟩ := entry
    cases h
    rfl

/-- A group is read to the entry of its body, with what stands around it. -/
theorem readGroup_parts {children : List Node} {body : Body} {second : Option Grammar}
    (hinner : ∀ unclosed, readInner vocabulary text unclosed children = .ok body)
    (hsecond : readSecond vocabulary text children = .ok second)
    (hnot : (inText text (categoryNode "group" i j children)).child? "not" = none) :
    readGroup vocabulary text (categoryNode "group" i j children) =
      .ok ⟨captureOf (inText text (categoryNode "group" i j children)), body.entry.target,
        body.entry.quantifier, second⟩ := by
  obtain ⟨hname, -, hnone⟩ := Body.entry_isPlain body
  rw [categoryNode] at hnot ⊢
  rw [readGroup]
  dsimp only
  rw [hinner, hsecond, hnot]
  cases second with
  | none =>
    refine (named_by_children _ hname).trans (congrArg Except.ok ?_)
    rw [hnone]
  | some g => exact named_by_children _ hname

namespace ElementIn

variable {children name lead inside later : List Node} {a s e : Nat}

/-- A group is an element that is read to its entry. -/
theorem of_group {entry : Entry} (hopen : text[i]? = some '(') (hstar : text[i + 1]? ≠ some '*')
    (hstep : Steps text (category "group") i ⟨stop, [categoryNode "group" i stop children]⟩)
    (hlt : i < stop) (hsound : Sound children)
    (hread : readGroup vocabulary text (categoryNode "group" i stop children) = .ok entry) :
    ElementIn vocabulary text i stop [categoryNode "group" i stop children] fun q =>
      .entry (entry.quantified q) := by
  have hbare : Attempts text (many (category "ignored")) i none :=
    no_ignored (Text.only_at hopen (by decide)) fun _ => hstar
  refine .construct hopen hbare (by decide) (by rfl) hstep hlt hsound (by decide)
    fun missing q later => ?_
  show (readGroup vocabulary text (categoryNode "group" i stop children) >>= fun entry =>
    pure (Piece.entry (entry.quantified q))) = _
  rw [hread]
  rfl

/-- A group of a body, with a name and a secondary body as the case may be. -/
theorem group {capture : Option Capture} {body : Body} {second : Option Grammar}
    (hopen : text[i]? = some '(') (hstar : text[i + 1]? ≠ some '*')
    (hcapture : CaptureIn text (i + 1) name a capture) (hlead : Blanks text a lead s)
    (hleadSound : Sound lead) (hbare : Attempts text (many (category "ignored")) s none)
    (hcaret : text[s]? ≠ some '^') (hbody : BodyIn vocabulary text s inside e body)
    (hsecond : SecondIn vocabulary text e later j second) :
    ∃ nodes, ElementIn vocabulary text i (j + 1) nodes fun q =>
      .entry
        ((⟨capture, body.entry.target, body.entry.quantifier, second⟩ : Entry).quantified q) := by
  let held := categoryNode "body" s e inside :: (later ++ [.leaf j (j + 1)])
  have hleadRead : Repeats text (many (category "ignored")) 0 a (some ⟨s, lead⟩) :=
    hlead.read hbare
  have hstep : Steps text (category "group") i ⟨j + 1, [categoryNode "group" i (j + 1)
      (.leaf i (i + 1) :: (name ++ (lead ++ held)))]⟩ :=
    group_found hopen hcapture.found hleadRead (not_caret hcaret)
      (.once rfl (.category Inlay.body_category hbody.found)) hsecond.found hsecond.close
  have hlt : i < j + 1 := by
    have hle := Nat.le_trans hcapture.le (Nat.le_trans hlead.chain.le
      (Nat.le_trans hbody.le hsecond.le))
    omega
  have hskip : IsSkipped (.leaf i (i + 1) :: (name ++ lead)) :=
    List.forall_mem_append.mpr ⟨IsSkipped.leaf _ _,
      List.forall_mem_append.mpr ⟨hcapture.skipped, hlead.ignored.skipped⟩⟩
  have hinner (unclosed : GrammarError) : readInner vocabulary text unclosed
      (.leaf i (i + 1) :: (name ++ lead) ++ held) = .ok body := by
    rw [readInner_skipped hskip]
    exact hbody.reads none
  have hreadSecond : readSecond vocabulary text
      (.leaf i (i + 1) :: (name ++ lead) ++ held) = .ok second := by
    rw [readSecond_skipped hskip]
    exact hsecond.reads
  simp only [List.cons_append, List.append_assoc] at hinner hreadSecond
  have hnames : ∀ node ∈ lead ++ held, node.name = none ∨ node.name = some "second" := by
    intro node hnode
    rcases List.mem_append.mp hnode with hnode | hnode
    · exact .inl (hlead.ignored node hnode).2
    rcases List.mem_cons.mp hnode with rfl | hnode
    · exact .inl rfl
    rcases List.mem_append.mp hnode with hnode | hnode
    · exact hsecond.names node hnode
    · exact .inl (List.mem_singleton.mp hnode ▸ rfl)
  obtain ⟨hname, hnot⟩ := hcapture.reads (inText text (categoryNode "group" i (j + 1) _))
    (.leaf i (i + 1)) _ rfl rfl rfl hnames
  have hread := readGroup_parts hinner hreadSecond hnot
  rw [hname] at hread
  refine ⟨_, .of_group hopen hstar hstep hlt ?_ hread⟩
  refine AllNodes.cons_iff.mpr ⟨Sound.leaf _ _,
    AllNodes.append_iff.mpr ⟨hcapture.sound, AllNodes.append_iff.mpr ⟨hleadSound,
      AllNodes.cons_iff.mpr ⟨Sound.node hbody.sound (by decide),
        AllNodes.append_iff.mpr ⟨hsecond.sound, Sound.leaf _ _⟩⟩⟩⟩⟩

/-- A negation of a body. -/
theorem negation {body : Body} (hopen : text[i]? = some '(') (hcaret : text[i + 1]? = some '^')
    (hbody : BodyIn vocabulary text (i + 2) inside e body) (hclose : text[e]? = some ')') :
    ∃ nodes, ElementIn vocabulary text i (e + 1) nodes fun q =>
      .entry ((Entry.ofChecker (.not body.checker)).quantified q) := by
  let caret : Node := ⟨some "not", none, none, i + 1, i + 2, []⟩
  have hentry : (optional ((char '^').named "not")).MatchedBy patternTypes none
      (.char (.single '^')) := ((Entry.MatchedBy.ofChecker _).named _).quantified rfl
  have hfound : Repeats text (optional ((char '^').named "not")) 0 (i + 1)
      (some ⟨i + 2, [caret]⟩) := .once rfl (.char hentry hcaret (by rfl))
  have hbare : Attempts text (many (category "ignored")) (i + 1) none :=
    bare_at hcaret (by decide)
  have hunnamed : Reads text captureEntries (i + 1) none :=
    no_capture (Text.only_at hcaret (by decide))
  have hblanks : Blanks text (i + 1) [] (i + 1) := ⟨.nil _, by rintro _ ⟨⟩⟩
  have hstep : Steps text (category "group") i ⟨e + 1, [categoryNode "group" i (e + 1)
      [.leaf i (i + 1), caret, categoryNode "body" (i + 2) e inside, .leaf e (e + 1)]]⟩ :=
    group_found hopen (not_capture hunnamed) (hblanks.read hbare) hfound
      (.once rfl (.category Inlay.body_category hbody.found)) (Inlay.no_second hclose) hclose
  have hle := hbody.le
  refine ⟨_, .of_group hopen (Text.no_other_at hcaret (by decide)) hstep (by omega) ?_ ?_⟩
  · exact AllNodes.cons_iff.mpr ⟨Sound.leaf _ _,
      AllNodes.cons_iff.mpr ⟨Sound.node (by rintro _ ⟨⟩) (fun h => nomatch h),
        AllNodes.cons_iff.mpr ⟨Sound.node hbody.sound (by decide), Sound.leaf _ _⟩⟩⟩
  · show (readBody vocabulary text (categoryNode "body" (i + 2) e inside) >>= _) = _
    rw [categoryNode, hbody.reads]
    rfl

end ElementIn

end TextGrammar.Pattern
