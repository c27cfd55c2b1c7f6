/-
Literals in pattern form. What a word is written as between its quotes is read
back character by character: an escape where the quotes or a line would end, and
everything else as itself. So the pattern of a word compiles to the word.
-/
import TextGrammar.Proofs.PatternCharacters
import TextGrammar.Types.Registry

namespace TextGrammar

namespace Pattern

open Inlay (Sound contentOf escapesIn escapesIn_escape escapesIn_leaf escapesIn_untyped
  escapesIn_from PieceAt elementKey_of_get)

variable {vocabulary : Vocabulary} {text : Text} {set : CharSet} {i j : Nat}
  {cs rest : List Char} {nodes : List Node}

/-! ## Between quotes -/

/-- An entry of what stands between quotes. -/
def content (set : CharSet) : Entry := many (.ofChecker (contentOf set))

/-- Characters between quotes and the nodes they are found as. -/
inductive Holds (vocabulary : Vocabulary) (text : Text) (set : CharSet) :
    Nat → List Char → List Node → Nat → Prop
  | nil (i : Nat) : Holds vocabulary text set i [] [] i
  | cons {i j : Nat} {f : Found} {c : Char} {cs : List Char} {nodes : List Node}
    (h : Stands vocabulary text set i f (.char c))
    (hlater : Holds vocabulary text set f.stop cs nodes j) :
    Holds vocabulary text set i (c :: cs) ((content set).nodesOf i f none ++ nodes) j

namespace Holds

theorem le (h : Holds vocabulary text set i cs nodes j) : i ≤ j := by
  induction h with
  | nil => exact Nat.le_refl _
  | cons h _ ih => exact Nat.le_trans (Nat.le_of_lt h.lt) ih

/-- The characters are taken one after the other. -/
theorem chain (h : Holds vocabulary text set i cs nodes j)
    (hslash : set.contains .standard '\\' = false) :
    Chain (Steps text (content set)) i nodes j := by
  induction h with
  | nil i => exact .nil i
  | @cons i j f c cs nodes h _ ih =>
    have hentry : (content set).MatchedBy patternTypes none (contentOf set) :=
      (Entry.MatchedBy.ofChecker _).quantified rfl
    have hstep : Steps text (content set) i ⟨f.stop, (content set).nodesOf i f none⟩ :=
      .at_once hentry rfl (h.chooses hslash)
    exact .cons hstep h.lt ih

theorem pieces (h : Holds vocabulary text set i cs nodes j) : Chain PieceAt i nodes j := by
  induction h with
  | nil i => exact .nil i
  | @cons i j f c cs nodes h _ ih =>
    refine Chain.cons (m := ⟨f.stop, (content set).nodesOf i f none⟩) ?_ h.lt ih
    cases h with
    | plain => exact .inr rfl
    | escape h => exact .inl ⟨_, rfl, fun _ => h.leaves.untyped⟩

theorem sound (h : Holds vocabulary text set i cs nodes j) : Sound nodes := by
  induction h with
  | nil => exact Leaves.nil.sound
  | cons h _ ih =>
    refine AllNodes.append_iff.mpr ⟨?_, ih⟩
    cases h with
    | plain => exact Sound.leaf _ _
    | escape h => exact Sound.node h.leaves.sound (by decide)

/-- They are read to what they stand for. -/
theorem unquotes {ref : NodeRef} {last : List Node} (h : Holds vocabulary text set i cs nodes j)
    (htext : ref.text = text) (hstop : ref.node.stop = j + 1)
    (hlast : ∀ index, escapesIn text index last = []) (index count : Nat)
    (hcount : j ≤ i + count) :
    unquoteFrom vocabulary ref count i (escapesIn text index (nodes ++ last)) = .ok cs := by
  induction h generalizing count index with
  | nil i =>
    cases count with
    | zero => rfl
    | succ count => rw [unquoteFrom, if_pos (by omega)]
  | @cons i j f c cs nodes h hlater ih =>
    have hlt := Nat.lt_of_lt_of_le h.lt hlater.le
    obtain ⟨count, rfl⟩ : ∃ n, count = n + 1 := ⟨count - 1, by omega⟩
    have hwidth := h.lt
    have hread := ih hstop (index + 1) count (by omega)
    rw [unquoteFrom, if_neg (by omega), List.append_assoc]
    cases h with
    | plain h hset =>
      have hfrom := escapesIn_from hlater.pieces hlater.sound hlast (index + 1)
      have hget : ref.text.getD i '\x00' = c := by
        rw [htext, Array.getD_eq_getD_getElem?, h]
        rfl
      have hnode : (content set).nodesOf i ⟨i + 1, [], false⟩ none = [.leaf i (i + 1)] := rfl
      rw [hnode, List.singleton_append, escapesIn_leaf, hread, hget]
      -- what comes next is no escape that begins here
      cases hescapes : escapesIn text (index + 1) (nodes ++ last) with
      | nil => rfl
      | cons escape others =>
        have hstart : i + 1 ≤ escape.node.start := hfrom escape (hescapes ▸ List.mem_cons_self)
        have hother : (escape.node.start == i) = false := beq_false_of_ne (by omega)
        dsimp only
        rw [hother]
        rfl
    | @escape children stop escaped h =>
      have hnode : (content set).nodesOf i ⟨stop, [categoryNode "escape" i stop children], true⟩
          none = [categoryNode "escape" i stop children] := rfl
      rw [hnode, List.singleton_append, escapesIn_escape h.leaves.untyped]
      dsimp only
      rw [if_pos (show ((categoryNode "escape" i stop children).start == i) = true from
        beq_self_eq_true i), h.reads]
      show (unquoteFrom vocabulary ref count stop _ >>= fun chars => pure (c :: chars)) = _
      rw [hread]
      rfl

end Holds

/-! ## Words -/

/-- What stands for itself between double quotes. -/
def plainInside : CharSet := .complement (.ofString (String.ofList ['"', '\\']))

theorem plainInside_slash : plainInside.contains .standard '\\' = false := rfl

/-- Between the quotes a character is written as an escape that stands for it, or as itself. -/
theorem displayChar_cases (c : Char) :
    (∃ x ∉ ['x', 'u', '0', 'p', 'P'], escapedChar? x = some (.char c) ∧
      (Word.displayChar c).toList = ['\\', x]) ∨
    (c ≠ '"' ∧ c ≠ '\\' ∧ (Word.displayChar c).toList = [c]) := by
  unfold Word.displayChar
  split
  · next h =>
    simp only [Bool.or_eq_true, beq_iff_eq] at h
    rcases h with rfl | rfl
    · exact .inl ⟨'"', by decide, rfl, rfl⟩
    · exact .inl ⟨'\\', by decide, rfl, rfl⟩
  · next h =>
    simp only [Bool.or_eq_true, beq_iff_eq, not_or] at h
    split
    · next hline =>
      obtain rfl := beq_iff_eq.mp hline
      exact .inl ⟨'n', by decide, rfl, rfl⟩
    split
    · next htab =>
      obtain rfl := beq_iff_eq.mp htab
      exact .inl ⟨'t', by decide, rfl, rfl⟩
    split
    · next hreturn =>
      obtain rfl := beq_iff_eq.mp hreturn
      exact .inl ⟨'r', by decide, rfl, rfl⟩
    · exact .inr ⟨h.1, h.2, String.toList_singleton c⟩

theorem stands_displayChar (vocabulary : Vocabulary) {c : Char}
    (hleft : text.LeftAt i ((Word.displayChar c).toList ++ rest)) :
    ∃ f, Stands vocabulary text plainInside i f (.char c) ∧
      f.stop = i + (Word.displayChar c).toList.length := by
  rcases displayChar_cases c with ⟨x, hx, hread, hdisplay⟩ | ⟨hquote, hslash, hdisplay⟩
  · rw [hdisplay] at hleft ⊢
    obtain ⟨children, h⟩ : ∃ children, EscapeAt vocabulary text i children (i + 2) (.char c) :=
      EscapeAt.short hleft hx hread
    exact ⟨_, .escape h, rfl⟩
  · rw [hdisplay] at hleft ⊢
    refine ⟨_, .plain hleft.get ?_, rfl⟩
    rw [show plainInside = .compl (.members ['"', '\\']) from rfl]
    simp [CharSet.contains, hquote, hslash]

/-- The characters of a word, written one after the other. -/
theorem holds_display (vocabulary : Vocabulary) (cs : List Char)
    (hleft : text.LeftAt i (cs.flatMap (fun c => (Word.displayChar c).toList) ++ rest)) :
    ∃ nodes, Holds vocabulary text plainInside i cs nodes
      (i + (cs.flatMap fun c => (Word.displayChar c).toList).length) := by
  induction cs generalizing i with
  | nil => exact ⟨[], .nil i⟩
  | cons c cs ih =>
    rw [List.flatMap_cons, List.append_assoc] at hleft
    obtain ⟨f, hstands, hstop⟩ := stands_displayChar vocabulary hleft
    have hlater := hleft.skip
    rw [← hstop] at hlater
    obtain ⟨nodes, hholds⟩ := ih hlater
    rw [List.flatMap_cons, List.length_append, ← Nat.add_assoc, ← hstop]
    exact ⟨_, .cons hstands hholds⟩

/-! ## Literals -/

/-- The node of a literal between double quotes. -/
def quotedNode (i j : Nat) (nodes : List Node) : Node :=
  categoryNode "quoted" i (j + 1) (.leaf i (i + 1) :: (nodes ++ [.leaf j (j + 1)]))

/-- A literal between double quotes is found as one node. -/
theorem quoted_step (hopen : text[i]? = some '"')
    (hholds : Holds vocabulary text plainInside (i + 1) cs nodes j)
    (hclose : text[j]? = some '"') :
    Steps text (category "quoted") i ⟨j + 1, [quotedNode i j nodes]⟩ := by
  have hentry : (content plainInside).MatchedBy patternTypes none (contentOf plainInside) :=
    (Entry.MatchedBy.ofChecker _).quantified rfl
  have hend : Attempts text (content plainInside) j none :=
    .at_once hentry rfl (no_content (Text.only_at hclose ⟨by decide, rfl⟩))
  have hcontent : Repeats text (content plainInside) 0 (i + 1) (some ⟨j, nodes⟩) :=
    .chain rfl rfl (hholds.chain plainInside_slash) hend 0
  have hinside : Reads text [content plainInside, char '"'] (i + 1)
      (some ⟨j + 1, nodes ++ [.leaf j (j + 1)]⟩) :=
    .cons hcontent (.last (read_char hclose))
  have hliteral : Chooses text (quotedBy '"') i (some ⟨j + 1, _, true⟩) :=
    .sequence (.cons (read_char hopen) (.last (.once rfl (.at_once (.ofChecker _) rfl
      (.among (.only .nil (.sequence hinside)))))))
  have hother {x : Char} (hx : '"' ≠ x) : Chooses text (quotedBy x) i none :=
    .stuck (.stuck (not_char (Text.no_other_at hopen hx)))
  have hquoted : Chooses text quoted i (some ⟨j + 1, _, true⟩) := .one_of
    (((Among.nil.skip (hother (by decide))).skip (hother (by decide))).only hliteral)
  exact .choice_category (by rfl) hquoted

/-- A literal is read to its characters. -/
theorem readQuoted_node (hleft : text.LeftAt i ('"' :: rest))
    (hholds : Holds vocabulary text plainInside (i + 1) cs nodes j) :
    readQuoted vocabulary (inText text (quotedNode i j nodes)) = .ok ('"', cs) := by
  have hend (index : Nat) : escapesIn text index [.leaf j (j + 1)] = [] :=
    escapesIn_untyped (.leaf _ _)
  have hle := hholds.le
  have hunquote : unquoteFrom vocabulary (inText text (quotedNode i j nodes))
      (j + 1 - i) (i + 1) (escapesIn text 1 (nodes ++ [.leaf j (j + 1)])) = .ok cs :=
    hholds.unquotes rfl rfl hend 1 _ (by omega)
  have hescapes : (inText text (quotedNode i j nodes)).descendants.filter
      (·.node.typeName == some "escape") = escapesIn text 1 (nodes ++ [.leaf j (j + 1)]) :=
    escapesIn_leaf
  have hchars : (inText text (quotedNode i j nodes)).chars.toList = '"' :: rest.take (j - i) := by
    rw [NodeRef.chars, Text.toList_slice]
    show (text.toList.drop i).take (j + 1 - i) = _
    rw [hleft, Nat.sub_add_comm (by omega), List.take_succ_cons]
  rw [readQuoted, hchars]
  dsimp only
  rw [hescapes]
  show (unquoteFrom vocabulary _ (j + 1 - i) (i + 1) _ >>= fun chars => pure ('"', chars)) = _
  rw [hunquote]
  rfl

/-- A literal as an item of its own is read to a piece of its characters. -/
theorem readPieces_quoted (hleft : text.LeftAt i ('"' :: rest))
    (hholds : Holds vocabulary text plainInside (i + 1) cs nodes j) :
    readPieces vocabulary text [categoryNode "item" i (j + 1) [quotedNode i j nodes]] =
      .ok [.literal cs] := by
  have hread : readPieces vocabulary text [categoryNode "item" i (j + 1) [quotedNode i j nodes]] =
      ((readQuoted vocabulary (inText text (quotedNode i j nodes)) >>= fun r =>
        if r.1 == '\x60' then
          pure (Piece.entry ((Entry.ref "textCI" (some (String.ofList r.2))).quantified .one))
        else pure (literalPiece r.2 .one)) >>= fun piece =>
          Except.ok [] >>= fun pieces => pure (piece :: pieces)) := rfl
  rw [hread, readQuoted_node hleft hholds]
  rfl

/-- The pattern of a word is the word. -/
theorem compile_word_display (vocabulary : Vocabulary) (word : Word) :
    Grammar.compile vocabulary word.display = .ok ⟨[.ofChecker (.word word)]⟩ := by
  let inner := word.chars.flatMap fun c => (Word.displayChar c).toList
  let text := Text.ofString word.display
  let j := 0 + 1 + inner.length
  have hdisplay : word.display.toList = '"' :: (inner ++ ['"']) := by
    simp only [Word.display, String.toList_append, String.toList_join, List.flatMap_map]
    rfl
  have hleft : text.LeftAt 0 ('"' :: (inner ++ ['"'])) := hdisplay ▸ Text.LeftAt.ofString _
  have hclose : text.LeftAt j ['"'] := hleft.next.skip
  have hsize : j + 1 = text.size := by
    have hlength := hleft.size (Nat.zero_le _)
    simp only [List.length_cons, List.length_append, List.length_nil] at hlength
    omega
  obtain ⟨nodes, hholds⟩ := holds_display vocabulary word.chars hleft.next
  have hsound : Sound [quotedNode 0 j nodes] := .node (AllNodes.cons_iff.mpr
    ⟨Sound.leaf _ _, AllNodes.append_iff.mpr ⟨hholds.sound, Sound.leaf _ _⟩⟩) (by decide)
  rw [compile_construct hleft.get (by decide) (by rfl) (quoted_step hleft.get hholds hclose.get)
    hsize hsound]
  show (readPieces vocabulary text [categoryNode "item" 0 (j + 1) [quotedNode 0 j nodes]]).map _ = _
  rw [readPieces_quoted hleft hholds]
  rfl

end Pattern

/-- **Words survive printing and compiling.** Any text but the empty one is the text of a word,
and the pattern of that word, compiled against any registry, is the grammar of the word alone. -/
theorem TypeRegistry.compile_display_word (registry : TypeRegistry) (text : String)
    (htext : text ≠ "") : ∃ word : Word, word.string = text ∧
      Checker.word? text = .ok (.word word) ∧
      registry.compile (Checker.word word).display = .ok ⟨[.ofChecker (.word word)]⟩ := by
  obtain ⟨c, cs, hcs⟩ : ∃ c cs, text.toList = c :: cs :=
    List.exists_cons_of_ne_nil fun hnil => htext (String.toList_eq_nil_iff.mp hnil)
  refine ⟨⟨c, cs⟩, ?_, ?_, Pattern.compile_word_display registry.vocabulary ⟨c, cs⟩⟩
  · rw [Word.string, Word.chars, ← hcs, String.ofList_toList]
  · rw [Checker.word?, hcs]
    rfl

/-- A text of a quote, a backslash, a line break and the signs of a comment. -/
theorem TypeRegistry.signs_compile_display : "\"\\\n/*" ≠ "" ∧ ∃ word : Word,
    word.string = "\"\\\n/*" ∧ Checker.word? "\"\\\n/*" = .ok (.word word) ∧
    TypeRegistry.standard.compile (Checker.word word).display = .ok ⟨[.ofChecker (.word word)]⟩ :=
  ⟨by decide, TypeRegistry.standard.compile_display_word "\"\\\n/*" (by decide)⟩

end TextGrammar
