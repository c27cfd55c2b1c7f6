/-
Sequences, bodies and groups of patterns. Between the items of a sequence stand
blanks: white space and comments. Those after the last item go on in the outer
text of an inlay where the inner one ends, so a sequence moves up to its last
blanks, and all of it if it ends before the inner text does. Bodies end where a
sequence does, and groups where their parentheses close.
-/
import TextGrammar.Proofs.PatternItems

namespace TextGrammar.Pattern

variable {vocabulary : Vocabulary} {text : Text} {i j k : Nat}

/-! ## Blanks -/

theorem Chooses.not_word {w : Word} (h : text.hasAt i w.chars = false) :
    Chooses text (.word w) i none := by
  have hlength : w.lengthAt text i = none := if_neg (by rw [h]; exact Bool.false_ne_true)
  have hword : Chooses text (.word w) i _ := .word w
  rwa [hlength] at hword

theorem not_word {w : Word} (h : text.hasAt i w.chars = false) :
    Repeats text (.ofChecker (.word w)) 0 i none :=
  .once rfl (.at_once (.ofChecker _) rfl (.not_word h))

/-- Nothing is ignored where neither white space nor a comment begins. -/
theorem nothing_ignored (hspace : ∀ x, text[i]? = some x →
      (CharSet.named "whitespace").contains .standard x = false)
    (hslash : text[i]? = some '/' → text[i + 1]? ≠ some '/' ∧ text[i + 1]? ≠ some '*')
    (hparen : text[i]? = some '(' → text[i + 1]? ≠ some '*') :
    Attempts text (many (category "ignored")) i none := by
  have hentry : (many (category "ignored")).MatchedBy patternTypes
      (some ⟨Builtin.constant "ignored" ignored, none⟩) ignored :=
    (category_matched (by rfl)).quantified rfl
  have hopening {a b : Char} (h : text[i]? = some a → text[i + 1]? ≠ some b) :
      text.hasAt i [a, b] = false :=
    eq_false_of_ne_true fun hhas => h (Inlay.hasAt_two hhas).1 (Inlay.hasAt_two hhas).2
  have hline : text.hasAt i ['/', '/'] = false := hopening fun h => (hslash h).1
  have hblock : text.hasAt i ['/', '*'] = false := hopening fun h => (hslash h).2
  have hnone : Chooses text ignored i none := .one_of <|
    (((Among.nil.skip (.stuck (.stuck (not_word hline)))).skip
      (.stuck (.stuck (not_word (hopening hparen))))).skip (.stuck (.stuck (not_word hblock)))).skip
      (.not_char hspace)
  exact .at_once hentry rfl hnone

/-- A character that is neither white space nor the first one of a comment is not ignored. -/
theorem no_ignored (hspace : ∀ x, text[i]? = some x → x ≠ '/' ∧
      (CharSet.named "whitespace").contains .standard x = false)
    (hparen : text[i]? = some '(' → text[i + 1]? ≠ some '*') :
    Attempts text (many (category "ignored")) i none :=
  nothing_ignored (fun x hx => (hspace x hx).2) (fun h => absurd rfl (hspace _ h).1) hparen

/-- Nodes of white space and comments. -/
def IsIgnored (nodes : List Node) : Prop :=
  ∀ node ∈ nodes, node.typeName = some "ignored" ∧ node.name = none

/-- They hold no pieces. -/
theorem readPieces_ignored {nodes : List Node} (h : IsIgnored nodes) (later : List Node) :
    readPieces vocabulary text (nodes ++ later) = readPieces vocabulary text later := by
  induction nodes with
  | nil => rfl
  | cons node nodes ih =>
    obtain ⟨⟨htype, -⟩, hnodes⟩ := List.forall_mem_cons.mp h
    obtain ⟨name, typeName, param, start, stop, children⟩ := node
    obtain rfl : typeName = some "ignored" := htype
    exact ih hnodes

/-- White space and comments from one place to another. -/
structure Blanks (text : Text) (i : Nat) (nodes : List Node) (j : Nat) : Prop where
  chain : Chain (Steps text (many (category "ignored"))) i nodes j
  ignored : IsIgnored nodes

theorem Blanks.append {nodes later : List Node} (h : Blanks text i nodes j)
    (h' : Blanks text j later k) : Blanks text i (nodes ++ later) k :=
  ⟨h.chain.append h'.chain, List.forall_mem_append.mpr ⟨h.ignored, h'.ignored⟩⟩

/-- Up to where there are no more of them. -/
theorem Blanks.read {nodes : List Node} (h : Blanks text i nodes j)
    (hend : Attempts text (many (category "ignored")) j none) :
    Repeats text (many (category "ignored")) 0 i (some ⟨j, nodes⟩) :=
  .chain rfl rfl h.chain hend 0

/-! ## Items between blanks -/

/-- Blanks and an item, as often as there are any. -/
def spaced : Entry := many (group [many (category "ignored"), category "item"])

/-- Blanks and an item after them. -/
def SpacedItem (text : Text) (i : Nat) (m : Match) : Prop :=
  ∃ k blanks item, Blanks text i blanks k ∧
    Attempts text (many (category "ignored")) k none ∧ (∃ x, text[k]? = some x ∧ x ∉ Inlay.signs) ∧
    Steps text (category "item") k item ∧ k < item.stop ∧ m = item.after blanks

theorem spaced_matched : spaced.MatchedBy patternTypes none
    (.sequence [many (category "ignored"), category "item"]) :=
  (Entry.MatchedBy.ofChecker _).quantified rfl

theorem SpacedItem.step {m : Match} (h : SpacedItem text i m) : Steps text spaced i m := by
  obtain ⟨k, blanks, item, hblanks, hend, -, hitem, -, rfl⟩ := h
  exact .group spaced_matched rfl (.cons (hblanks.read hend) (.last (.once rfl hitem)))

/-- A sequence, by its items and the blanks after the last one. -/
theorem sequence_reads {items blanks : List Node} (hitems : Chain (SpacedItem text) i items k)
    (hblanks : Blanks text k blanks j) (hend : Attempts text (many (category "ignored")) j none)
    (hitem : Attempts text (category "item") j none) :
    Reads text [spaced, many (category "ignored")] i (some ⟨j, items ++ blanks⟩) := by
  have hnone : Attempts text spaced k none :=
    .group spaced_matched rfl (.cons (hblanks.read hend) (.stuck (.once rfl hitem)))
  have hchain := hitems.mono fun _ _ h _ => h.step
  exact .cons (.chain rfl rfl hchain hnone 0) (.last (hblanks.read hend))

namespace Inlay

variable {l : Inlay}

/-! ## Sequences -/

/-- Where there are blanks: they move, and if they end inside the inner text so does their end. -/
structure BlanksAt (l : Inlay) (i : Nat) (blanks : List Node) (k : Nat) : Prop where
  moves : l.Clean blanks → Blanks l.outer (i + l.shift) (Node.shiftAll l.shift blanks) (k + l.shift)
  stops : l.Agrees k → Attempts l.outer (many (category "ignored")) (k + l.shift) none
  plain : l.Plain blanks
  ignored : IsIgnored blanks
  opens : i = k ∨ ∃ x, l.inner[i]? = some x ∧ x ≠ '$' ∧ x ∉ signs

theorem mem_shiftAll {n : Nat} {node : Node} {nodes : List Node}
    (h : node ∈ Node.shiftAll n nodes) : ∃ original ∈ nodes, node = original.shift n := by
  induction nodes with
  | nil => cases h
  | cons first nodes ih =>
    rcases List.mem_cons.mp h with rfl | h
    · exact ⟨first, List.mem_cons_self, rfl⟩
    · obtain ⟨original, hmem, rfl⟩ := ih h
      exact ⟨original, List.mem_cons_of_mem _ hmem, rfl⟩

theorem ignored_shift {n : Nat} {nodes : List Node} (h : IsIgnored nodes) :
    IsIgnored (Node.shiftAll n nodes) := by
  intro node hnode
  obtain ⟨original, hmem, rfl⟩ := mem_shiftAll hnode
  rw [Node.shift_typeName, Node.shift_name]
  exact h original hmem

theorem blanks_yield (hi : i ≤ l.inner.size) :
    l.Yields (Repeats l.inner (many (category "ignored")) 0 i) (fun found => ∃ k blanks,
      found = some ⟨k, blanks⟩ ∧ l.BlanksAt i blanks k) i := by
  refine (many_yields rfl rfl (fun _ _ hj => ignored_yields hj) (fun j m hm => (hm.2 m rfl).1) hi
    0).mono fun found _ h => ?_
  obtain ⟨k, blanks, rfl, hnone, hchain⟩ := h
  have hignored : IsIgnored blanks := by
    refine hchain.nodes_all (by rintro _ ⟨⟩)
      (fun _ _ h h' => List.forall_mem_append.mpr ⟨h, h'⟩) fun j m hm _ => ?_
    obtain ⟨-, -, ⟨children, hnodes⟩, -⟩ := hm.1.2 m rfl
    rw [hnodes]
    exact List.forall_mem_singleton.mpr ⟨rfl, rfl⟩
  refine ⟨k, blanks, rfl, ⟨fun hclean => ⟨?_, ignored_shift hignored⟩, fun hagree =>
    hnone.1 hagree (by rintro _ ⟨⟩), ?_, hignored, ?_⟩⟩
  · exact chain_moves (S := fun _ => True) (T := Steps l.outer (many (category "ignored"))) hchain
      (fun _ _ _ => id) (fun j m hm hlt _ hclean => hm.1.1 (.of_lt (Nat.lt_of_lt_of_le hlt hm.2))
        (by rintro _ ⟨⟩; exact hclean)) trivial hclean
  · exact hchain.nodes_all .nil (fun _ _ => .append) fun j m hm _ => (hm.1.2 m rfl).2.1
  · cases hchain with
    | nil => exact .inl rfl
    | cons hm _ _ => exact .inr (hm.1.2 _ rfl).2.2.2

/-- What blanks and an item after them come to. -/
structure SpacedAt (l : Inlay) (i : Nat) (m : Match) : Prop where
  lt : i < m.stop
  moves : l.Clean m.nodes → SpacedItem l.outer (i + l.shift) (m.shift l.shift)
  clean : l.ReadClean (readPieces l.vocabulary l.inner) m.nodes
  opens : ∃ x, l.inner[i]? = some x ∧ x ∉ signs
  unnamed : l.inner[i]? = some '$' → Sound m.nodes → Reads l.inner captureEntries i none

/-- Without an item there is the end of a sequence. -/
structure SequenceEnd (l : Inlay) (i : Nat) (blanks : List Node) (k : Nat) : Prop where
  reads : Repeats l.inner (many (category "ignored")) 0 i (some ⟨k, blanks⟩)
  after : l.BlanksAt i blanks k
  ends : Attempts l.outer (category "item") (k + l.shift) none
  le : i ≤ k
  size : k ≤ l.inner.size

theorem spaced_yields (hi : i ≤ l.inner.size) (hgroup : ∀ j, i ≤ j → j ≤ l.inner.size →
      l.Yields (Attempts l.inner (category "group") j) (l.GroupFound j) j) :
    l.Yields (Attempts l.inner spaced i) (fun found => (∀ m ∈ found, l.SpacedAt i m) ∧
      (found = none → ∃ k blanks, l.SequenceEnd i blanks k)) i := by
  obtain ⟨_, hblanks, hblanksIn, k, blanks, rfl, hat⟩ := blanks_yield hi
  obtain ⟨hle, hsize⟩ := hblanksIn _ rfl
  obtain ⟨found, hitem, hitemIn, hmoves, hfound⟩ := item_yields hsize (hgroup k hle hsize)
  cases found with
  | none =>
    refine ⟨none, .group spaced_matched rfl (.cons hblanks (.stuck (.once rfl hitem))),
      by rintro m ⟨⟩, by rintro m ⟨⟩, fun _ => ⟨k, blanks, hblanks, hat, ?_, hle, hsize⟩⟩
    exact hmoves (by rintro _ ⟨⟩)
  | some item =>
    obtain ⟨hitemLe, hitemSize⟩ := hitemIn item rfl
    have hitemAt := hfound item rfl
    have hk : l.Agrees k := .of_lt (Nat.lt_of_lt_of_le hitemAt.lt hitemSize)
    refine ⟨_, .group spaced_matched rfl (.cons hblanks (.last (.once rfl hitem))), ?_, ?_,
      by rintro ⟨⟩⟩
    · rintro m ⟨⟩
      exact ⟨Nat.le_trans hle hitemLe, hitemSize⟩
    rintro m ⟨⟩
    refine ⟨Nat.lt_of_le_of_lt hle hitemAt.lt, fun hclean => ?_, ?_, ?_, fun hdollar hsound => ?_⟩
    · obtain ⟨hcleanBlanks, hcleanItem⟩ := AllNodes.append_iff.mp hclean
      refine ⟨k + l.shift, _, item.shift l.shift, hat.moves hcleanBlanks, hat.stops hk, ?_,
        hmoves (by rintro _ ⟨⟩; exact hcleanItem), Nat.add_lt_add_right hitemAt.lt _,
        Match.shift_after _ _ _⟩
      obtain ⟨x, hx, hsign⟩ := hitemAt.opens
      exact ⟨x, (l.same k (Array.getElem?_eq_some_iff.mp hx).1).trans hx, hsign⟩
    · exact ReadClean.append (fun _ => readPieces_parts) (fun hsound _ _ => hat.plain hsound)
        hitemAt.clean
    · rcases hat.opens with rfl | ⟨x, hx, -, hsign⟩
      · exact hitemAt.opens
      · exact ⟨x, hx, hsign⟩
    · rcases hat.opens with rfl | ⟨x, hx, hother, -⟩
      · exact hitemAt.unnamed hdollar (AllNodes.append_iff.mp hsound).2
      · exact absurd (Option.some.inj (hx.symm.trans hdollar)) hother

/-- What a sequence comes to, by its items and the blanks after the last one. -/
structure SequenceAt (l : Inlay) (i k : Nat) (items blanks : List Node) (stop : Nat) : Prop where
  moves : l.Clean items →
    Chain (SpacedItem l.outer) (i + l.shift) (Node.shiftAll l.shift items) (k + l.shift)
  after : l.BlanksAt k blanks stop
  ends : Attempts l.outer (category "item") (stop + l.shift) none
  clean : l.ReadClean (readPieces l.vocabulary l.inner) (items ++ blanks)
  opens : i = stop ∨ ∃ x, l.inner[i]? = some x ∧ x ∉ signs
  unnamed : l.inner[i]? = some '$' → Sound items → i = stop ∨ Reads l.inner captureEntries i none

theorem sequence_yields (hi : i ≤ l.inner.size) (hgroup : ∀ j, i ≤ j → j ≤ l.inner.size →
      l.Yields (Attempts l.inner (category "group") j) (l.GroupFound j) j) :
    l.Yields (Reads l.inner [spaced, many (category "ignored")] i) (fun found =>
      ∃ k items blanks stop, found = some ⟨stop, items ++ blanks⟩ ∧
        l.SequenceAt i k items blanks stop) i := by
  have hspaced := many_yields rfl rfl (fun j hij hj => spaced_yields hj fun k hjk hk =>
    hgroup k (Nat.le_trans hij hjk) hk) (fun j m hm => (hm.1 m rfl).lt) hi 0
  obtain ⟨_, hitems, hitemsIn, k, items, rfl, hnone, hchain⟩ := hspaced
  obtain ⟨stop, blanks, hend⟩ := hnone.2 rfl
  refine ⟨_, .cons hitems (.last hend.reads), ?_, k, items, blanks, stop, rfl, ?_⟩
  · rintro m ⟨⟩
    exact ⟨Nat.le_trans (hitemsIn _ rfl).1 hend.le, hend.size⟩
  refine ⟨fun hclean => ?_, hend.after, hend.ends, ?_, ?_, fun hdollar hsound => ?_⟩
  · exact chain_moves (S := fun _ => True) hchain (fun _ _ _ => id)
      (fun j m hm _ _ hclean => (hm.1.1 m rfl).moves hclean) trivial hclean
  · have hclean : l.ReadClean (readPieces l.vocabulary l.inner) items :=
      hchain.nodes_all (fun _ _ _ => .nil) (fun _ _ => .append fun _ => readPieces_parts)
        fun j m hm _ => (hm.1.1 m rfl).clean
    exact hclean.append (fun _ => readPieces_parts) fun hsound _ _ => hend.after.plain hsound
  · cases hchain with
    | nil =>
      rcases hend.after.opens with rfl | ⟨x, hx, -, hsign⟩
      · exact .inl rfl
      · exact .inr ⟨x, hx, hsign⟩
    | cons hm _ _ => exact .inr (hm.1.1 _ rfl).opens
  · cases hchain with
    | nil =>
      rcases hend.after.opens with rfl | ⟨x, hx, hother, -⟩
      · exact .inl rfl
      · exact absurd (Option.some.inj (hx.symm.trans hdollar)) hother
    | cons hm _ _ => exact .inr ((hm.1.1 _ rfl).unnamed hdollar (AllNodes.append_iff.mp hsound).1)

/-- A sequence that ends where the texts agree. -/
theorem SequenceAt.reads {items blanks : List Node} {stop : Nat}
    (h : l.SequenceAt i k items blanks stop) (hagree : l.Agrees stop)
    (hclean : l.Clean (items ++ blanks)) :
    Reads l.outer [spaced, many (category "ignored")] (i + l.shift)
      (some ((⟨stop, items ++ blanks⟩ : Match).shift l.shift)) := by
  obtain ⟨hitems, hblanks⟩ := AllNodes.append_iff.mp hclean
  rw [Match.shift, Node.shiftAll_append]
  exact sequence_reads (h.moves hitems) (h.after.moves hblanks) (h.after.stops hagree) h.ends

/-! ## Bodies -/

def separator : Entry :=
  (Entry.ofChecker (.oneOf [.literal ['|', '|'], .single '|'] none)).named "sep"

theorem separator_yields (hi : i ≤ l.inner.size) :
    l.Yields (Attempts l.inner separator i) (fun found =>
      l.Alike (Attempts l.outer separator (i + l.shift)) found ∧
      ∀ m ∈ found, i < m.stop ∧ m.nodes = [⟨some "sep", none, none, i, m.stop, []⟩]) i := by
  have hentry : separator.MatchedBy patternTypes none
      (.oneOf [.literal ['|', '|'], .single '|'] none) := (Entry.MatchedBy.ofChecker _).named "sep"
  have hpicks : l.Picks (Chooses l.inner (.oneOf [.literal ['|', '|'], .single '|'] none) i)
      (fun found => Chooses l.outer (.oneOf [.literal ['|', '|'], .single '|'] none) (i + l.shift)
        (found.map (.shift l.shift)) ∧ ∀ f ∈ found, i < f.stop ∧ f.nodes = []) i := by
    refine Picks.one_of_alike (List.forall_mem_cons.mpr ⟨?_, List.forall_mem_singleton.mpr ?_⟩)
    · refine (word_picks (w := ⟨'|', ['|']⟩) (by decide) hi).mono fun found _ h =>
        ⟨h.1, fun f hf => ?_⟩
      obtain ⟨rfl, -⟩ := h.2.1 f hf
      exact ⟨Nat.lt_add_of_pos_right (Nat.succ_pos 1), rfl⟩
    · refine (char_picks (.single '|') hi).mono fun found _ h =>
        ⟨h.1 (.inr (stops_single (by decide))), fun f hf => ?_⟩
      obtain ⟨rfl, -⟩ := h.2.1 f hf
      exact ⟨Nat.lt_succ_self i, rfl⟩
  refine hpicks.attempts hentry rfl fun found h =>
    ⟨attempts_shift hentry rfl h.1, fun m hm => ?_⟩
  obtain ⟨f, hf, rfl⟩ := Option.map_eq_some_iff.mp hm
  obtain ⟨hlt, hnodes⟩ := h.2 f hf
  refine ⟨hlt, ?_⟩
  have hnode : separator.nodesOf i f none = [⟨some "sep", none, none, i, f.stop, f.nodes⟩] := rfl
  rw [hnode, hnodes]

/-- A separator and the sequence after it, as often as there are any. -/
def separated : Entry := many (group [separator, category "sequence"])

theorem body_category : category? "body" =
    some (Builtin.constant "body" (.sequence [category "sequence", separated])) := rfl

/-- Segments can be read only if those of each part can. -/
theorem readSegments_parts {nodes later : List Node}
    {r : List (List Entry) × List (List (List Entry))}
    (h : readSegments vocabulary text (nodes ++ later) = .ok r) :
    (∃ r, readSegments vocabulary text nodes = .ok r) ∧
      ∃ r, readSegments vocabulary text later = .ok r := by
  induction nodes generalizing r with
  | nil => exact ⟨⟨_, rfl⟩, r, h⟩
  | cons node nodes ih =>
    obtain ⟨name, typeName, param, start, stop, children⟩ := node
    rw [List.cons_append, readSegments] at h
    rw [readSegments]
    split at h
    · next htype =>
      obtain ⟨pieces, hpieces, h⟩ := ok_of_bind h
      obtain ⟨segments, hsegments, -⟩ := ok_of_bind h
      obtain ⟨⟨r, hr⟩, hlater⟩ := ih hsegments
      refine ⟨⟨(entriesOf [] pieces :: r.1, r.2), ?_⟩, hlater⟩
      rw [if_pos htype, hpieces, hr]
      rfl
    · next htype =>
      rw [if_neg htype]
      split at h
      · next hsep =>
        obtain ⟨segments, hsegments, -⟩ := ok_of_bind h
        obtain ⟨⟨r, hr⟩, hlater⟩ := ih hsegments
        refine ⟨⟨([], r.1 :: r.2), ?_⟩, hlater⟩
        rw [if_pos hsep, hr]
        rfl
      · next hsep =>
        rw [if_neg hsep]
        exact ih h

theorem SequenceAt.moves_if {items blanks : List Node} {stop : Nat}
    (h : l.SequenceAt i k items blanks stop) :
    l.MovesIf l.Agrees (Repeats l.outer (category "sequence") 0 (i + l.shift))
      (some ⟨stop, [categoryNode "sequence" i stop (items ++ blanks)]⟩) := by
  rintro m ⟨⟩ hagree hclean
  exact .once rfl (.category (by rfl) (h.reads hagree hclean.children))

theorem SequenceAt.segments_clean {items blanks : List Node} {stop : Nat}
    (h : l.SequenceAt i k items blanks stop) :
    l.ReadClean (readSegments l.vocabulary l.inner)
      [categoryNode "sequence" i stop (items ++ blanks)] := by
  intro hsound r hr
  have hread : readSegments l.vocabulary l.inner
      [categoryNode "sequence" i stop (items ++ blanks)] =
        (readPieces l.vocabulary l.inner (items ++ blanks) >>= _) := rfl
  obtain ⟨pieces, hpieces, -⟩ := ok_of_bind (hread.symm.trans hr)
  exact .typed (h.clean hsound.children pieces hpieces) (by decide) (by decide)

section

variable (hgroup : ∀ j, i ≤ j → j ≤ l.inner.size →
  l.Yields (Attempts l.inner (category "group") j) (l.GroupFound j) j)

include hgroup

theorem sequence_category_yields (hi : i ≤ l.inner.size) :
    l.Yields (Repeats l.inner (category "sequence") 0 i) (fun found => ∃ k items blanks stop,
      found = some ⟨stop, [categoryNode "sequence" i stop (items ++ blanks)]⟩ ∧
        l.SequenceAt i k items blanks stop) i := by
  have hattempt : l.Yields (Attempts l.inner (category "sequence") i) (fun found =>
      ∃ k items blanks stop,
        found = some ⟨stop, [categoryNode "sequence" i stop (items ++ blanks)]⟩ ∧
        l.SequenceAt i k items blanks stop) i := by
    refine Yields.attempts (category_matched (by rfl)) (sequence_yields hi hgroup) fun found h => ?_
    obtain ⟨k, items, blanks, stop, rfl, hat⟩ := h
    exact ⟨k, items, blanks, stop, rfl, hat⟩
  exact .once hi rfl hattempt fun found h => h

/-- A separator and a sequence. -/
theorem segment_yields (hi : i ≤ l.inner.size) :
    l.Yields (Reads l.inner [separator, category "sequence"] i) (fun found =>
      l.MovesIf l.Agrees (Reads l.outer [separator, category "sequence"] (i + l.shift)) found ∧
      (found = none → Reads l.outer [separator, category "sequence"] (i + l.shift) none) ∧
      ∀ m ∈ found, i < m.stop ∧ l.ReadClean (readSegments l.vocabulary l.inner) m.nodes ∧
        ∃ node ∈ m.nodes, node.name = some "sep") i := by
  have hsep : l.Yields (Repeats l.inner separator 0 i) (fun found =>
      l.Alike (Repeats l.outer separator 0 (i + l.shift)) found ∧
      ∀ m ∈ found, i < m.stop ∧ m.nodes = [⟨some "sep", none, none, i, m.stop, []⟩]) i :=
    .once hi rfl (separator_yields hi) fun found h => ⟨.once rfl h.1, h.2⟩
  refine .cons hsep (fun m hle hsize hm => ?_) fun hnone =>
    ⟨.none, fun _ => .stuck hnone.1, by rintro m ⟨⟩⟩
  obtain ⟨halike, hsome⟩ := hm
  obtain ⟨hlt, hnodes⟩ := hsome m rfl
  refine (sequence_category_yields (fun j hij hj => hgroup j (Nat.le_trans hle hij) hj)
    hsize).last.mono fun found hin h => ?_
  obtain ⟨k, items, blanks, stop, rfl, hat⟩ := h
  have hlater : l.MovesIf l.Agrees (Reads l.outer [category "sequence"] (m.stop + l.shift))
      (some ⟨stop, [categoryNode "sequence" m.stop stop (items ++ blanks)]⟩) :=
    fun last hlast hagree hclean => .last (hat.moves_if last hlast hagree hclean)
  refine ⟨MovesIf.cons (S := fun _ => True) (halike.moves.matches _) hlater fun _ _ _ => trivial,
    by rintro ⟨⟩, ?_⟩
  rintro both ⟨⟩
  have hle : m.stop ≤ stop := (hin _ rfl).1
  refine ⟨Nat.lt_of_lt_of_le hlt hle, ?_, ⟨some "sep", none, none, i, m.stop, []⟩, ?_, rfl⟩
  · refine ReadClean.append (fun _ => readSegments_parts) (fun _ _ _ => ?_) hat.segments_clean
    rw [hnodes]
    exact Untyped.clean (.node .nil rfl)
  · rw [Match.after, hnodes]
    exact List.mem_cons_self

theorem separated_yields (hi : i ≤ l.inner.size) :
    l.Yields (Repeats l.inner separated 0 i) (fun found => ∃ m, found = some m ∧
      l.MovesIf l.Agrees (Repeats l.outer separated 0 (i + l.shift)) (some m) ∧
      l.ReadClean (readSegments l.vocabulary l.inner) m.nodes ∧
      (m = ⟨i, []⟩ ∨ ∃ node ∈ m.nodes, node.name = some "sep")) i := by
  have hentry : separated.MatchedBy patternTypes none
      (.sequence [separator, category "sequence"]) := (Entry.MatchedBy.ofChecker _).quantified rfl
  have hone (j : Nat) (hij : i ≤ j) (hj : j ≤ l.inner.size) : l.Yields
      (Attempts l.inner separated j) (fun found =>
        l.MovesIf l.Agrees (Attempts l.outer separated (j + l.shift)) found ∧
        (found = none → Attempts l.outer separated (j + l.shift) none) ∧
        ∀ m ∈ found, j < m.stop ∧ l.ReadClean (readSegments l.vocabulary l.inner) m.nodes ∧
          ∃ node ∈ m.nodes, node.name = some "sep") j := by
    obtain ⟨found, hR, hin, hmoves, hnone, hsegments⟩ :=
      segment_yields (fun k hjk hk => hgroup k (Nat.le_trans hij hjk) hk) hj
    exact ⟨found, .group hentry rfl hR, hin,
      fun m hm hagree hclean => .group hentry rfl (hmoves m hm hagree hclean),
      fun hfound => .group hentry rfl (hnone hfound), hsegments⟩
  refine (many_yields rfl rfl hone (fun j m hm => (hm.2.2 m rfl).1) hi 0).mono
    fun found hin h => ?_
  obtain ⟨j, nodes, rfl, hnone, hchain⟩ := h
  refine ⟨_, rfl, ?_, ?_, ?_⟩
  · rintro m ⟨⟩ hagree hclean
    have houter := chain_moves (S := fun k => l.Agrees k ∧ k ≤ l.inner.size)
      (T := Steps l.outer separated) hchain
      (fun j k hjk hk => ⟨hk.1.mono hjk hk.2, Nat.le_trans hjk hk.2⟩)
      (fun j m hm _ hagree hclean => hm.1.1 m rfl hagree.1 hclean) ⟨hagree, (hin _ rfl).2⟩ hclean
    exact Repeats.chain rfl rfl houter (hnone.2.1 rfl) 0
  · exact hchain.nodes_all (fun _ _ _ => .nil) (fun _ _ => .append fun _ => readSegments_parts)
      fun j m hm _ => (hm.1.2.2 m rfl).2.1
  · cases hchain with
    | nil => exact .inl rfl
    | cons hm _ _ =>
      obtain ⟨node, hnode, hname⟩ := (hm.1.2.2 _ rfl).2.2
      exact .inr ⟨node, List.mem_append_left _ hnode, hname⟩

/-- What a body comes to, by its first sequence and what is separated from it. -/
structure BodyAt (l : Inlay) (i k : Nat) (items blanks : List Node) (stop : Nat) (later : Match) :
    Prop where
  first : l.SequenceAt i k items blanks stop
  le : stop ≤ later.stop
  unseparated : later = ⟨stop, []⟩ ∨ ∃ node ∈ later.nodes, node.name = some "sep"
  moves : l.MovesIf l.Agrees (Reads l.outer [category "sequence", separated] (i + l.shift))
    (some (later.after [categoryNode "sequence" i stop (items ++ blanks)]))
  clean : l.ReadClean (readSegments l.vocabulary l.inner)
    (later.after [categoryNode "sequence" i stop (items ++ blanks)]).nodes

theorem body_yields (hi : i ≤ l.inner.size) :
    l.Yields (Reads l.inner [category "sequence", separated] i) (fun found =>
      ∃ k items blanks stop later,
        found = some (later.after [categoryNode "sequence" i stop (items ++ blanks)]) ∧
        l.BodyAt i k items blanks stop later) i := by
  refine .cons (sequence_category_yields hgroup hi) (fun m hle hsize hm => ?_)
    (by rintro ⟨_, _, _, _, ⟨⟩, -⟩)
  obtain ⟨k, items, blanks, stop, ⟨⟩, hat⟩ := hm
  refine (separated_yields (fun j hij hj => hgroup j (Nat.le_trans hle hij) hj)
    hsize).last.mono fun found hin h => ?_
  obtain ⟨later, rfl, hmoves, hclean, hseparated⟩ := h
  obtain ⟨hstop, hlater⟩ := hin later rfl
  have hlast : l.MovesIf l.Agrees (Reads l.outer [separated] (stop + l.shift)) (some later) :=
    fun last hlast hagree hclean => .last (hmoves last hlast hagree hclean)
  refine ⟨k, items, blanks, stop, later, rfl, hat, hstop, hseparated, ?_, ?_⟩
  · refine hat.moves_if.cons hlast fun last heq hagree => ?_
    obtain rfl := Option.some.inj heq
    exact hagree.mono hstop hlater
  · exact hat.segments_clean.append (fun _ => readSegments_parts) hclean

/-- A body as an entry. -/
theorem body_entry_yields {entry : Entry} (hi : i ≤ l.inner.size)
    (hentry : entry.MatchedBy patternTypes (some ⟨Builtin.constant "body" body, none⟩) body)
    (hflat : entry.isFlat = false) (hlower : entry.quantifier.lower = 1)
    (hupper : entry.quantifier.upper = some 1) :
    l.Yields (Repeats l.inner entry 0 i) (fun found => ∃ m, found = some m ∧
      l.MovesIf l.Agrees (Repeats l.outer entry 0 (i + l.shift)) (some m) ∧
      ∃ children, m.nodes = [⟨entry.name?, some "body", none, i, m.stop, children⟩] ∧
        l.ReadClean (readSegments l.vocabulary l.inner) children) i := by
  have hread : l.Yields (Reads l.inner [category "sequence", separated] i) (fun found =>
      ∃ m, found = some m ∧ l.MovesIf l.Agrees (Reads l.outer [category "sequence", separated]
        (i + l.shift)) (some m) ∧ l.ReadClean (readSegments l.vocabulary l.inner) m.nodes) i := by
    refine (body_yields hgroup hi).mono fun found _ h => ?_
    obtain ⟨k, items, blanks, stop, later, rfl, hbody⟩ := h
    exact ⟨_, rfl, hbody.moves, hbody.clean⟩
  refine (walked_yields hi hentry hflat hlower hupper hread).mono fun found _ h => ?_
  obtain ⟨m, rfl, hmoves, m', hclean, hstop, hnodes⟩ := h
  refine ⟨m, rfl, hmoves, m'.nodes, ?_, hclean⟩
  rw [hnodes, hstop]
  simp only [Entry.nodesOf, hflat]
  rfl

end

end Inlay

end TextGrammar.Pattern
