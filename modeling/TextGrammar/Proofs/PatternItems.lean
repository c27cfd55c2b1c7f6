/-
The items of patterns. Which element an item is shows in its first character,
and no element begins with a line break. So an item moves to the outer text of
an inlay whatever follows the inner one, if groups do.
-/
import TextGrammar.Proofs.PatternSets

namespace TextGrammar.Pattern

variable {vocabulary : Vocabulary} {text : Text}

/-! ## Reading pieces -/

/-- Pieces are read one after the other. -/
theorem readPieces_append (nodes later : List Node) :
    readPieces vocabulary text (nodes ++ later) = (do
      let pieces ← readPieces vocabulary text nodes
      let others ← readPieces vocabulary text later
      pure (pieces ++ others)) := by
  induction nodes with
  | nil =>
    simp only [List.nil_append, readPieces]
    exact (bind_pure _).symm
  | cons node nodes ih =>
    obtain ⟨name, typeName, param, start, stop, children⟩ := node
    rw [List.cons_append, readPieces, readPieces]
    split
    · rw [ih]
      dsimp only
      split <;> simp only [bind_assoc, pure_bind, List.cons_append]
    · exact ih

/-- Pieces can be read only if those of each part can. -/
theorem readPieces_parts {nodes later : List Node} {pieces : List Piece}
    (h : readPieces vocabulary text (nodes ++ later) = .ok pieces) :
    (∃ pieces, readPieces vocabulary text nodes = .ok pieces) ∧
      ∃ pieces, readPieces vocabulary text later = .ok pieces := by
  rw [readPieces_append] at h
  obtain ⟨here, hhere, h⟩ := ok_of_bind h
  obtain ⟨others, hothers, -⟩ := ok_of_bind h
  exact ⟨⟨here, hhere⟩, others, hothers⟩

/-- The pieces of an item can be read only if its element can. -/
theorem readItem_of_pieces {i stop : Nat} {children : List Node} {pieces : List Piece}
    (h : readPieces vocabulary text [categoryNode "item" i stop children] = .ok pieces) :
    ∃ missing q piece, readItem vocabulary text missing q children = .ok piece := by
  rw [categoryNode, readPieces, if_pos (by decide)] at h
  dsimp only at h
  split at h
  all_goals
    obtain ⟨q, -, h⟩ := ok_of_bind h
    obtain ⟨piece, hpiece, -⟩ := ok_of_bind h
    exact ⟨_, q, piece, hpiece⟩

namespace Inlay

variable {l : Inlay} {i : Nat}

/-! ## Elements -/

/-- What a group comes to: it moves, begins with its parenthesis, and is clean if it can be read. -/
structure GroupFound (l : Inlay) (i : Nat) (found : Option Match) : Prop where
  moves : l.Moves (Attempts l.outer (category "group") (i + l.shift)) found
  opens : found = none ↔ l.inner[i]? ≠ some '('
  clean : ∀ m ∈ found, i < m.stop ∧ ∃ children,
    m.nodes = [categoryNode "group" i m.stop children] ∧ (Sound children → ∀ entry,
      readGroup l.vocabulary l.inner (categoryNode "group" i m.stop children) = .ok entry →
        l.Clean children)

/-- The nodes of an element are clean if an item can be read from them. -/
def ElementClean (l : Inlay) (nodes : List Node) : Prop :=
  Sound nodes → ∀ missing q later piece,
    readItem l.vocabulary l.inner missing q (nodes ++ later) = .ok piece → l.Clean nodes

/-- The nodes of an element. -/
def elementNodes (i : Nat) (f : Found) : List Node :=
  (Entry.ofChecker (.oneOf elements none)).nodesOf i f none

/-- What an element comes to. -/
structure ElementAt (l : Inlay) (i : Nat) (f : Found) : Prop where
  lt : i < f.stop
  opens : ∃ x, l.inner[i]? = some x ∧ x ∉ signs
  clean : l.ElementClean (elementNodes i f)
  unnamed : l.inner[i]? = some '$' → Sound f.nodes → Reads l.inner captureEntries i none

/-- The characters that elements of several kinds begin with. -/
def openings : List (List Char) := [['('], ['['], quotes, ['!'], ['$'], ['\\'], ['.']]

/-- Which element may stand there. -/
def elementKey (text : Text) (i : Nat) : Nat :=
  openings.findIdx (·.contains (text[i]?.getD '\n'))

theorem elementKey_of_get {text : Text} {x : Char} (h : text[i]? = some x) :
    elementKey text i = openings.findIdx (·.contains x) := by
  rw [elementKey, h]
  rfl

/-- An element that is a category. -/
theorem category_suits {name : String} {k : Nat} (hi : i ≤ l.inner.size)
    (h : l.Yields (Attempts l.inner (category name) i) (fun found =>
      l.Moves (Attempts l.outer (category name) (i + l.shift)) found ∧
      ∀ m ∈ found, elementKey l.inner i = k ∧ l.ElementAt i m.found) i) :
    l.Suits True (l.ElementAt i) i (elementKey l.inner i) k (.sequence [category name]) := by
  have hone := Yields.one hi rfl rfl (h.mono fun found _ hfound =>
    (⟨fun _ => hfound.1, hfound.2⟩ : (True → _) ∧ _))
  refine Yields.suits (hone.last.mono fun found _ hfound =>
    ⟨fun _ hclean => .last (hfound.1 trivial hclean), hfound.2⟩)

theorem group_suits (hi : i ≤ l.inner.size)
    (hgroup : l.Yields (Attempts l.inner (category "group") i) (l.GroupFound i) i) :
    l.Suits True (l.ElementAt i) i (elementKey l.inner i) 0 (.sequence [category "group"]) := by
  refine category_suits hi (hgroup.mono fun found _ h => ⟨h.moves, fun m hm => ?_⟩)
  have hget := opens_of_some h.opens (Option.isSome_of_mem hm)
  obtain ⟨hlt, children, hnodes, hclean⟩ := h.clean m hm
  refine ⟨elementKey_of_get hget, hlt, ⟨_, hget, by decide⟩, ?_, fun hdollar => ?_⟩
  · rw [elementNodes, show (Entry.ofChecker (.oneOf elements none)).nodesOf i m.found none =
      m.nodes from rfl, hnodes]
    intro hsound missing q later piece hread
    have hgroup : readItem l.vocabulary l.inner missing q
        ([categoryNode "group" i m.stop children] ++ later) =
          (readGroup l.vocabulary l.inner (categoryNode "group" i m.stop children) >>= _) := rfl
    obtain ⟨entry, hentry, -⟩ := ok_of_bind (hgroup.symm.trans hread)
    exact .typed (hclean hsound.children entry hentry) (by decide) (by decide)
  · rw [hget] at hdollar
    cases hdollar

theorem set_suits (hi : i ≤ l.inner.size) :
    l.Suits True (l.ElementAt i) i (elementKey l.inner i) 1 (.sequence [category "charSet"]) := by
  refine category_suits hi ((charSet_yields hi).mono fun found _ h => ⟨h.moves, fun m hm => ?_⟩)
  have hget := opens_of_some h.opens (Option.isSome_of_mem hm)
  obtain ⟨hlt, children, hnodes, hclean⟩ := h.clean m hm
  refine ⟨elementKey_of_get hget, hlt, ⟨_, hget, by decide⟩, ?_, fun hdollar => ?_⟩
  · rw [elementNodes, show (Entry.ofChecker (.oneOf elements none)).nodesOf i m.found none =
      m.nodes from rfl, hnodes]
    intro hsound missing q later piece hread
    have hset : readItem l.vocabulary l.inner missing q
        ([categoryNode "charSet" i m.stop children] ++ later) =
          (readSet l.vocabulary l.inner (categoryNode "charSet" i m.stop children) >>= _) := rfl
    obtain ⟨set, hset, -⟩ := ok_of_bind (hset.symm.trans hread)
    exact .typed (hclean hsound.children set hset) (by decide) (by decide)
  · rw [hget] at hdollar
    cases hdollar

/-- Quotes begin literals and nothing else. -/
theorem key_of_quote {x : Char} (hx : x ∈ quotes) :
    openings.findIdx (·.contains x) = 2 ∧ x ∉ signs ∧ x ≠ '$' := by
  have hquotes : quotes.all (fun x =>
      openings.findIdx (·.contains x) = 2 ∧ x ∉ signs ∧ x ≠ '$') = true := by
    decide
  exact of_decide_eq_true (List.all_eq_true.mp hquotes x hx)

theorem quoted_suits (hi : i ≤ l.inner.size) :
    l.Suits True (l.ElementAt i) i (elementKey l.inner i) 2 (.sequence [category "quoted"]) := by
  refine category_suits hi ((quoted_yields hi).mono fun found _ h => ⟨h.1, fun m hm => ?_⟩)
  obtain ⟨⟨x, hx, hget⟩, hlt, children, hnodes, hliteral⟩ := h.2 m hm
  obtain ⟨hkey, hsign, hdollar⟩ := key_of_quote hx
  refine ⟨(elementKey_of_get hget).trans hkey, hlt, ⟨_, hget, hsign⟩, ?_, fun hget' => ?_⟩
  · rw [elementNodes, show (Entry.ofChecker (.oneOf elements none)).nodesOf i m.found none =
      m.nodes from rfl, hnodes]
    intro hsound missing q later piece hread
    have hread' : readItem l.vocabulary l.inner missing q
        ([categoryNode "quoted" i m.stop children] ++ later) =
          (readQuoted l.vocabulary (inText l.inner (categoryNode "quoted" i m.stop children)) >>=
            _) := rfl
    obtain ⟨literal, hquoted, -⟩ := ok_of_bind (hread'.symm.trans hread)
    have hchildren := hsound.children
    exact .typed ((hliteral hchildren).clean hchildren hquoted) (by decide) (by decide)
  · rw [hget] at hget'
    exact absurd (Option.some.inj hget') hdollar

theorem typeRef_suits (hi : i ≤ l.inner.size) :
    l.Suits True (l.ElementAt i) i (elementKey l.inner i) 3 (.sequence [category "typeRef"]) := by
  refine category_suits hi ((typeRef_yields hi).mono fun found _ h => ⟨h.1, fun m hm => ?_⟩)
  obtain ⟨hget, hlt, children, -, hplain⟩ := h.2 m hm
  refine ⟨elementKey_of_get hget, hlt, ⟨_, hget, by decide⟩, fun hsound _ _ _ _ _ => ?_,
    fun hdollar => ?_⟩
  · exact hplain hsound
  · rw [hget] at hdollar
    cases hdollar

theorem backRef_suits (hi : i ≤ l.inner.size) :
    l.Suits True (l.ElementAt i) i (elementKey l.inner i) 4 (.sequence [category "backRef"]) := by
  refine category_suits hi ((backRef_yields hi).mono fun found _ h => ⟨h.1, fun m hm => ?_⟩)
  obtain ⟨hget, hlt, children, hnodes, hplain, hunnamed⟩ := h.2 m hm
  refine ⟨elementKey_of_get hget, hlt, ⟨_, hget, by decide⟩, fun hsound _ _ _ _ _ => ?_,
    fun _ hsound => ?_⟩
  · exact hplain hsound
  · rw [Match.found, hnodes] at hsound
    exact hunnamed hsound.children

theorem escape_suits (hi : i ≤ l.inner.size) :
    l.Suits True (l.ElementAt i) i (elementKey l.inner i) 5 (.sequence [category "escape"]) := by
  refine category_suits hi ((escape_yields hi).mono fun found _ h => ⟨h.1, fun m hm => ?_⟩)
  have hget := opens_of_some h.2.1 (Option.isSome_of_mem hm)
  obtain ⟨hlt, children, hnodes, huntyped⟩ := h.2.2 m hm
  refine ⟨elementKey_of_get hget, hlt, ⟨_, hget, by decide⟩, ?_, fun hdollar => ?_⟩
  · rw [elementNodes, show (Entry.ofChecker (.oneOf elements none)).nodesOf i m.found none =
      m.nodes from rfl, hnodes]
    intro hsound missing q later piece hread
    have hread' : readItem l.vocabulary l.inner missing q
        ([categoryNode "escape" i m.stop children] ++ later) =
          (readEscape l.vocabulary (inText l.inner (categoryNode "escape" i m.stop children)) >>=
            _) := rfl
    obtain ⟨escaped, hescape, -⟩ := ok_of_bind (hread'.symm.trans hread)
    intro node hnode
    rcases List.mem_cons.mp hnode with rfl | hnode
    · exact ⟨(by decide : some "escape" ≠ some "fatalError"), fun _ => ⟨escaped, hescape⟩⟩
    · exact (huntyped hsound.children).clean node hnode
  · rw [hget] at hdollar
    cases hdollar

/-- An element that is one character. -/
theorem character_suits {set : CharSet} {k : Nat} (hi : i ≤ l.inner.size) (hstops : Stops set)
    (hset : ∀ x, set.contains .standard x = true →
      openings.findIdx (·.contains x) = k ∧ x ∉ signs ∧ x ≠ '$') :
    l.Suits True (l.ElementAt i) i (elementKey l.inner i) k (.char set) := by
  refine char_suits hi (fun _ => .inr hstops) fun x hget hx => ?_
  obtain ⟨hkey, hsign, hdollar⟩ := hset x hx
  refine ⟨(elementKey_of_get hget).trans hkey, Nat.lt_succ_self i, ⟨x, hget, hsign⟩, ?_, ?_⟩
  · exact fun _ _ _ _ _ _ => (Untyped.leaf _ _).clean
  · intro hget' _
    exact absurd (Option.some.inj (hget.symm.trans hget')) hdollar

theorem elements_pick (hi : i ≤ l.inner.size)
    (hgroup : l.Yields (Attempts l.inner (category "group") i) (l.GroupFound i) i) :
    l.Picks (Chooses l.inner (.oneOf elements none) i) (fun found =>
      (True → l.Passes (Chooses l.outer (.oneOf elements none) (i + l.shift)) found) ∧
      ∀ f ∈ found, l.ElementAt i f) i := by
  refine Picks.one_of (elementKey l.inner i) ?_
  rintro (_ | _ | _ | _ | _ | _ | _ | _ | k) c hc <;> cases hc
  · exact group_suits hi hgroup
  · exact set_suits hi
  · exact quoted_suits hi
  · exact typeRef_suits hi
  · exact backRef_suits hi
  · exact escape_suits hi
  · refine character_suits hi (stops_single (by decide)) fun x hx => ?_
    obtain rfl : '.' = x := beq_iff_eq.mp hx
    decide
  · refine character_suits hi rfl fun x hx => ?_
    have hopening : x ∉ openings.flatten := not_mem_of_contains (by decide) hx
    refine ⟨?_, not_mem_of_contains (by decide) hx, ?_⟩
    · refine List.findIdx_eq_length.mpr fun cs hcs => ?_
      refine eq_false_of_ne_true fun hin => hopening (List.mem_flatten.mpr ⟨cs, hcs, ?_⟩)
      exact List.contains_iff_mem.mp hin
    · rintro rfl
      cases hx

/-! ## Items -/

/-- What an item comes to. -/
structure ItemAt (l : Inlay) (i : Nat) (m : Match) : Prop where
  lt : i < m.stop
  opens : ∃ x, l.inner[i]? = some x ∧ x ∉ signs
  clean : l.ReadClean (readPieces l.vocabulary l.inner) m.nodes
  unnamed : l.inner[i]? = some '$' → Sound m.nodes → Reads l.inner captureEntries i none

theorem item_yields (hi : i ≤ l.inner.size)
    (hgroup : l.Yields (Attempts l.inner (category "group") i) (l.GroupFound i) i) :
    l.Yields (Attempts l.inner (category "item") i) (fun found =>
      l.Moves (Attempts l.outer (category "item") (i + l.shift)) found ∧
      ∀ m ∈ found, l.ItemAt i m) i := by
  have hentry : (category "item").MatchedBy patternTypes
      (some ⟨Builtin.constant "item" item, none⟩) (.sequence
        [.ofChecker (.oneOf elements none), optional (category "quantifier")]) :=
    category_matched (by rfl)
  have hquantifier (j : Nat) (hj : j ≤ l.inner.size) : l.Yields
      (Reads l.inner [optional (category "quantifier")] j) (fun later => ∃ last, later = some last ∧
        l.Moves (Reads l.outer [optional (category "quantifier")] (j + l.shift)) (some last) ∧
        l.Plain last.nodes) j := by
    have hattempt : l.Yields (Attempts l.inner (optional (category "quantifier")) j) (fun found =>
        (True → l.Moves (Attempts l.outer (optional (category "quantifier")) (j + l.shift)) found) ∧
        ∀ m ∈ found, l.Plain m.nodes) j :=
      (quantifier_yields hj).mono fun found _ h => ⟨fun _ => h.1, fun m hm => (h.2 m hm).2.1⟩
    refine (hattempt.maybe hj rfl rfl).last.mono fun found _ h => ?_
    obtain ⟨last, rfl, hmoves, hlast⟩ := h
    refine ⟨last, rfl, fun hclean => .last (hmoves trivial hclean), ?_⟩
    rcases hlast with rfl | hplain
    · exact .nil
    · exact hplain
  have hread := Yields.followed (Q := fun _ last => l.Plain last.nodes)
    (((choice_yields rfl (Entry.MatchedBy.ofChecker _) (elements_pick hi hgroup)).one hi rfl
      rfl).mono fun found _ h => ⟨h.1 trivial, h.2⟩) fun j _ hj => hquantifier j hj
  refine Yields.attempts hentry hread fun found h => ⟨.grammar rfl hentry h.1, fun m hm => ?_⟩
  obtain ⟨both, hboth, rfl⟩ := Option.map_eq_some_iff.mp hm
  obtain ⟨m, last, rfl, ⟨f, helement, hstop, hnodes⟩, hplain, hle⟩ := h.2 both hboth
  refine ⟨Nat.lt_of_lt_of_le (hstop ▸ helement.lt) hle, helement.opens, ?_, ?_⟩
  · intro hsound pieces hpieces
    obtain ⟨missing, q, piece, hpiece⟩ := readItem_of_pieces hpieces
    obtain ⟨hsoundHere, hsoundLast⟩ := AllNodes.append_iff.mp hsound.children
    rw [hnodes] at hsoundHere hpiece
    refine .typed (AllNodes.append_iff.mpr ⟨?_, hplain hsoundLast⟩) (by decide) (by decide)
    rw [hnodes]
    exact helement.clean hsoundHere missing q last.nodes piece hpiece
  · intro hdollar hsound
    obtain ⟨hsoundHere, -⟩ := AllNodes.append_iff.mp hsound.children
    rw [hnodes] at hsoundHere
    exact helement.unnamed hdollar (hsoundHere.of_nodesOf rfl)

end Inlay

end TextGrammar.Pattern
