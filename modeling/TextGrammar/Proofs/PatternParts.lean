/-
The parts of patterns that hold no others: white space and comments, quantifiers
and references. Each of them moves to the outer text of an inlay wherever it is
found, except that the white space at the end of the inner text goes on there.
-/
import TextGrammar.Proofs.PatternMoves
import TextGrammar.Proofs.Texts

namespace TextGrammar.Pattern.Inlay

variable {l : Inlay} {i : Nat}

/-! ## Words -/

/-- Characters other than line breaks stand at the same places. -/
theorem hasAt_outer {cs : List Char} (hcs : '\n' ∉ cs) (hi : i ≤ l.inner.size) :
    l.outer.hasAt (i + l.shift) cs = l.inner.hasAt i cs := by
  induction cs generalizing i with
  | nil => rfl
  | cons c cs ih =>
    obtain ⟨hc, hcs⟩ := not_or.mp (List.mem_cons.not.mp hcs)
    simp only [Text.hasAt]
    rcases Nat.lt_or_ge i l.inner.size with hlt | hge
    · have hrest := ih hcs (Nat.succ_le_of_lt hlt)
      rw [l.same i hlt, Nat.add_right_comm, hrest]
    · obtain rfl : i = l.inner.size := by omega
      have hend : l.inner[l.inner.size]? = none := Array.getElem?_eq_none (Nat.le_refl _)
      have hbeyond : l.outer[l.inner.size + l.shift]? ≠ some c := fun hget =>
        hc (l.beyond c hget).symm
      rw [hend, beq_false_of_ne hbeyond]
      rfl

/-- A word without line breaks, as a choice. -/
theorem word_picks {w : Word} (hw : '\n' ∉ w.chars) (hi : i ≤ l.inner.size) :
    l.Picks (Chooses l.inner (.word w) i) (fun found =>
      Chooses l.outer (.word w) (i + l.shift) (found.map (.shift l.shift)) ∧
      (∀ f ∈ found, f = ⟨i + w.length, [], false⟩ ∧ l.inner.hasAt i w.chars = true) ∧
      (found = none → l.inner.hasAt i w.chars = false)) i := by
  have hinner : Chooses l.inner (.word w) i _ := .word w
  have houter : Chooses l.outer (.word w) (i + l.shift) _ := .word w
  have hsame : w.lengthAt l.outer (i + l.shift) = w.lengthAt l.inner i := by
    simp only [Word.lengthAt, hasAt_outer hw hi]
  rw [hsame] at houter
  by_cases hhas : l.inner.hasAt i w.chars = true
  · have hlength : w.lengthAt l.inner i = some w.length := if_pos hhas
    rw [hlength] at hinner houter
    rw [Option.map_some, Nat.add_right_comm] at houter
    have hsize := Text.hasAt_le hhas hi
    refine ⟨_, hinner, ?_, houter, ?_, by rintro ⟨⟩⟩
    · rintro f ⟨⟩
      exact ⟨Nat.le_add_right _ _, hsize⟩
    · rintro f ⟨⟩
      exact ⟨rfl, hhas⟩
  · have hlength : w.lengthAt l.inner i = none := if_neg hhas
    rw [hlength] at hinner houter
    exact ⟨_, hinner, by rintro f ⟨⟩, houter, by rintro f ⟨⟩, fun _ => eq_false_of_ne_true hhas⟩

/-- A word without line breaks. -/
theorem word_yields {w : Word} (hw : '\n' ∉ w.chars) (hi : i ≤ l.inner.size) :
    l.Yields (Repeats l.inner (.ofChecker (.word w)) 0 i) (fun found =>
      l.Alike (Repeats l.outer (.ofChecker (.word w)) 0 (i + l.shift)) found ∧
      (∀ m ∈ found, m = ⟨i + w.length, [.leaf i (i + w.length)]⟩ ∧
        l.inner.hasAt i w.chars = true) ∧
      (found = none → l.inner.hasAt i w.chars = false)) i := by
  have hentry : (Entry.ofChecker (.word w)).MatchedBy patternTypes none (.word w) := .ofChecker _
  have hattempt : l.Yields (Attempts l.inner (.ofChecker (.word w)) i) (fun found =>
      l.Alike (Attempts l.outer (.ofChecker (.word w)) (i + l.shift)) found ∧
      (∀ m ∈ found, m = ⟨i + w.length, [.leaf i (i + w.length)]⟩ ∧
        l.inner.hasAt i w.chars = true) ∧
      (found = none → l.inner.hasAt i w.chars = false)) i := by
    refine (word_picks hw hi).attempts hentry rfl fun found h =>
      ⟨attempts_shift hentry rfl h.1, fun m hm => ?_, fun hnone =>
        h.2.2 (Option.map_eq_none_iff.mp hnone)⟩
    obtain ⟨f, hf, rfl⟩ := Option.map_eq_some_iff.mp hm
    obtain ⟨rfl, hhas⟩ := h.2.1 f hf
    exact ⟨rfl, hhas⟩
  exact .once hi rfl hattempt fun found h => ⟨.once rfl h.1, h.2⟩

/-! ## White space and comments -/

/-- A character where a word does not begin. At the end of the text that is none at all. -/
theorem not_word_yields {w : Word} (hw : '\n' ∉ w.chars) (hi : i ≤ l.inner.size) :
    l.Yields (Attempts l.inner (many (.ofChecker (.not (.word w)))) i) (fun found =>
      (i < l.inner.size →
        l.Alike (Attempts l.outer (many (.ofChecker (.not (.word w)))) (i + l.shift)) found) ∧
      (∀ m ∈ found, i < m.stop → m = ⟨i + 1, [.leaf i (i + 1)]⟩) ∧
      ∀ m ∈ found, m.stop = i → i = l.inner.size) i := by
  have hentry : (many (.ofChecker (.not (.word w)))).MatchedBy patternTypes none (.not (.word w)) :=
    (Entry.MatchedBy.ofChecker _).quantified rfl
  have hchoice : ∀ cs fallback, Checker.not (.word w) ≠ .oneOf cs fallback := by rintro _ _ ⟨⟩
  have hnot (text : Text) (i : Nat) : Chooses text (.not (.word w)) i
      ((if text.size ≤ i then some 0 else if text.hasAt i w.chars then none else some 1).map
        fun n => ⟨i + n, [], false⟩) := by
    refine .of_length _ (by rintro _ ⟨⟩) hchoice fun run outer => ?_
    have htext : ((searching text).around outer).text = text := rfl
    simp only [Checker.lengthAt, Word.lengthAt, htext]
    split
    · rfl
    · split <;> rfl
  have hinner := hnot l.inner i
  rcases Nat.lt_or_ge i l.inner.size with hlt | hge
  · have houter := hnot l.outer (i + l.shift)
    have hbound : ¬ l.outer.size ≤ i + l.shift := by
      have hget := (l.same i hlt).trans (Array.getElem?_eq_getElem hlt)
      exact Nat.not_le_of_lt (Array.getElem?_eq_some_iff.mp hget).1
    rw [if_neg hbound, hasAt_outer hw hi] at houter
    rw [if_neg (Nat.not_le_of_lt hlt)] at hinner
    by_cases hhas : l.inner.hasAt i w.chars = true
    · rw [if_pos hhas] at hinner houter
      exact ⟨none, .at_once hentry rfl hinner, by rintro m ⟨⟩,
        fun _ => .at_once hentry rfl houter, by rintro m ⟨⟩, by rintro m ⟨⟩⟩
    · rw [if_neg hhas] at hinner houter
      rw [Option.map_some, Nat.add_right_comm] at houter
      refine ⟨_, .at_once hentry rfl hinner, ?_,
        fun _ => attempts_shift hentry rfl houter, ?_, ?_⟩
      · rintro m ⟨⟩
        exact ⟨Nat.le_succ i, hlt⟩
      · rintro m ⟨⟩ -
        rfl
      · rintro m ⟨⟩ hstop
        exact absurd hstop (Nat.succ_ne_self i)
  · rw [if_pos hge] at hinner
    refine ⟨_, .at_once hentry rfl hinner, ?_, fun hlt => absurd hlt (by omega), ?_, ?_⟩
    · rintro m ⟨⟩
      exact ⟨Nat.le_refl i, hi⟩
    · rintro m ⟨⟩ hlt
      exact absurd hlt (Nat.lt_irrefl i)
    · rintro m ⟨⟩ -
      exact Nat.le_antisymm hi hge

/-- What follows the opening of a comment, up to its end. -/
theorem comment_content_yields {w : Word} (hw : '\n' ∉ w.chars) (hi : i ≤ l.inner.size) :
    l.Yields (Reads l.inner [many (.ofChecker (.not (.word w))), .ofChecker (.word w)] i)
      (fun found =>
        l.MovesIf (fun _ => True)
          (Reads l.outer [many (.ofChecker (.not (.word w))), .ofChecker (.word w)] (i + l.shift))
          found ∧
        ∀ m ∈ found, Untyped m.nodes) i := by
  refine .cons (chain_yields rfl rfl (fun j _ hj => not_word_yields hw hj) hi 0)
    (fun m _ hsize hm => ?_) fun hnone => ⟨.none, by rintro m ⟨⟩⟩
  obtain ⟨j, nodes, ⟨⟩, hout⟩ := hm
  refine (word_yields hw hsize).last.mono fun later _ hlater => ?_
  obtain ⟨halike, hsome, -⟩ := hlater
  cases later with
  | none => exact ⟨.none, by rintro m ⟨⟩⟩
  | some last =>
    obtain ⟨rfl, hhas⟩ := hsome last rfl
    have hlt : j < l.inner.size := by
      have hle := Text.hasAt_le hhas hsize
      simp only [Word.chars, List.length_cons] at hle
      omega
    rcases hout with ⟨hnone, hchain⟩ | ⟨m, hm, hstop⟩
    · have huntyped : Untyped nodes := by
        refine hchain.nodes_all .nil (fun _ _ => .append) fun j m hm hlt => ?_
        rw [hm.1.2.1 m rfl hlt]
        exact .leaf _ _
      have houter := chain_moves (S := fun _ => True)
        (T := Steps l.outer (many (.ofChecker (.not (.word w))))) hchain (fun _ _ _ => id)
        (fun j m hm hlt _ _ => hm.1.1 (Nat.lt_of_lt_of_le hlt hm.2)) trivial huntyped.clean
      refine ⟨?_, ?_⟩
      · rintro both ⟨⟩ - -
        have hboth := Reads.cons (Repeats.chain rfl rfl houter (hnone.1 hlt) 0) (.last halike)
        rw [Match.shift_after]
        exact hboth
      · rintro both ⟨⟩
        exact huntyped.append (Untyped.leaf _ _)
    · exact absurd (hm.2.2 m rfl hstop) (Nat.ne_of_lt hlt)

/-- A comment that goes up to a closing word. -/
theorem comment_yields (w w' : Word) {message : String} (hw : '\n' ∉ w.chars)
    (hw' : '\n' ∉ w'.chars) (hi : i ≤ l.inner.size) :
    l.Yields (Reads l.inner [.ofChecker (.word w), .ofChecker (orFatal (.sequence
        [many (.ofChecker (.not (.word w'))), .ofChecker (.word w')]) message)] i) (fun found =>
      l.Moves (Reads l.outer [.ofChecker (.word w), .ofChecker (orFatal (.sequence
        [many (.ofChecker (.not (.word w'))), .ofChecker (.word w')]) message)] (i + l.shift))
          found ∧
      (found.isSome → l.inner.hasAt i w.chars = true) ∧
      ∀ m ∈ found, i < m.stop ∧ l.Plain m.nodes) i := by
  refine .cons (word_yields hw hi) (fun m _ hsize hm => ?_) fun hnone =>
    ⟨fun _ => .stuck hnone.1, by rintro ⟨⟩, by rintro m ⟨⟩⟩
  obtain ⟨halike, hsome, -⟩ := hm
  obtain ⟨rfl, hhas⟩ := hsome m rfl
  refine (or_fatal_yields message hsize (comment_content_yields hw' hsize)).last.mono
    fun found hin hfound => ?_
  obtain ⟨m, rfl, hmoves, huntyped⟩ := hfound
  refine ⟨.cons_alike halike fun hclean => .last (hmoves (hclean m rfl)), fun _ => hhas, ?_⟩
  rintro both ⟨⟩
  have hle : i + w.length ≤ m.stop := (hin m rfl).1
  refine ⟨Nat.lt_of_lt_of_le (Nat.lt_add_of_pos_right (Nat.succ_pos _)) hle, fun hsound => ?_⟩
  exact Untyped.clean ((Untyped.leaf _ _).append (huntyped (AllNodes.append_iff.mp hsound).2))

/-- A comment up to the end of its line. -/
theorem line_yields (hi : i ≤ l.inner.size) :
    l.Yields (Reads l.inner [literal "//", many (.ofChecker (noneOf "\n"))] i) (fun found =>
      l.Moves (Reads l.outer [literal "//", many (.ofChecker (noneOf "\n"))] (i + l.shift)) found ∧
      (found.isSome → l.inner.hasAt i ['/', '/'] = true) ∧
      ∀ m ∈ found, i < m.stop ∧ l.Plain m.nodes) i := by
  have hword : '\n' ∉ (⟨'/', ['/']⟩ : Word).chars := by decide
  have hline : ∀ j, j ≤ l.inner.size → l.Yields (Reads l.inner [many (.ofChecker (noneOf "\n"))] j)
      (fun found => l.Steady (Reads l.outer [many (.ofChecker (noneOf "\n"))] (j + l.shift)) found)
      j := fun j hj => .steady_cons (.steady_repeats (fun _ _ hk =>
        .steady_char ((Entry.MatchedBy.ofChecker (.char (.complement (.ofString "\n")))).quantified
          rfl) hk rfl) hj 0)
      fun _ _ hk => .steady_nil hk
  refine .cons (word_yields hword hi) (fun m _ hsize hm => ?_) fun hnone =>
    ⟨fun _ => .stuck hnone.1, by rintro ⟨⟩, by rintro m ⟨⟩⟩
  obtain ⟨halike, hsome, -⟩ := hm
  obtain ⟨rfl, hhas⟩ := hsome m rfl
  refine (hline _ hsize).mono fun found hin hfound => ?_
  refine ⟨.cons_alike halike fun _ => hfound.alike, fun _ => hhas, fun both hboth => ?_⟩
  obtain ⟨m, hm, rfl⟩ := Option.map_eq_some_iff.mp hboth
  have hle : i + 2 ≤ m.stop := (hin m hm).1
  exact ⟨show i < m.stop by omega, fun _ =>
    Untyped.clean ((Untyped.leaf _ _).append (hfound.untyped m hm))⟩

/-- The characters that a quantifier or a negation begins with. -/
def signs : List Char := ['?', '*', '+', '^', '\x7b']

theorem not_mem_of_contains {set : CharSet} {cs : List Char}
    (h : cs.any (set.contains .standard) = false) {x : Char}
    (hx : set.contains .standard x = true) : x ∉ cs := fun hmem =>
  List.any_eq_false.mp h x hmem hx

/-- Which of white space and the kinds of comments may stand there. -/
def ignoredKey (text : Text) (i : Nat) : Nat :=
  if text[i]? = some '(' then 2
  else if text[i]? = some '/' then if text[i + 1]? = some '*' then 1 else 3
  else 0

theorem hasAt_two {text : Text} {a b : Char} (h : text.hasAt i [a, b] = true) :
    text[i]? = some a ∧ text[i + 1]? = some b := by
  simpa [Text.hasAt] using h

/-- White space and comments. -/
theorem ignored_yields (hi : i ≤ l.inner.size) :
    l.Yields (Attempts l.inner (many (category "ignored")) i) (fun found =>
      (l.Agrees i → l.Moves (Attempts l.outer (many (category "ignored")) (i + l.shift)) found) ∧
      ∀ m ∈ found, i < m.stop ∧ l.Plain m.nodes ∧
        (∃ children, m.nodes = [categoryNode "ignored" i m.stop children]) ∧
        ∃ x, l.inner[i]? = some x ∧ x ≠ '$' ∧ x ∉ signs) i := by
  have hentry : (many (category "ignored")).MatchedBy patternTypes
      (some ⟨Builtin.constant "ignored" ignored, none⟩) ignored :=
    (category_matched rfl).quantified rfl
  have hspace : ∀ x, (CharSet.named "whitespace").contains .standard x = true →
      x ≠ '(' ∧ x ≠ '/' ∧ x ≠ '$' ∧ x ∉ signs := by
    intro x hx
    refine ⟨?_, ?_, ?_, not_mem_of_contains (by decide) hx⟩ <;>
    · rintro rfl
      cases hx
  have hchoice : l.Picks (Chooses l.inner ignored i) (fun found =>
      (l.Agrees i → l.Passes (Chooses l.outer ignored (i + l.shift)) found) ∧
      ∀ f ∈ found, i < f.stop ∧ l.Plain f.nodes ∧
        ∃ x, l.inner[i]? = some x ∧ x ≠ '$' ∧ x ∉ signs) i := by
    refine Picks.one_of (ignoredKey l.inner i) ?_
    rintro (_ | _ | _ | _ | k) c hc <;> cases hc
    · refine char_suits hi .inl fun x hx hset => ?_
      obtain ⟨hparen, hslash, hother⟩ := hspace x hset
      refine ⟨?_, Nat.lt_succ_self i, fun _ => .nil, x, hx, hother⟩
      simp [ignoredKey, hx, hparen, hslash]
    · refine Yields.suits ((comment_yields ⟨'/', ['*']⟩ ⟨'*', ['/']⟩ (by decide) (by decide)
        hi).mono fun found _ h => ⟨fun _ => h.1, fun m hm => ?_⟩)
      obtain ⟨hfirst, hsecond⟩ := hasAt_two (h.2.1 (Option.isSome_of_mem hm))
      refine ⟨by simp [ignoredKey, hfirst, hsecond], (h.2.2 m hm).1, (h.2.2 m hm).2, _, hfirst, ?_⟩
      decide
    · refine Yields.suits ((comment_yields ⟨'(', ['*']⟩ ⟨'*', [')']⟩ (by decide) (by decide)
        hi).mono fun found _ h => ⟨fun _ => h.1, fun m hm => ?_⟩)
      obtain ⟨hfirst, hsecond⟩ := hasAt_two (h.2.1 (Option.isSome_of_mem hm))
      refine ⟨by simp [ignoredKey, hfirst], (h.2.2 m hm).1, (h.2.2 m hm).2, _, hfirst, ?_⟩
      decide
    · refine Yields.suits ((line_yields hi).mono fun found _ h => ⟨fun _ => h.1, fun m hm => ?_⟩)
      obtain ⟨hfirst, hsecond⟩ := hasAt_two (h.2.1 (Option.isSome_of_mem hm))
      refine ⟨by simp [ignoredKey, hfirst, hsecond], (h.2.2 m hm).1, (h.2.2 m hm).2, _, hfirst, ?_⟩
      decide
  refine (choice_yields rfl hentry hchoice).mono fun found _ h => ⟨h.1, fun m hm => ?_⟩
  obtain ⟨f, ⟨hlt, hplain, hsign⟩, hstop, hnodes⟩ := h.2 m hm
  refine ⟨hstop ▸ hlt, hnodes ▸ .typed hplain (by decide), ⟨f.nodes, ?_⟩, hsign⟩
  rw [hnodes, hstop]
  rfl

/-! ## Quantifiers -/

/-- The digits, the comma and the closing brace of bounds. -/
theorem bounds_content_yields (hi : i ≤ l.inner.size) :
    l.Yields (Reads l.inner [many (.ofChecker (.char (.between '0' '9'))),
        optional (group [char ',', many (.ofChecker (.char (.between '0' '9')))]), char '\x7d'] i)
      (l.Steady (Reads l.outer [many (.ofChecker (.char (.between '0' '9'))),
        optional (group [char ',', many (.ofChecker (.char (.between '0' '9')))]), char '\x7d']
          (i + l.shift))) i := by
  have hdigits (j : Nat) (hj : j ≤ l.inner.size) : l.Yields
      (Repeats l.inner (many (.ofChecker (.char (.between '0' '9')))) 0 j) (fun found =>
        l.Steady (Repeats l.outer (many (.ofChecker (.char (.between '0' '9')))) 0 (j + l.shift))
          found ∧ _) j :=
    .steady_repeats (fun _ _ hk => .steady_char
      ((Entry.MatchedBy.ofChecker (.char (.between '0' '9'))).quantified rfl) hk rfl) hj 0
  refine .steady_cons (hdigits i hi) fun j _ hj => ?_
  refine .steady_cons (.steady_repeats (fun k _ hk => ?_) hj 0) fun k _ hk =>
    .steady_cons (.steady_single (by decide) hk) fun _ _ hend => .steady_nil hend
  refine (Yields.steady_group ((Entry.MatchedBy.ofChecker _).quantified rfl) ?_).mono
    fun _ _ h => h.1
  exact .steady_cons (.steady_single (by decide) hk) fun k' _ hk' =>
    .steady_cons (hdigits k' hk') fun _ _ hend => .steady_nil hend

/-- Which of the signs stands there. -/
def signKey (text : Text) (i : Nat) : Nat :=
  signs.idxOf (text[i]?.getD '\n')

/-- The part of a quantifier without its sign of greediness. -/
theorem base_yields (hi : i ≤ l.inner.size) :
    l.Picks (Chooses l.inner (.oneOf [.single '?', .single '*', .single '+', .single '^', bounds]
        none) i) (fun found =>
      (True → l.Passes (Chooses l.outer (.oneOf [.single '?', .single '*', .single '+',
        .single '^', bounds] none) (i + l.shift)) found) ∧
      ∀ f ∈ found, i < f.stop ∧ l.Plain f.nodes ∧ ∃ x, l.inner[i]? = some x ∧ x ∈ signs) i := by
  have hsign (c : Char) (k : Nat) (hc : c ∈ signs) (hk : signs.idxOf c = k) (hline : c ≠ '\n') :
      l.Suits True (fun f => i < f.stop ∧ l.Plain f.nodes ∧
        ∃ x, l.inner[i]? = some x ∧ x ∈ signs) i (signKey l.inner i) k (.single c) := by
    refine char_suits hi (fun _ => .inr (stops_single hline)) fun x hx hset => ?_
    obtain rfl : c = x := beq_iff_eq.mp hset
    refine ⟨?_, Nat.lt_succ_self i, fun _ => .nil, c, hx, hc⟩
    rw [signKey, hx, ← hk]
    rfl
  refine Picks.one_of (signKey l.inner i) ?_
  rintro (_ | _ | _ | _ | _ | k) c hc <;> cases hc
  · exact hsign '?' 0 (by decide) (by decide) (by decide)
  · exact hsign '*' 1 (by decide) (by decide) (by decide)
  · exact hsign '+' 2 (by decide) (by decide) (by decide)
  · exact hsign '^' 3 (by decide) (by decide) (by decide)
  · refine Yields.suits ((construct_yields (P := fun m => Untyped m.nodes) (by decide) hi
      fun hget => (bounds_content_yields (Array.getElem?_eq_some_iff.mp hget).1).mono
        fun found _ h => ⟨(h.alike.moves.matches _), h.untyped⟩).mono fun found _ h =>
          ⟨fun _ => h.1, fun m hm => ?_⟩)
    have hget : l.inner[i]? = some '\x7b' := by
      by_contra hget
      rw [h.2.1.mpr hget] at hm
      cases hm
    refine ⟨?_, (h.2.2 m hm).1, fun hsound => ?_, _, hget, by decide⟩
    · rw [signKey, hget]
      rfl
    · obtain ⟨m', hm', rfl⟩ := (h.2.2 m hm).2 hsound
      exact Untyped.clean ((Untyped.leaf _ _).append hm')

theorem quantifier_yields (hi : i ≤ l.inner.size) :
    l.Yields (Attempts l.inner (optional (category "quantifier")) i) (fun found =>
      l.Moves (Attempts l.outer (optional (category "quantifier")) (i + l.shift)) found ∧
      ∀ m ∈ found, i < m.stop ∧ l.Plain m.nodes ∧ ∃ x, l.inner[i]? = some x ∧ x ∈ signs) i := by
  have hentry : (optional (category "quantifier")).MatchedBy patternTypes
      (some ⟨Builtin.constant "quantifier" quantifier, none⟩) (.sequence [
        .ofChecker (.oneOf [.single '?', .single '*', .single '+', .single '^', bounds] none),
        optional ((Entry.ofChecker (.char (.ofString "+*"))).named "greed")]) :=
    (category_matched rfl).quantified rfl
  have hgreed (j : Nat) (hj : j ≤ l.inner.size) : l.Yields
      (Repeats l.inner (optional ((Entry.ofChecker (.char (.ofString "+*"))).named "greed")) 0 j)
      (fun found => l.Steady (Repeats l.outer (optional ((Entry.ofChecker (.char
        (.ofString "+*"))).named "greed")) 0 (j + l.shift)) found ∧ (0 = 0 → found.isSome = true))
      j := .steady_repeats (fun _ _ hk => .steady_char (((Entry.MatchedBy.ofChecker
        (.char (.ofString "+*"))).named "greed").quantified rfl) hk rfl) hj 0
  have hread := Yields.followed (Q := fun _ last => Untyped last.nodes)
    (((choice_yields rfl (Entry.MatchedBy.ofChecker _) (base_yields hi)).one hi rfl rfl).mono
      fun found _ h => ⟨h.1 trivial, h.2⟩) fun j _ hj => (hgreed j hj).last.mono fun later _ h => by
        obtain ⟨last, rfl⟩ := Option.isSome_iff_exists.mp (h.2 rfl)
        exact ⟨last, rfl, fun _ => .last h.1.alike, h.1.untyped last rfl⟩
  refine Yields.attempts hentry hread fun found h => ⟨.grammar rfl hentry h.1, fun m hm => ?_⟩
  obtain ⟨both, hboth, rfl⟩ := Option.map_eq_some_iff.mp hm
  obtain ⟨m, last, rfl, ⟨f, ⟨hlt, hplain, hsign⟩, hstop, hnodes⟩, huntyped, hle⟩ := h.2 both hboth
  have hbase : l.Plain m.nodes := hnodes ▸ hplain.nodesOf
  exact ⟨Nat.lt_of_lt_of_le (hstop ▸ hlt) hle, .typed (Plain.append hbase huntyped.plain)
    (by decide), hsign⟩

/-! ## References -/

theorem name_yields (node : String) (hi : i ≤ l.inner.size) :
    l.Yields (Repeats l.inner (nameAs node) 0 i) (fun found =>
      l.Steady (Repeats l.outer (nameAs node) 0 (i + l.shift)) found ∧
      ∀ m ∈ found, ∃ f : Found, m.stop = f.stop ∧ m.nodes = (nameAs node).nodesOf i f none) i := by
  let head := CharSet.unionOf [.between 'a' 'z', .between 'A' 'Z', .single '_']
  let tail := CharSet.unionOf [head, .between '0' '9']
  refine .steady_once hi rfl rfl (.steady_group ((Entry.MatchedBy.ofChecker _).named node) ?_)
  refine .steady_cons (.steady_repeats (fun _ _ hk =>
    .steady_char (Entry.MatchedBy.ofChecker (.char head)) hk rfl) hi 0) fun k _ hk => ?_
  exact .steady_cons (.steady_repeats (fun _ _ hk' => .steady_char
    ((Entry.MatchedBy.ofChecker (.char tail)).quantified rfl) hk' rfl) hk 0)
      fun _ _ hend => .steady_nil hend

/-- The parameter of a reference, in its parentheses. -/
def paramEntries : List Entry :=
  [char '(', (group [many (.ofChecker (noneOf ")"))]).named "param", char ')']

theorem param_yields (hi : i ≤ l.inner.size) :
    l.Yields (Reads l.inner paramEntries i) (fun found =>
      l.MovesIf (fun _ => True) (Reads l.outer paramEntries (i + l.shift)) found ∧
      (∀ m ∈ found, Untyped m.nodes) ∧
      (found = none →
        l.inner[i]? = some '(' ∨ Reads l.outer paramEntries (i + l.shift) none)) i := by
  refine .cons (single_yields (by decide) hi) (fun m _ hsize hm => ?_) fun hnone =>
    ⟨.none, by rintro m ⟨⟩, fun _ => .inr (.stuck hnone.1)⟩
  obtain ⟨halike, hsome, -⟩ := hm
  obtain ⟨rfl, hget⟩ := hsome m rfl
  have hchars := chars_yield (many (.ofChecker (noneOf ")")))
    ((Entry.MatchedBy.ofChecker _).quantified rfl) rfl rfl hsize
  have hparam := walked_yields hsize ((Entry.MatchedBy.ofChecker _).named "param") rfl rfl rfl
    (last_yields hchars)
  refine (closed_yields (by decide) (fun j hj => Agrees.of_get hj) hparam).mono fun found _ h => ?_
  refine ⟨MovesIf.cons (S := fun _ => True) (fun m hm _ _ => ?_) h.1 fun _ _ _ => trivial,
    fun both hboth => ?_, fun _ => .inl hget⟩
  · cases hm
    exact halike
  · obtain ⟨m, hm, rfl⟩ := Option.map_eq_some_iff.mp hboth
    obtain ⟨m', rfl, ⟨m'', huntyped, -, hnodes⟩, -⟩ := h.2 m hm
    refine (Untyped.leaf _ _).append (.append ?_ (Untyped.leaf _ _))
    rw [hnodes]
    exact Untyped.nodesOf huntyped

/-- A parameter that may be left out, and the sign that closes the reference. Where the parentheses
are not closed there is no such sign. -/
theorem param_closed_yields (hi : i ≤ l.inner.size) :
    l.Yields (Reads l.inner [optional (group paramEntries), char '!'] i) (fun found =>
      l.MovesIf (fun _ => True)
        (Reads l.outer [optional (group paramEntries), char '!'] (i + l.shift)) found ∧
      ∀ m ∈ found, Untyped m.nodes) i := by
  have hgroup : (optional (group paramEntries)).MatchedBy patternTypes none
      (.sequence paramEntries) := (Entry.MatchedBy.ofChecker _).quantified rfl
  obtain ⟨found, hread, hin, hmoves, huntyped, hnone⟩ := param_yields hi
  have hparam : Repeats l.inner (optional (group paramEntries)) 0 i (some (found.getD ⟨i, []⟩)) :=
    .once rfl (.group hgroup rfl hread)
  have hsize : (found.getD ⟨i, []⟩).stop ≤ l.inner.size := by
    cases found with
    | none => exact hi
    | some m => exact (hin m rfl).2
  have hle : i ≤ (found.getD ⟨i, []⟩).stop := by
    cases found with
    | none => exact Nat.le_refl i
    | some m => exact (hin m rfl).1
  have hall : Untyped (found.getD ⟨i, []⟩).nodes := by
    cases found with
    | none => exact .nil
    | some m => exact huntyped m rfl
  refine .cons ⟨_, hparam, by rintro m ⟨⟩; exact ⟨hle, hsize⟩, rfl⟩ (fun m _ hsize hm => ?_)
    fun hout => by cases hout
  obtain rfl := Option.some.inj hm
  refine (single_yields (by decide) hsize).last.mono fun later _ hlater => ?_
  obtain ⟨halike, hsome, -⟩ := hlater
  cases later with
  | none => exact ⟨.none, by rintro m ⟨⟩⟩
  | some last =>
    obtain ⟨rfl, hget⟩ := hsome last rfl
    refine ⟨MovesIf.cons (S := fun _ => True) (fun m hm _ hclean => ?_)
      (fun m hm _ _ => ?_) fun _ _ _ => trivial, ?_⟩
    · obtain rfl := Option.some.inj hm
      have houter : Reads l.outer paramEntries (i + l.shift) (found.map (.shift l.shift)) := by
        cases found with
        | some m => exact hmoves m rfl trivial hclean
        | none =>
          refine (hnone rfl).resolve_left fun hparen => ?_
          rw [Option.getD_none, hparen] at hget
          cases hget
      have honce : Repeats l.outer (optional (group paramEntries)) 0 (i + l.shift)
          (some ((found.map (.shift l.shift)).getD ⟨i + l.shift, []⟩)) :=
        .once rfl (.group hgroup rfl houter)
      cases found <;> exact honce
    · obtain rfl := Option.some.inj hm
      exact .last halike
    · rintro both ⟨⟩
      exact hall.append (Untyped.leaf _ _)

/-- A category of nodes without types, as a construct. -/
theorem plain_of_construct {name : String} {stop : Nat} {children : List Node}
    (hname : name ≠ "escape") (h : Sound children → ∃ m : Match, Untyped m.nodes ∧ stop = m.stop ∧
      children = .leaf i (i + 1) :: m.nodes) : l.Plain [categoryNode name i stop children] := by
  refine .node (fun hsound => ?_) fun heq => hname (Option.some.inj heq)
  obtain ⟨m, huntyped, -, rfl⟩ := h hsound
  exact Untyped.clean ((Untyped.leaf _ _).append huntyped)

theorem typeRef_content_yields (hi : i ≤ l.inner.size) :
    l.Yields (Reads l.inner [optional ((char '$').named "capture"), nameAs "name",
        optional (group paramEntries), char '!'] i) (fun found =>
      l.MovesIf (fun _ => True) (Reads l.outer [optional ((char '$').named "capture"),
        nameAs "name", optional (group paramEntries), char '!'] (i + l.shift)) found ∧
      ∀ m ∈ found, Untyped m.nodes) i := by
  have hcapture : ((char '$').named "capture").MatchedBy patternTypes none (.char (.single '$')) :=
    (Entry.MatchedBy.ofChecker _).named _
  have hname (j : Nat) (hj : j ≤ l.inner.size) := steady_before_yields
    (P := fun _ last => Untyped last.nodes) (name_yields "name" hj) fun m _ hm _ =>
      param_closed_yields hm
  refine (steady_before_yields (P := fun _ last => Untyped last.nodes) (.steady_repeats
    (fun _ _ hj => .steady_char (hcapture.quantified rfl) hj rfl) hi 0)
      fun m _ hm _ => (hname _ hm).mono fun found _ h => ⟨h.1, fun both hboth => ?_⟩).mono
        fun found _ h => ⟨h.1, fun both hboth => ?_⟩
  · obtain ⟨m, last, rfl, huntyped, hlast⟩ := h.2 both hboth
    exact huntyped.append hlast
  · obtain ⟨m, last, rfl, huntyped, hlast⟩ := h.2 both hboth
    exact huntyped.append hlast

theorem typeRef_yields (hi : i ≤ l.inner.size) :
    l.Yields (Attempts l.inner (category "typeRef") i) (fun found =>
      l.Moves (Attempts l.outer (category "typeRef") (i + l.shift)) found ∧
      ∀ m ∈ found, l.inner[i]? = some '!' ∧ i < m.stop ∧
        ∃ children, m.nodes = [categoryNode "typeRef" i m.stop children] ∧ l.Plain m.nodes) i := by
  refine (construct_category_yields rfl (by decide) hi fun hget => typeRef_content_yields
    (Array.getElem?_eq_some_iff.mp hget).1).mono fun found _ h => ⟨h.1, fun m hm => ?_⟩
  obtain ⟨hlt, children, hnodes, hsound⟩ := h.2.2 m hm
  refine ⟨opens_of_some h.2.1 (Option.isSome_of_mem hm), hlt, children, hnodes, ?_⟩
  rw [hnodes]
  exact plain_of_construct (by decide) hsound

/-- The name and the kind of a group, before its body. -/
def captureEntries : List Entry :=
  [(Entry.ofChecker (.char (.ofString "#$"))).named "kind", nameAs "name", char ':']

theorem backRef_content_yields (hi : i ≤ l.inner.size) :
    l.Yields (Reads l.inner [nameAs "name", optional ((char '\'').named "ci"), char ';'] i)
      (fun found =>
        l.MovesIf (fun _ => True) (Reads l.outer [nameAs "name",
          optional ((char '\'').named "ci"), char ';'] (i + l.shift)) found ∧
        ∀ m ∈ found, Untyped m.nodes ∧ Reads l.inner [nameAs "name", char ':'] i none) i := by
  have hci : ((char '\'').named "ci").MatchedBy patternTypes none (.char (.single '\'')) :=
    (Entry.MatchedBy.ofChecker _).named _
  have hend (j : Nat) (hj : j ≤ l.inner.size) : l.Yields (Reads l.inner [char ';'] j) (fun found =>
      l.MovesIf (fun _ => True) (Reads l.outer [char ';'] (j + l.shift)) found ∧
      ∀ last ∈ found, Untyped last.nodes ∧ l.inner[j]? = some ';') j := by
    refine (single_yields (by decide) hj).last.mono fun found _ h => ⟨?_, fun last hlast => ?_⟩
    · rintro last rfl - -
      exact .last h.1
    · obtain ⟨rfl, hget⟩ := h.2.1 last hlast
      exact ⟨.leaf _ _, hget⟩
  have hrest (j : Nat) (hj : j ≤ l.inner.size) : l.Yields
      (Reads l.inner [optional ((char '\'').named "ci"), char ';'] j) (fun found =>
        l.MovesIf (fun _ => True)
          (Reads l.outer [optional ((char '\'').named "ci"), char ';'] (j + l.shift)) found ∧
        ∀ last ∈ found, Untyped last.nodes ∧ l.inner[j]? ≠ some ':') j := by
    obtain ⟨_, hR, hin, hsteady, m, rfl, hcase⟩ := optional_char_yields
      (optional ((char '\'').named "ci")) (hci.quantified rfl) rfl rfl (by decide) hj
    refine .cons ⟨_, hR, hin, rfl⟩ (fun m' _ hsize hm' => ?_) fun hout => by cases hout
    obtain rfl := Option.some.inj hm'
    refine (hend _ hsize).mono fun found _ h => ⟨MovesIf.cons (S := fun _ => True)
      (hsteady.alike.moves.matches _) h.1 fun _ _ _ => trivial, fun both hboth => ?_⟩
    obtain ⟨last, hlast, rfl⟩ := Option.map_eq_some_iff.mp hboth
    obtain ⟨huntyped, hget⟩ := h.2 last hlast
    refine ⟨(hsteady.untyped _ rfl).append huntyped, ?_⟩
    rcases hcase with ⟨rfl, -⟩ | ⟨-, hquote⟩
    · rw [show l.inner[j]? = some ';' from hget]
      decide
    · rw [hquote]
      decide
  refine (steady_before_yields (P := fun m last => Untyped last.nodes ∧
    Reads l.inner [nameAs "name", char ':'] i none) (name_yields "name" hi) fun m _ hm hR =>
      (hrest _ hm).mono fun found _ h => ⟨h.1, fun last hlast => ?_⟩).mono
        fun found _ h => ⟨h.1, fun both hboth => ?_⟩
  · obtain ⟨huntyped, hget⟩ := h.2 last hlast
    exact ⟨huntyped, .cons hR (.stuck (not_char hget))⟩
  · obtain ⟨m, last, rfl, huntyped, hlast, hread⟩ := h.2 both hboth
    exact ⟨huntyped.append hlast, hread⟩

theorem backRef_yields (hi : i ≤ l.inner.size) :
    l.Yields (Attempts l.inner (category "backRef") i) (fun found =>
      l.Moves (Attempts l.outer (category "backRef") (i + l.shift)) found ∧
      ∀ m ∈ found, l.inner[i]? = some '$' ∧ i < m.stop ∧
        ∃ children, m.nodes = [categoryNode "backRef" i m.stop children] ∧ l.Plain m.nodes ∧
          (Sound children → Reads l.inner captureEntries i none)) i := by
  refine (construct_category_yields rfl (by decide) hi fun hget => backRef_content_yields
    (Array.getElem?_eq_some_iff.mp hget).1).mono fun found _ h => ⟨h.1, fun m hm => ?_⟩
  obtain ⟨hlt, children, hnodes, hsound⟩ := h.2.2 m hm
  have hget := opens_of_some h.2.1 (Option.isSome_of_mem hm)
  refine ⟨hget, hlt, children, hnodes, ?_, fun hchildren => ?_⟩
  · rw [hnodes]
    refine plain_of_construct (by decide) fun hchildren => ?_
    obtain ⟨m', ⟨huntyped, -⟩, hstop, hout⟩ := hsound hchildren
    exact ⟨m', huntyped, hstop, hout⟩
  · obtain ⟨m', ⟨-, hread⟩, -⟩ := hsound hchildren
    have hkind : ((Entry.ofChecker (.char (.ofString "#$"))).named "kind").MatchedBy patternTypes
        none (.char (.ofString "#$")) := (Entry.MatchedBy.ofChecker _).named _
    exact .cons (.once rfl (.char hkind hget rfl)) hread

end TextGrammar.Pattern.Inlay
