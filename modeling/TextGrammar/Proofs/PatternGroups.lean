/-
Groups of patterns. What stands between the parentheses of a group ends before
the closing one, so a group moves to the outer text of an inlay wherever it is
found. With that, so do items, and sequences and bodies up to their ends.
-/
import TextGrammar.Proofs.PatternBodies

namespace TextGrammar.Pattern

variable {vocabulary : Vocabulary} {text : Text}

/-! ## Reading groups -/

/-- Nodes that are neither the body of a group nor the secondary one. -/
def IsSkipped (nodes : List Node) : Prop :=
  ∀ node ∈ nodes, node.typeName ≠ some "body" ∧ node.name ≠ some "second"

theorem IsSkipped.single {node : Node} (htype : node.typeName ≠ some "body")
    (hname : node.name ≠ some "second") : IsSkipped [node] :=
  List.forall_mem_singleton.mpr ⟨htype, hname⟩

theorem IsSkipped.named {name : String} (h : name ≠ "second") (start stop : Nat)
    (children : List Node) : IsSkipped [⟨some name, none, none, start, stop, children⟩] :=
  .single (by rintro ⟨⟩) fun heq => h (Option.some.inj heq)

theorem IsSkipped.leaf (start stop : Nat) : IsSkipped [.leaf start stop] :=
  .single (by rintro ⟨⟩) (by rintro ⟨⟩)

theorem IsIgnored.skipped {nodes : List Node} (h : IsIgnored nodes) : IsSkipped nodes :=
  fun node hnode => by
    obtain ⟨htype, hname⟩ := h node hnode
    rw [htype, hname]
    decide

theorem readInner_skipped {nodes : List Node} (h : IsSkipped nodes) (unclosed : GrammarError)
    (later : List Node) : readInner vocabulary text unclosed (nodes ++ later) =
      readInner vocabulary text unclosed later := by
  induction nodes with
  | nil => rfl
  | cons node nodes ih =>
    obtain ⟨⟨htype, -⟩, hnodes⟩ := List.forall_mem_cons.mp h
    rw [List.cons_append, readInner, if_neg (by simp [htype])]
    exact ih hnodes

theorem readSecond_skipped {nodes : List Node} (h : IsSkipped nodes) (later : List Node) :
    readSecond vocabulary text (nodes ++ later) = readSecond vocabulary text later := by
  induction nodes with
  | nil => rfl
  | cons node nodes ih =>
    obtain ⟨⟨-, hname⟩, hnodes⟩ := List.forall_mem_cons.mp h
    rw [List.cons_append, readSecond, if_neg (by simp [hname])]
    exact ih hnodes

namespace Inlay

variable {l : Inlay} {i : Nat}

/-! ## Parts of groups -/

/-- An entry before others that take something. -/
theorem before_yields {entry : Entry} {entries : List Entry} {S S' : Nat → Prop}
    {P Q : Match → Prop} (hS : ∀ j, l.Agrees j → S j)
    (h : l.Yields (Repeats l.inner entry 0 i) (fun found =>
      l.MovesIf S (Repeats l.outer entry 0 (i + l.shift)) found ∧ ∀ m ∈ found, P m) i)
    (h' : ∀ j, i ≤ j → j ≤ l.inner.size → l.Yields (Reads l.inner entries j) (fun found =>
      l.MovesIf S' (Reads l.outer entries (j + l.shift)) found ∧
      ∀ last ∈ found, j < last.stop ∧ Q last) j) :
    l.Yields (Reads l.inner (entry :: entries) i) (fun found =>
      l.MovesIf S' (Reads l.outer (entry :: entries) (i + l.shift)) found ∧
      ∀ both ∈ found, i < both.stop ∧ ∃ m last, both = last.after m.nodes ∧ P m ∧ Q last) i := by
  refine .cons h (fun m hle hsize hm => ?_) fun _ => ⟨.none, by rintro m ⟨⟩⟩
  refine (h' m.stop hle hsize).mono fun found hin hfound => ⟨?_, fun both hboth => ?_⟩
  · refine hm.1.cons hfound.1 fun last hlast _ => hS _ (.of_lt ?_)
    exact Nat.lt_of_lt_of_le (hfound.2 last hlast).1 (hin last hlast).2
  · obtain ⟨last, hlast, rfl⟩ := Option.map_eq_some_iff.mp hboth
    obtain ⟨hlt, hQ⟩ := hfound.2 last hlast
    exact ⟨Nat.lt_of_le_of_lt hle hlt, m, last, rfl, hm.2 m rfl, hQ⟩

/-- The nodes of what a group holds are clean if its bodies can be read. -/
def GroupClean (l : Inlay) (nodes : List Node) : Prop :=
  Sound nodes → ∀ unclosed body, readInner l.vocabulary l.inner unclosed nodes = .ok body →
    ∀ second, readSecond l.vocabulary l.inner nodes = .ok second → l.Clean nodes

theorem GroupClean.skip {nodes later : List Node} (hnodes : IsSkipped nodes)
    (hplain : l.Plain nodes) (h : l.GroupClean later) : l.GroupClean (nodes ++ later) := by
  intro hsound unclosed body hbody second hsecond
  rw [readInner_skipped hnodes] at hbody
  rw [readSecond_skipped hnodes] at hsecond
  obtain ⟨hhere, hlater⟩ := AllNodes.append_iff.mp hsound
  exact AllNodes.append_iff.mpr ⟨hplain hhere, h hlater unclosed body hbody second hsecond⟩

/-- A part of a group without a body, before one that takes something. -/
theorem skipped_before_yields {entry : Entry} {entries : List Entry} {S : Nat → Prop}
    (hS : ∀ j, l.Agrees j → S j)
    (h : l.Yields (Repeats l.inner entry 0 i) (fun found =>
      l.MovesIf S (Repeats l.outer entry 0 (i + l.shift)) found ∧
      ∀ m ∈ found, IsSkipped m.nodes ∧ l.Plain m.nodes) i)
    (h' : ∀ j, i ≤ j → j ≤ l.inner.size → l.Yields (Reads l.inner entries j) (fun found =>
      l.MovesIf (fun _ => True) (Reads l.outer entries (j + l.shift)) found ∧
      ∀ m ∈ found, j < m.stop ∧ l.GroupClean m.nodes) j) :
    l.Yields (Reads l.inner (entry :: entries) i) (fun found =>
      l.MovesIf (fun _ => True) (Reads l.outer (entry :: entries) (i + l.shift)) found ∧
      ∀ m ∈ found, i < m.stop ∧ l.GroupClean m.nodes) i := by
  refine (before_yields hS h h').mono fun found _ hfound => ⟨hfound.1, fun both hboth => ?_⟩
  obtain ⟨hlt, m, last, rfl, ⟨hskipped, hplain⟩, hclean⟩ := hfound.2 both hboth
  exact ⟨hlt, hclean.skip hskipped hplain⟩

/-- The name and the kind of a group. -/
theorem capture_yields (hi : i ≤ l.inner.size) :
    l.Yields (Reads l.inner captureEntries i) (fun found =>
      l.Steady (Reads l.outer captureEntries (i + l.shift)) found ∧
      ∀ m ∈ found, IsSkipped m.nodes) i := by
  have hkind : ((Entry.ofChecker (.char (.ofString "#$"))).named "kind").MatchedBy patternTypes
      none (.char (.ofString "#$")) := (Entry.MatchedBy.ofChecker _).named _
  have happend : ∀ nodes later : List Node, IsSkipped nodes → IsSkipped later →
      IsSkipped (nodes ++ later) := fun _ _ h h' => List.forall_mem_append.mpr ⟨h, h'⟩
  have hname (j : Nat) (hj : j ≤ l.inner.size) : l.Yields (Repeats l.inner (nameAs "name") 0 j)
      (fun found => l.Steady (Repeats l.outer (nameAs "name") 0 (j + l.shift)) found ∧
        ∀ m ∈ found, IsSkipped m.nodes) j := by
    refine (name_yields "name" hj).mono fun found _ h => ⟨h.1, fun m hm => ?_⟩
    obtain ⟨f, -, hnodes⟩ := h.2 m hm
    rw [hnodes]
    exact .named (by decide) _ _ _
  have hcolon (j : Nat) (hj : j ≤ l.inner.size) : l.Yields (Reads l.inner [char ':'] j)
      (fun found => l.Steady (Reads l.outer [char ':'] (j + l.shift)) found ∧
        ∀ m ∈ found, IsSkipped m.nodes) j := by
    refine .steady_cons_all happend (.steady_once hj rfl rfl ((Yields.steady_set
      (.ofChecker (.single ':')) hj rfl).mono fun found _ h => ⟨h.1, fun m hm => ?_⟩))
        fun k _ hk => (Yields.nil hk).mono fun found _ h => ?_
    · rw [h.2 m hm]
      exact .leaf _ _
    · obtain rfl := h
      refine ⟨⟨.nil, ?_⟩, ?_⟩
      · rintro m ⟨⟩
        exact .nil
      · rintro m ⟨⟩ node ⟨⟩
  refine .steady_cons_all happend (.steady_once hi rfl rfl ((Yields.steady_set hkind hi rfl).mono
    fun found _ h => ⟨h.1, fun m hm => ?_⟩)) fun j _ hj =>
      .steady_cons_all happend (hname j hj) fun k _ hk => hcolon k hk
  rw [h.2 m hm]
  exact .named (by decide) _ _ _

theorem optional_capture_yields (hi : i ≤ l.inner.size) :
    l.Yields (Repeats l.inner (optional (group captureEntries)) 0 i) (fun found =>
      l.MovesIf (fun _ => True) (Repeats l.outer (optional (group captureEntries)) 0 (i + l.shift))
        found ∧ ∀ m ∈ found, IsSkipped m.nodes ∧ l.Plain m.nodes) i := by
  have hentry : (optional (group captureEntries)).MatchedBy patternTypes none
      (.sequence captureEntries) := (Entry.MatchedBy.ofChecker _).quantified rfl
  obtain ⟨found, hR, hin, hsteady, hskipped⟩ := capture_yields hi
  have hattempt : l.Yields (Attempts l.inner (optional (group captureEntries)) i) (fun found =>
      (True → l.Moves (Attempts l.outer (optional (group captureEntries)) (i + l.shift)) found) ∧
      ∀ m ∈ found, IsSkipped m.nodes ∧ l.Plain m.nodes) i :=
    ⟨found, .group hentry rfl hR, hin, fun _ _ => .group hentry rfl hsteady.alike,
      fun m hm => ⟨hskipped m hm, (hsteady.untyped m hm).plain⟩⟩
  refine (hattempt.maybe hi rfl rfl).mono fun found _ h => ?_
  obtain ⟨m, rfl, hmoves, hm⟩ := h
  refine ⟨(hmoves trivial).matches _, ?_⟩
  rintro _ ⟨⟩
  rcases hm with rfl | hm
  · exact ⟨by rintro node ⟨⟩, .nil⟩
  · exact hm

/-- The sign of a negation. -/
theorem caret_yields (hi : i ≤ l.inner.size) :
    l.Yields (Repeats l.inner (optional ((char '^').named "not")) 0 i) (fun found =>
      l.MovesIf (fun _ => True) (Repeats l.outer (optional ((char '^').named "not")) 0
        (i + l.shift)) found ∧ ∀ m ∈ found, IsSkipped m.nodes ∧ l.Plain m.nodes) i := by
  have hentry : (optional ((char '^').named "not")).MatchedBy patternTypes none
      (.char (.single '^')) := ((Entry.MatchedBy.ofChecker _).named _).quantified rfl
  refine (optional_char_yields _ hentry rfl rfl (by decide) hi).mono fun found _ h => ?_
  obtain ⟨hsteady, m, rfl, hm⟩ := h
  refine ⟨hsteady.alike.moves.matches _, ?_⟩
  rintro _ ⟨⟩
  refine ⟨?_, (hsteady.untyped m rfl).plain⟩
  rcases hm with ⟨rfl, -⟩ | ⟨rfl, -⟩
  · rintro node ⟨⟩
  · exact .named (by decide) _ _ _

/-- A secondary body, after blanks and its sign. -/
def secondEntries : List Entry :=
  [many (category "ignored"), char '~', (category "body").named "second"]

theorem second_matched : (optional (group secondEntries)).MatchedBy patternTypes none
    (.sequence secondEntries) := (Entry.MatchedBy.ofChecker _).quantified rfl

/-- Before the parenthesis that closes a group there is no secondary body. -/
theorem no_second {text : Text} (h : text[i]? = some ')') :
    Repeats text (optional (group secondEntries)) 0 i (some ⟨i, []⟩) := by
  have hignored : Attempts text (many (category "ignored")) i none := by
    refine no_ignored (fun x hx => ?_) fun hopen => ?_
    · obtain rfl := Option.some.inj (h.symm.trans hx)
      decide
    · rw [h] at hopen
      cases hopen
  have hblanks : Blanks text i [] i := ⟨.nil i, by rintro node ⟨⟩⟩
  have hsign : text[i]? ≠ some '~' := by
    rw [h]
    decide
  exact .once rfl (.group second_matched rfl
    (.cons (hblanks.read hignored) (.stuck (not_char hsign))))

theorem blanks_move_yield (hi : i ≤ l.inner.size) :
    l.Yields (Repeats l.inner (many (category "ignored")) 0 i) (fun found =>
      l.MovesIf l.Agrees (Repeats l.outer (many (category "ignored")) 0 (i + l.shift)) found ∧
      ∀ m ∈ found, IsIgnored m.nodes ∧ l.Plain m.nodes) i := by
  refine (blanks_yield hi).mono fun found _ h => ?_
  obtain ⟨k, blanks, rfl, hat⟩ := h
  refine ⟨?_, ?_⟩
  · rintro m ⟨⟩ hagree hclean
    exact (hat.moves hclean).read (hat.stops hagree)
  · rintro m ⟨⟩
    exact ⟨hat.ignored, hat.plain⟩

section

variable (hgroup : ∀ j, i ≤ j → j ≤ l.inner.size →
  l.Yields (Attempts l.inner (category "group") j) (l.GroupFound j) j)

include hgroup

theorem second_yields (hi : i ≤ l.inner.size) :
    l.Yields (Reads l.inner secondEntries i) (fun found =>
      l.MovesIf l.Agrees (Reads l.outer secondEntries (i + l.shift)) found ∧
      ∀ m ∈ found, i < m.stop ∧ ∀ later, l.Clean later →
        l.ReadClean (readSecond l.vocabulary l.inner) (m.nodes ++ later)) i := by
  have hbody (j : Nat) (hij : i ≤ j) (hj : j ≤ l.inner.size) : l.Yields
      (Reads l.inner [char '~', (category "body").named "second"] j) (fun found =>
        l.MovesIf l.Agrees (Reads l.outer [char '~', (category "body").named "second"]
          (j + l.shift)) found ∧
        ∀ m ∈ found, j < m.stop ∧ ∀ later, l.Clean later →
          l.ReadClean (readSecond l.vocabulary l.inner) (m.nodes ++ later)) j := by
    refine .cons (single_yields (by decide) hj) (fun m hle hsize hm => ?_) fun hnone =>
      ⟨.none, by rintro m ⟨⟩⟩
    obtain ⟨halike, hsome, -⟩ := hm
    obtain ⟨rfl, -⟩ := hsome m rfl
    refine (body_entry_yields (fun k hk hsize => hgroup k (by omega) hsize) hsize
      ((category_matched body_category).named "second") rfl rfl rfl).last.mono fun found hin h => ?_
    obtain ⟨last, rfl, hmoves, children, hnodes, hclean⟩ := h
    have hlast : l.MovesIf l.Agrees (Reads l.outer [(category "body").named "second"]
        (j + 1 + l.shift)) (some last) :=
      fun m hm hagree hclean => .last (hmoves m hm hagree hclean)
    refine ⟨MovesIf.cons (S := fun _ => True) (halike.moves.matches _) hlast
      fun _ _ _ => trivial, ?_⟩
    rintro both ⟨⟩
    refine ⟨(hin last rfl).1, fun later hlater hsound second hsecond => ?_⟩
    rw [Match.after, hnodes] at hsound hsecond ⊢
    have hread : readSecond l.vocabulary l.inner (([.leaf j (j + 1)] ++
        [⟨some "second", some "body", none, j + 1, last.stop, children⟩]) ++ later) =
          ((readSegments l.vocabulary l.inner children >>= fun r =>
            pure (Body.ofSequences (r.1 :: r.2))) >>= fun body => pure (some body.grammar)) := rfl
    obtain ⟨body, hbody, -⟩ := ok_of_bind (hread.symm.trans hsecond)
    obtain ⟨segments, hsegments, -⟩ := ok_of_bind hbody
    have hchildren := (AllNodes.append_iff.mp (AllNodes.append_iff.mp hsound).1).2.children
    refine AllNodes.append_iff.mpr ⟨AllNodes.append_iff.mpr ⟨(Untyped.leaf _ _).clean, ?_⟩, hlater⟩
    exact Clean.typed (hclean hchildren segments hsegments) (by decide) (by decide)
  refine (before_yields (P := fun m => IsIgnored m.nodes ∧ l.Plain m.nodes) (fun _ => id)
    (blanks_move_yield hi) hbody).mono fun found _ h => ⟨h.1, fun both hboth => ?_⟩
  obtain ⟨hlt, m, last, rfl, ⟨hignored, hplain⟩, hclean⟩ := h.2 both hboth
  refine ⟨hlt, fun later hlater hsound second hsecond => ?_⟩
  rw [Match.after, List.append_assoc] at hsound hsecond ⊢
  rw [readSecond_skipped hignored.skipped] at hsecond
  obtain ⟨hhere, hrest⟩ := AllNodes.append_iff.mp hsound
  exact AllNodes.append_iff.mpr ⟨hplain hhere, hclean later hlater hrest second hsecond⟩

/-- What follows the body of a group. -/
theorem group_end_yields (hi : i ≤ l.inner.size) :
    l.Yields (Reads l.inner [optional (group secondEntries), char ')'] i) (fun found =>
      l.MovesIf (fun _ => True)
        (Reads l.outer [optional (group secondEntries), char ')'] (i + l.shift)) found ∧
      ∀ m ∈ found, i < m.stop ∧ l.ReadClean (readSecond l.vocabulary l.inner) m.nodes) i := by
  by_cases hparen : l.inner[i]? = some ')'
  · have hlt := (Array.getElem?_eq_some_iff.mp hparen).1
    have hparenOuter := (l.same i hlt).trans hparen
    refine ⟨_, .cons (no_second hparen) (.last (read_char hparen)), ?_, ?_, ?_⟩
    · rintro m ⟨⟩
      exact ⟨Nat.le_succ i, hlt⟩
    · rintro m ⟨⟩ - -
      have houter := Reads.cons (no_second hparenOuter) (.last (read_char hparenOuter))
      rw [Nat.add_right_comm] at houter
      exact houter
    · rintro m ⟨⟩
      exact ⟨Nat.lt_succ_self i, fun _ _ _ => (Untyped.leaf _ _).clean⟩
  · obtain ⟨found, hR, hin, hmoves, hclean⟩ := second_yields hgroup hi
    cases found with
    | none =>
      have hnone : Repeats l.inner (optional (group secondEntries)) 0 i (some ⟨i, []⟩) :=
        .once rfl (.group second_matched rfl hR)
      exact ⟨none, .cons hnone (.stuck (not_char hparen)), by rintro m ⟨⟩, .none, by rintro m ⟨⟩⟩
    | some m =>
      have hsecond : Repeats l.inner (optional (group secondEntries)) 0 i (some m) :=
        .once rfl (.group second_matched rfl hR)
      have hsecondMoves : l.MovesIf l.Agrees (Repeats l.outer (optional (group secondEntries)) 0
          (i + l.shift)) (some m) := by
        rintro _ ⟨⟩ hagree hclean
        exact .once rfl (.group second_matched rfl (hmoves m rfl hagree hclean))
      obtain ⟨hlt, hread⟩ := hclean m rfl
      refine .cons ⟨_, hsecond, hin, rfl⟩ (fun m' _ hsize hm' => ?_) (by rintro ⟨⟩)
      obtain rfl := Option.some.inj hm'
      refine (single_yields (by decide) hsize).last.mono fun later _ hlater => ?_
      obtain ⟨halike, hsome, -⟩ := hlater
      cases later with
      | none => exact ⟨.none, by rintro m ⟨⟩⟩
      | some last =>
        obtain ⟨rfl, hget⟩ := hsome last rfl
        have hlast : l.MovesIf (fun _ => True) (Reads l.outer [char ')'] (m.stop + l.shift))
            (some ⟨m.stop + 1, [.leaf m.stop (m.stop + 1)]⟩) := by
          rintro _ ⟨⟩ - -
          exact .last halike
        refine ⟨hsecondMoves.cons hlast fun _ _ _ => .of_get hget, ?_⟩
        rintro both ⟨⟩
        exact ⟨Nat.lt_succ_of_lt hlt, hread _ (Untyped.leaf _ _).clean⟩

theorem group_body_yields (hi : i ≤ l.inner.size) :
    l.Yields (Reads l.inner [category "body", optional (group secondEntries), char ')'] i)
      (fun found =>
        l.MovesIf (fun _ => True) (Reads l.outer [category "body",
          optional (group secondEntries), char ')'] (i + l.shift)) found ∧
        ∀ m ∈ found, i < m.stop ∧ l.GroupClean m.nodes) i := by
  have hbody : l.Yields (Repeats l.inner (category "body") 0 i) (fun found =>
      l.MovesIf l.Agrees (Repeats l.outer (category "body") 0 (i + l.shift)) found ∧
      ∀ m ∈ found, ∃ children, m.nodes = [categoryNode "body" i m.stop children] ∧
        l.ReadClean (readSegments l.vocabulary l.inner) children) i := by
    refine (body_entry_yields hgroup hi (category_matched body_category) rfl rfl rfl).mono
      fun found _ h => ?_
    obtain ⟨m, rfl, hmoves, hclean⟩ := h
    refine ⟨hmoves, ?_⟩
    rintro _ ⟨⟩
    exact hclean
  refine (before_yields (fun _ => id) hbody fun j hij hj => group_end_yields
    (fun k hjk hk => hgroup k (Nat.le_trans hij hjk) hk) hj).mono
      fun found _ h => ⟨h.1, fun both hboth => ?_⟩
  obtain ⟨hlt, m, last, rfl, ⟨children, hnodes, hclean⟩, hlast⟩ := h.2 both hboth
  refine ⟨hlt, fun hsound unclosed body hbody second hsecond => ?_⟩
  rw [Match.after, hnodes] at hsound hbody hsecond ⊢
  have hinner : readInner l.vocabulary l.inner unclosed
      ([categoryNode "body" i m.stop children] ++ last.nodes) =
        (readSegments l.vocabulary l.inner children >>= fun r =>
          pure (Body.ofSequences (r.1 :: r.2))) := rfl
  obtain ⟨segments, hsegments, -⟩ := ok_of_bind (hinner.symm.trans hbody)
  obtain ⟨hhere, hrest⟩ := AllNodes.append_iff.mp hsound
  refine AllNodes.append_iff.mpr ⟨?_, hlast hrest second hsecond⟩
  exact Clean.typed (hclean hhere.children segments hsegments) (by decide) (by decide)

/-- What is between the parentheses of a group, and the closing one. -/
def groupEntries : List Entry :=
  [optional (group captureEntries), many (category "ignored"), optional ((char '^').named "not"),
    category "body", optional (group secondEntries), char ')']

theorem group_content_yields (hi : i ≤ l.inner.size) :
    l.Yields (Reads l.inner groupEntries i) (fun found =>
      l.MovesIf (fun _ => True) (Reads l.outer groupEntries (i + l.shift)) found ∧
      ∀ m ∈ found, i < m.stop ∧ l.GroupClean m.nodes) i := by
  refine skipped_before_yields (fun _ _ => trivial) (optional_capture_yields hi) fun j hij hj => ?_
  refine skipped_before_yields (fun _ => id) ((blanks_move_yield hj).mono fun found _ h =>
    ⟨h.1, fun m hm => ⟨(h.2 m hm).1.skipped, (h.2 m hm).2⟩⟩) fun k hjk hk => ?_
  refine skipped_before_yields (fun _ _ => trivial) (caret_yields hk) fun k' hkk' hk' => ?_
  exact group_body_yields (fun e he hsize => hgroup e (by omega) hsize) hk'

end

theorem group_category : category? "group" = some (Builtin.constant "group" (.sequence
    [char '(', .ofChecker (orFatal (.sequence groupEntries) "Unclosed group")])) := rfl

theorem group_yields (hi : i ≤ l.inner.size) :
    l.Yields (Attempts l.inner (category "group") i) (l.GroupFound i) i := by
  -- Groups inside of a group begin after its parenthesis.
  suffices hleft : ∀ left i, i ≤ l.inner.size → l.inner.size < i + left →
      l.Yields (Attempts l.inner (category "group") i) (l.GroupFound i) i from
    hleft (l.inner.size + 1) i hi (by omega)
  intro left
  induction left with
  | zero => intro i hi hlt; omega
  | succ left ih =>
  intro i hi hlt
  have hgroup (j : Nat) (hij : i + 1 ≤ j) (hj : j ≤ l.inner.size) := ih j hj (by omega)
  refine (construct_category_yields group_category (by decide) hi fun hget =>
    group_content_yields hgroup (Array.getElem?_eq_some_iff.mp hget).1).mono fun found _ h =>
      ⟨h.1, h.2.1, fun m hm => ?_⟩
  obtain ⟨hlt, children, hnodes, hsound⟩ := h.2.2 m hm
  refine ⟨hlt, children, hnodes, fun hchildren entry hentry => ?_⟩
  obtain ⟨m', ⟨-, hclean⟩, -, rfl⟩ := hsound hchildren
  have hread : readGroup l.vocabulary l.inner
      (categoryNode "group" i m.stop (.leaf i (i + 1) :: m'.nodes)) =
        (readInner l.vocabulary l.inner _ m'.nodes >>= fun _ =>
          readSecond l.vocabulary l.inner m'.nodes >>= _) := rfl
  obtain ⟨body, hbody, hrest⟩ := ok_of_bind (hread.symm.trans hentry)
  obtain ⟨second, hsecond, -⟩ := ok_of_bind hrest
  obtain ⟨-, hnodes⟩ := AllNodes.cons_iff.mp hchildren
  exact AllNodes.cons_iff.mpr ⟨(Untyped.leaf _ _).clean, hclean hnodes _ body hbody second hsecond⟩

end Inlay

end TextGrammar.Pattern
