/-
Escapes and literals of patterns. An escape looks past its end only where a
class in braces is not closed; what is taken there instead stands for nothing,
so the escapes of a pattern that can be read move to the outer text of an inlay.
-/
import TextGrammar.Proofs.PatternParts
import TextGrammar.Proofs.PatternErrors

namespace TextGrammar.Pattern

/-- Both parts of a result that is no error are none. -/
theorem ok_of_bind {α β : Type} {x : Except GrammarError α} {f : α → Except GrammarError β} {b : β}
    (h : (x >>= f) = .ok b) : ∃ a, x = .ok a ∧ f a = .ok b := by
  cases x with
  | ok a => exact ⟨a, rfl, h⟩
  | error e => cases h

namespace Inlay

variable {l : Inlay} {i : Nat}

/-! ## Forms of escapes -/

/-- The letters of a class in braces. -/
def ClassAt (text : Text) (i : Nat) : Prop := text[i]? = some 'p' ∨ text[i]? = some 'P'

/-- A code of digits after its letter. -/
theorem code_yields {c : Char} {set : CharSet} (q : Quantifier) (hc : c ≠ '\n')
    (hset : Stops set) (hq : q.greediness = .possessive) (hi : i ≤ l.inner.size) :
    l.Picks (Chooses l.inner (.sequence [char c, (Entry.ofChecker (.char set)).quantified q]) i)
      (fun found =>
        Chooses l.outer (.sequence [char c, (Entry.ofChecker (.char set)).quantified q])
          (i + l.shift) (found.map (.shift l.shift)) ∧
        ∀ f ∈ found, l.inner[i]? = some c ∧ i < f.stop ∧ Untyped f.nodes) i := by
  have hdigits (j : Nat) (hj : j ≤ l.inner.size) := Yields.steady_repeats (l := l)
    (fun _ _ hk => .steady_char ((Entry.MatchedBy.ofChecker (.char set)).quantified hq) hk hset)
    hj 0
  have hread : l.Yields (Reads l.inner [char c, (Entry.ofChecker (.char set)).quantified q] i)
      (fun found => l.Alike (Reads l.outer [char c, (Entry.ofChecker (.char set)).quantified q]
        (i + l.shift)) found ∧ ∀ m ∈ found, l.inner[i]? = some c ∧ i < m.stop ∧ Untyped m.nodes)
      i := by
    refine .cons (single_yields hc hi) (fun m _ hsize hm => ?_) fun hnone =>
      ⟨.stuck hnone.1, by rintro m ⟨⟩⟩
    obtain ⟨halike, hsome, -⟩ := hm
    obtain ⟨rfl, hget⟩ := hsome m rfl
    refine (hdigits _ hsize).last.mono fun found hin h =>
      ⟨halike.cons (.last h.1.alike), fun both hboth => ?_⟩
    · obtain ⟨last, hlast, rfl⟩ := Option.map_eq_some_iff.mp hboth
      exact ⟨hget, (hin last hlast).1, (Untyped.leaf _ _).append (h.1.untyped last hlast)⟩
  refine hread.picks fun found h => ⟨?_, fun f hf => ?_⟩
  · have houter := Chooses.sequence h.1
    cases found <;> exact houter
  · obtain ⟨m, hm, rfl⟩ := Option.map_eq_some_iff.mp hf
    exact h.2 m hm

/-- A class in braces. -/
def classEntries : List Entry :=
  [.ofChecker (.char (.ofString "pP")), char '\x7b', many (.ofChecker (noneOf "\x7d")), char '\x7d']

theorem class_yields (hi : i ≤ l.inner.size) :
    l.Yields (Reads l.inner classEntries i) (fun found =>
      (l.Alike (Reads l.outer classEntries (i + l.shift)) found ∨
        found = none ∧ ClassAt l.inner i) ∧
      ∀ m ∈ found, ClassAt l.inner i ∧ i < m.stop ∧ Untyped m.nodes) i := by
  have hletter : ∀ x, (CharSet.ofString "pP").contains .standard x = true → x = 'p' ∨ x = 'P' := by
    intro x hx
    have hmem : x ∈ ['P', 'p'] := List.contains_iff_mem.mp hx
    simp only [List.mem_cons, List.not_mem_nil, or_false] at hmem
    exact hmem.symm
  refine .cons (set_yields (.ofChecker (.char (.ofString "pP"))) rfl rfl hi)
    (fun m _ hsize hm => ?_) fun hnone => ⟨.inl (.stuck (hnone.1 (.inr rfl))), by rintro m ⟨⟩⟩
  obtain ⟨halike, hsome, -⟩ := hm
  obtain ⟨rfl, x, hget, hset⟩ := hsome m rfl
  have hclass : ClassAt l.inner i := by
    rcases hletter x hset with rfl | rfl
    · exact .inl hget
    · exact .inr hget
  refine .cons (single_yields (by decide) hsize) (fun m _ hsize hm => ?_) fun hnone =>
    ⟨.inl (.cons (halike (.inr rfl)) (.stuck hnone.1)), by rintro m ⟨⟩⟩
  obtain ⟨halike', hsome', -⟩ := hm
  obtain ⟨rfl, -⟩ := hsome' m rfl
  refine (closed_yields (by decide) (fun j hj => Agrees.of_get hj) (chars_yield _
    ((Entry.MatchedBy.ofChecker _).quantified rfl) rfl rfl hsize)).mono fun found hin h => ?_
  cases found with
  | none => exact ⟨.inr ⟨rfl, hclass⟩, by rintro m ⟨⟩⟩
  | some last =>
    obtain ⟨m', rfl, huntyped, -⟩ := h.2 last rfl
    have hlast : Untyped (m'.nodes ++ [.leaf m'.stop (m'.stop + 1)]) :=
      huntyped.append (Untyped.leaf _ _)
    refine ⟨.inl ((halike (.inr rfl)).cons (halike'.cons (h.1 _ rfl trivial hlast.clean))), ?_⟩
    rintro both ⟨⟩
    have hle : i + 2 ≤ m'.stop + 1 := (hin _ rfl).1
    exact ⟨hclass, Nat.lt_of_lt_of_le (by omega) hle,
      AllNodes.append (Untyped.leaf _ _) ((Untyped.leaf _ _).append hlast)⟩

theorem any_one (h : i < l.inner.size) :
    Chooses l.inner (.anyOf 1) i (some ⟨i + 1, [], false⟩) ∧
      Chooses l.outer (.anyOf 1) (i + l.shift) (some ⟨i + 1 + l.shift, [], false⟩) := by
  have hany {text : Text} {i : Nat} (hlt : i < text.size) :
      Chooses text (.anyOf 1) i (some ⟨i + 1, [], false⟩) := by
    have hlength : Checker.anyLengthAt (some 1) text i = some 1 := if_pos hlt
    have hchooses : Chooses text (.any (some 1)) i _ := .any (some 1)
    rwa [hlength] at hchooses
  have hget := (l.same i h).trans (Array.getElem?_eq_getElem h)
  refine ⟨hany h, ?_⟩
  rw [Nat.add_right_comm]
  exact hany (Array.getElem?_eq_some_iff.mp hget).1

/-- Some form always fits where there is a character. If it is not the same in both texts, it is a
letter that a class in braces begins with. -/
theorem forms_yield (h : i < l.inner.size) :
    l.Picks (Among l.inner escapeForms i) (fun found => ∃ f, found = some f ∧ i < f.stop ∧
      Untyped f.nodes ∧
      (Among l.outer escapeForms (i + l.shift) (some (f.shift l.shift)) ∨
        f.stop = i + 1 ∧ ClassAt l.inner i)) i := by
  have hi : i ≤ l.inner.size := Nat.le_of_lt h
  obtain ⟨hany, hanyOuter⟩ := any_one h
  have hx := code_yields (c := 'x') (.exactly 2) (by decide)
    (show Stops (.named "hexdigit") from rfl) rfl hi
  have hu := code_yields (c := 'u') (.exactly 4) (by decide)
    (show Stops (.named "hexdigit") from rfl) rfl hi
  have h0 := code_yields (c := '0') ⟨1, some 3, .possessive⟩ (by decide)
    (show Stops (.between '0' '7') from rfl) rfl hi
  obtain ⟨found, hread, hin, hcase, hclass⟩ := class_yields hi
  rcases hcase with halike | ⟨rfl, hletter⟩
  · have hclassPicks : l.Picks (Chooses l.inner (.sequence classEntries) i) (fun found =>
        Chooses l.outer (.sequence classEntries) (i + l.shift) (found.map (.shift l.shift)) ∧
        ∀ f ∈ found, i < f.stop ∧ Untyped f.nodes) i := by
      refine Yields.picks (T := fun found =>
        l.Alike (Reads l.outer classEntries (i + l.shift)) found ∧
        ∀ m ∈ found, ClassAt l.inner i ∧ i < m.stop ∧ Untyped m.nodes)
        ⟨found, hread, hin, halike, hclass⟩ fun found h => ⟨?_, fun f hf => ?_⟩
      · have houter := Chooses.sequence h.1
        cases found <;> exact houter
      · obtain ⟨m, hm, rfl⟩ := Option.map_eq_some_iff.mp hf
        exact (h.2 m hm).2
    have hanyPicks : l.Picks (Chooses l.inner (.anyOf 1) i) (fun found => ∃ f, found = some f ∧
        Chooses l.outer (.anyOf 1) (i + l.shift) (some (f.shift l.shift)) ∧ i < f.stop ∧
        Untyped f.nodes) i := by
      refine ⟨_, hany, ?_, _, rfl, hanyOuter, Nat.lt_succ_self i, .nil⟩
      rintro f ⟨⟩
      exact ⟨Nat.le_succ i, h⟩
    have hall : ∀ c ∈ escapeForms.take 4, l.Picks (Chooses l.inner c i) (fun found =>
        Chooses l.outer c (i + l.shift) (found.map (.shift l.shift)) ∧
        ∀ f ∈ found, i < f.stop ∧ Untyped f.nodes) i := by
      refine List.forall_mem_cons.mpr ⟨?_, List.forall_mem_cons.mpr ⟨?_, List.forall_mem_cons.mpr
        ⟨?_, List.forall_mem_singleton.mpr hclassPicks⟩⟩⟩
      · exact hx.mono fun _ _ h => ⟨h.1, fun f hf => (h.2 f hf).2⟩
      · exact hu.mono fun _ _ h => ⟨h.1, fun f hf => (h.2 f hf).2⟩
      · exact h0.mono fun _ _ h => ⟨h.1, fun f hf => (h.2 f hf).2⟩
    refine (Picks.among_alike (escapeForms.take 4) hall hanyPicks).mono fun found _ h => ?_
    obtain ⟨f, rfl, houter, hlt, huntyped⟩ := h
    exact ⟨f, rfl, hlt, huntyped, .inl houter⟩
  · have hskip {c : Checker} {x : Char} {choices : List Checker} {later : Option Found}
        (hp : x ≠ 'p') (hP : x ≠ 'P') (hc : l.Picks (Chooses l.inner c i) (fun found =>
          Chooses l.outer c (i + l.shift) (found.map (.shift l.shift)) ∧
          ∀ f ∈ found, l.inner[i]? = some x ∧ i < f.stop ∧ Untyped f.nodes) i)
        (hlater : Among l.inner choices i later) : Among l.inner (c :: choices) i later := by
      obtain ⟨found, hR, -, -, hsome⟩ := hc
      cases found with
      | none => exact hlater.skip hR
      | some f =>
        have hget := (hsome f rfl).1
        rcases hletter with h' | h' <;> rw [hget] at h' <;> cases h' <;> contradiction
    have hfound : Among l.inner escapeForms i (some ⟨i + 1, [], false⟩) := by
      refine hskip (by decide) (by decide) hx (hskip (by decide) (by decide) hu
        (hskip (by decide) (by decide) h0 (.skip (.only .nil hany) ?_)))
      exact .sequence hread
    refine ⟨_, hfound, ?_, _, rfl, Nat.lt_succ_self i, .nil, .inr ⟨rfl, hletter⟩⟩
    rintro f ⟨⟩
    exact ⟨Nat.le_succ i, h⟩

/-- At the end of the text there is no form. -/
theorem forms_end : Among l.inner escapeForms l.inner.size none := by
  have hend : l.inner[l.inner.size]? = none := Array.getElem?_eq_none (Nat.le_refl _)
  have hcode {c : Char} {set : CharSet} {q : Quantifier} : Chooses l.inner
      (.sequence [char c, (Entry.ofChecker (.char set)).quantified q]) l.inner.size none :=
    .sequence (.stuck (not_char (by rw [hend]; rintro ⟨⟩)))
  have hclass : Chooses l.inner (.sequence classEntries) l.inner.size none := by
    refine .stuck (.stuck (.once rfl (.not_char (.ofChecker _) fun x hx => ?_)))
    rw [hend] at hx
    cases hx
  have hany : Chooses l.inner (.anyOf 1) l.inner.size none := by
    have hlength : Checker.anyLengthAt (some 1) l.inner l.inner.size = none :=
      if_neg (Nat.not_succ_le_self _)
    have hchooses : Chooses l.inner (.any (some 1)) l.inner.size _ := .any (some 1)
    rwa [hlength] at hchooses
  exact .only (.only (.only (.only (.only .nil hany) hclass) hcode) hcode) hcode

/-! ## Escapes -/

/-- A letter that begins a class in braces stands for nothing else. -/
theorem readEscape_class {node : Node} (hstop : node.stop = node.start + 2)
    (hslash : l.inner[node.start]? = some '\\') (h : ClassAt l.inner (node.start + 1)) :
    ¬ ∃ escaped, readEscape l.vocabulary (inText l.inner node) = .ok escaped := by
  have hread {x : Char} (hget : l.inner[node.start + 1]? = some x) (hx : escapedChar? x = none) :
      ¬ ∃ escaped, readEscape l.vocabulary (inText l.inner node) = .ok escaped := by
    have hhas : l.inner.hasAt node.start ['\\', x] = true := by
      simp [Text.hasAt, hslash, hget]
    have hchars : (inText l.inner node).chars = #['\\', x] := by
      have hslice := Text.slice_of_hasAt hhas
      simp only [NodeRef.chars, inText, hstop]
      exact hslice
    rintro ⟨escaped, hescaped⟩
    simp only [readEscape, hchars, hx, List.tail_cons] at hescaped
    cases hescaped
  rcases h with h | h
  · exact hread h rfl
  · exact hread h rfl

/-- What follows the backslash of an escape. -/
theorem form_yields (hi : i ≤ l.inner.size) :
    l.Yields
      (Repeats l.inner (.ofChecker (orFatal (.alternative escapeForms) "Invalid escape")) 0 i)
      (fun found => ∃ m, found = some m ∧ (Sound m.nodes → Untyped m.nodes ∧ i < m.stop ∧
        (Repeats l.outer (.ofChecker (orFatal (.alternative escapeForms) "Invalid escape")) 0
          (i + l.shift) (some (m.shift l.shift)) ∨ m.stop = i + 1 ∧ ClassAt l.inner i))) i := by
  let entry : Entry := .ofChecker (orFatal (.alternative escapeForms) "Invalid escape")
  have hentry : entry.MatchedBy patternTypes none (orFatal (.alternative escapeForms)
    "Invalid escape") := .ofChecker _
  rcases Nat.lt_or_ge i l.inner.size with hlt | hge
  · obtain ⟨_, hR, hin, f, rfl, hstop, huntyped, hcase⟩ := forms_yield hlt
    have hnodes : Untyped (entry.nodesOf i f none) := .nodesOf huntyped
    refine ⟨_, .once rfl (.at_once hentry rfl (.among hR)), ?_, _, rfl, fun _ =>
      ⟨hnodes, hstop, ?_⟩⟩
    · rintro m ⟨⟩
      exact hin f rfl
    · refine hcase.imp (fun houter => ?_) id
      have hchosen : Chooses l.outer (orFatal (.alternative escapeForms) "Invalid escape")
        (i + l.shift) ((some f).map (.shift l.shift)) := .among houter
      have hattempt : l.Alike (Attempts l.outer entry (i + l.shift))
        (some ⟨f.stop, entry.nodesOf i f none⟩) := attempts_shift hentry rfl hchosen
      exact .once rfl hattempt
  · obtain rfl : i = l.inner.size := by omega
    obtain ⟨_, hR, hin, f, rfl, hcase⟩ := Picks.or_fatal (T := fun found => found = none)
      "Invalid escape" hi ⟨none, forms_end, by rintro f ⟨⟩, rfl⟩
    have hsound : ¬ Sound f.nodes := by
      rcases hcase with hfound | ⟨-, hsound⟩
      · cases hfound
      · exact hsound
    refine ⟨_, .once rfl (.at_once hentry rfl hR), ?_, _, rfl, fun hall => ?_⟩
    · rintro m ⟨⟩
      exact hin f rfl
    · have hall : Sound (entry.nodesOf l.inner.size f none) := hall
      exact absurd (hall.of_nodesOf rfl) hsound

theorem escape_yields (hi : i ≤ l.inner.size) :
    l.Yields (Attempts l.inner (category "escape") i) (fun found =>
      l.Moves (Attempts l.outer (category "escape") (i + l.shift)) found ∧
      (found = none ↔ l.inner[i]? ≠ some '\\') ∧
      ∀ m ∈ found, i < m.stop ∧ ∃ children,
        m.nodes = [categoryNode "escape" i m.stop children] ∧
        (Sound children → Untyped children)) i := by
  have hentry : (category "escape").MatchedBy patternTypes
      (some ⟨Builtin.constant "escape" escape, none⟩) escape := category_matched rfl
  have hread : l.Yields (Reads l.inner [char '\\', .ofChecker (orFatal (.alternative escapeForms)
      "Invalid escape")] i) (fun found =>
      (found = none → Reads l.outer [char '\\', .ofChecker (orFatal (.alternative escapeForms)
        "Invalid escape")] (i + l.shift) none) ∧
      (found = none ↔ l.inner[i]? ≠ some '\\') ∧
      ∀ m ∈ found, i < m.stop ∧ (Sound m.nodes → Untyped m.nodes ∧
        (Reads l.outer [char '\\', .ofChecker (orFatal (.alternative escapeForms)
          "Invalid escape")] (i + l.shift) (some (m.shift l.shift)) ∨
        m.stop = i + 2 ∧ ClassAt l.inner (i + 1)))) i := by
    refine .cons (single_yields (by decide) hi) (fun m _ hsize hm => ?_) fun hnone =>
      ⟨fun _ => .stuck hnone.1, iff_of_true rfl (hnone.2.2 rfl), by rintro m ⟨⟩⟩
    obtain ⟨halike, hsome, -⟩ := hm
    obtain ⟨rfl, hget⟩ := hsome m rfl
    refine (form_yields hsize).last.mono fun found hin h => ?_
    obtain ⟨m, rfl, hm⟩ := h
    refine ⟨by rintro ⟨⟩, iff_of_false (by rintro ⟨⟩) (not_not.mpr hget), ?_⟩
    rintro both ⟨⟩
    refine ⟨(hin m rfl).1, fun hsound => ?_⟩
    obtain ⟨huntyped, hstop, hcase⟩ := hm (AllNodes.append_iff.mp hsound).2
    refine ⟨(Untyped.leaf _ _).append huntyped, hcase.imp (fun houter => ?_) id⟩
    have hlast : l.Alike (Reads l.outer [.ofChecker (orFatal (.alternative escapeForms)
      "Invalid escape")] (i + 1 + l.shift)) (some m) := .last houter
    exact halike.cons hlast
  refine Yields.attempts hentry hread fun found h => ⟨fun hclean => ?_,
    Option.map_eq_none_iff.trans h.2.1, fun both hboth => ?_⟩
  · cases found with
    | none => exact Attempts.grammar hentry (h.1 rfl)
    | some m =>
      have hnode := hclean _ rfl
      have hsound : Sound m.nodes := fun n hn => hnode.sound n (List.mem_cons_of_mem _ hn)
      obtain ⟨-, hcase⟩ := (h.2.2 m rfl).2 hsound
      rcases hcase with houter | ⟨hstop, hclass⟩
      · exact Moves.grammar rfl hentry (fun _ => houter) hclean
      · have hslash : l.inner[i]? = some '\\' := opens_of_some h.2.1 rfl
        exact absurd (hnode.head.escape rfl) (readEscape_class hstop hslash hclass)
  · obtain ⟨m, hm, rfl⟩ := Option.map_eq_some_iff.mp hboth
    exact ⟨(h.2.2 m hm).1, m.nodes, rfl, fun hsound => ((h.2.2 m hm).2 hsound).1⟩

/-! ## Characters with escapes -/

/-- What is found is an escape, or a character by itself. -/
structure CharacterAt (i : Nat) (f : Found) : Prop where
  lt : i < f.stop
  form : (∃ children, f = ⟨f.stop, [categoryNode "escape" i f.stop children], true⟩ ∧
      (Sound children → Untyped children)) ∨ f = ⟨i + 1, [], false⟩

/-- An escape, or a character of a set without the backslash. -/
theorem character_picks {set : CharSet} (hset : set.contains .standard '\\' = false)
    (hi : i ≤ l.inner.size) :
    l.Picks (Chooses l.inner (.oneOf [.sequence [category "escape"], .char set] none) i)
      (fun found =>
        (l.Agrees i → l.Passes (Chooses l.outer (.oneOf [.sequence [category "escape"], .char set]
          none) (i + l.shift)) found) ∧
        ∀ f ∈ found, CharacterAt i f ∧ ∃ x, l.inner[i]? = some x ∧
          (x = '\\' ∨ set.contains .standard x = true)) i := by
  refine Picks.one_of (if l.inner[i]? = some '\\' then 0 else 1) ?_
  rintro (_ | _ | k) c hc <;> cases hc
  · have hescape := (escape_yields hi).mono fun found _ h =>
      (⟨fun _ => h.1, fun m hm => ⟨opens_of_some h.2.1 (Option.isSome_of_mem hm), h.2.2 m hm⟩⟩ :
        (True → l.Moves (Attempts l.outer (category "escape") (i + l.shift)) found) ∧
        ∀ m ∈ found, l.inner[i]? = some '\\' ∧ i < m.stop ∧ ∃ children,
          m.nodes = [categoryNode "escape" i m.stop children] ∧ (Sound children → Untyped children))
    refine Yields.suits ((Yields.one hi rfl rfl hescape).last.mono fun found _ h =>
      ⟨fun _ hclean => .last (h.1 trivial hclean), fun m hm => ?_⟩)
    obtain ⟨hget, hlt, children, hnodes, huntyped⟩ := h.2 m hm
    refine ⟨if_pos hget, ⟨hlt, .inl ⟨children, ?_, huntyped⟩⟩, _, hget, .inl rfl⟩
    rw [Match.found, hnodes]
  · refine char_suits hi .inl fun x hx hcontains => ⟨if_neg fun hget => ?_,
      ⟨Nat.lt_succ_self i, .inr rfl⟩, x, hx, .inr hcontains⟩
    obtain rfl := Option.some.inj (hx.symm.trans hget)
    rw [hset] at hcontains
    cases hcontains

/-! ## Literals -/

/-- What a literal holds between its quotes. -/
def contentOf (set : CharSet) : Checker := .oneOf [.sequence [category "escape"], .char set] none

/-- A piece of a literal: the node of an escape, or a character. -/
def PieceAt (i : Nat) (m : Match) : Prop :=
  (∃ children, m.nodes = [categoryNode "escape" i m.stop children] ∧
    (Sound children → Untyped children)) ∨ m = ⟨i + 1, [.leaf i (i + 1)]⟩

theorem content_yields {set : CharSet} (hset : set.contains .standard '\\' = false)
    (hi : i ≤ l.inner.size) :
    l.Yields (Repeats l.inner (many (.ofChecker (contentOf set))) 0 i) (fun found =>
      ∃ m, found = some m ∧
        l.MovesIf l.Agrees (Repeats l.outer (many (.ofChecker (contentOf set))) 0 (i + l.shift))
          (some m) ∧ Chain PieceAt i m.nodes m.stop) i := by
  have hentry : (many (.ofChecker (contentOf set))).MatchedBy patternTypes none (contentOf set) :=
    (Entry.MatchedBy.ofChecker _).quantified rfl
  have hone (j : Nat) (hj : j ≤ l.inner.size) : l.Yields
      (Attempts l.inner (many (.ofChecker (contentOf set))) j) (fun found =>
        (l.Agrees j → l.Moves (Attempts l.outer (many (.ofChecker (contentOf set)))
          (j + l.shift)) found) ∧ ∀ m ∈ found, j < m.stop ∧ PieceAt j m) j := by
    refine (choice_yields rfl hentry (character_picks hset hj)).mono fun found _ h =>
      ⟨h.1, fun m hm => ?_⟩
    obtain ⟨f, ⟨⟨hlt, hform⟩, -⟩, hstop, hnodes⟩ := h.2 m hm
    refine ⟨hstop ▸ hlt, ?_⟩
    rcases hform with ⟨children, hf, huntyped⟩ | rfl
    · rw [hf] at hnodes
      exact .inl ⟨children, hstop ▸ hnodes, huntyped⟩
    · obtain ⟨stop, nodes⟩ := m
      obtain rfl : stop = j + 1 := hstop
      exact .inr (congrArg _ hnodes)
  refine (many_yields rfl rfl (fun j _ hj => hone j hj) (fun j m hm => (hm.2 m rfl).1) hi 0).mono
    fun found _ h => ?_
  obtain ⟨j, nodes, rfl, hnone, hchain⟩ := h
  refine ⟨_, rfl, ?_, hchain.mono fun j m hm _ => (hm.1.2 m rfl).2⟩
  rintro m ⟨⟩ hagree hclean
  have houter := chain_moves (S := fun _ => True)
    (T := Steps l.outer (many (.ofChecker (contentOf set)))) hchain (fun _ _ _ => id)
    (fun j m hm hlt _ hclean => hm.1.1 (.of_lt (Nat.lt_of_lt_of_le hlt hm.2))
      (by rintro _ ⟨⟩; exact hclean)) trivial hclean
  exact Repeats.chain rfl rfl houter (hnone.1 hagree (by rintro _ ⟨⟩)) 0

/-- The escapes among nodes and those below them, in the order of the text. -/
def escapesIn (text : Text) (index : Nat) (nodes : List Node) : List NodeRef :=
  (NodeRef.belowAll text index nodes).filter (·.node.typeName == some "escape")

theorem escapesIn_untyped {text : Text} {index : Nat} {nodes : List Node} (h : Untyped nodes) :
    escapesIn text index nodes = [] := by
  refine List.filter_eq_nil_iff.mpr fun ref href => ?_
  have hmem : ref.node ∈ Node.allBackwards nodes := by
    refine (belowAll_inside text index nodes ref href).2 ref.node ?_
    obtain ⟨_, ⟨_, _, _, _, _, _⟩, _⟩ := ref
    exact List.mem_cons_self
  rw [h _ hmem]
  decide

theorem escapesIn_escape {text : Text} {index i stop : Nat} {children nodes : List Node}
    (h : Untyped children) : escapesIn text index (categoryNode "escape" i stop children :: nodes) =
      ⟨text, categoryNode "escape" i stop children, index⟩ :: escapesIn text (index + 1) nodes := by
  have hbelow : escapesIn text 0 children = [] := escapesIn_untyped h
  simp only [escapesIn] at hbelow ⊢
  rw [NodeRef.belowAll, List.filter_cons_of_pos rfl, List.filter_append, categoryNode,
    NodeRef.below, hbelow, List.nil_append]

theorem escapesIn_leaf {text : Text} {index start stop : Nat} {nodes : List Node} :
    escapesIn text index (.leaf start stop :: nodes) = escapesIn text (index + 1) nodes := by
  simp only [escapesIn]
  rw [NodeRef.belowAll, List.filter_cons_of_neg Bool.false_ne_true, Node.leaf,
    NodeRef.below, NodeRef.belowAll, List.nil_append]

/-- The escapes of a chain of pieces do not begin before it. -/
theorem escapesIn_from {text : Text} {j : Nat} {nodes rest : List Node}
    (h : Chain PieceAt i nodes j) (hsound : Sound nodes)
    (hrest : ∀ index, escapesIn text index rest = []) (index : Nat) :
    ∀ ref ∈ escapesIn text index (nodes ++ rest), i ≤ ref.node.start := by
  induction h generalizing index with
  | nil => rw [List.nil_append, hrest]; exact fun _ hmem => absurd hmem List.not_mem_nil
  | @cons i j m nodes hpiece hlt _ ih =>
    obtain ⟨hhere, hlater⟩ := AllNodes.append_iff.mp hsound
    have hfrom := ih hlater (index + 1)
    rcases hpiece with ⟨children, hnodes, huntyped⟩ | rfl
    · rw [hnodes] at hhere
      rw [hnodes, List.append_assoc, List.singleton_append, escapesIn_escape
        (huntyped hhere.children)]
      refine List.forall_mem_cons.mpr ⟨Nat.le_refl i, fun ref href => ?_⟩
      exact Nat.le_trans (Nat.le_of_lt hlt) (hfrom ref href)
    · rw [List.append_assoc, List.singleton_append, escapesIn_leaf]
      exact fun ref href => Nat.le_trans (Nat.le_succ i) (hfrom ref href)

/-- Where no escape begins a character is taken. -/
theorem unquoteFrom_plain {vocabulary : Vocabulary} {ref : NodeRef} {pos : Nat}
    {escapes : List NodeRef} (hpos : ¬ ref.node.stop - 1 ≤ pos)
    (h : ∀ escape ∈ escapes, pos < escape.node.start) (count : Nat) :
    unquoteFrom vocabulary ref (count + 1) pos escapes = (do
      pure (ref.text.getD pos '\x00' ::
        (← unquoteFrom vocabulary ref count (pos + 1) escapes))) := by
  rw [unquoteFrom, if_neg hpos]
  cases escapes with
  | nil => rfl
  | cons escape others =>
    have hother : (escape.node.start == pos) = false :=
      beq_false_of_ne (Nat.ne_of_gt (h escape List.mem_cons_self))
    dsimp only
    rw [if_neg (by rw [hother]; exact Bool.false_ne_true)]

/-- A literal can be read only if all escapes in it can. -/
theorem unquote_clean {ref : NodeRef} {j : Nat} {nodes rest : List Node}
    (hstop : ref.node.stop = j + 1) (h : Chain PieceAt i nodes j)
    (hsound : Sound nodes) (hrest : ∀ index, escapesIn l.inner index rest = []) (index count : Nat)
    (hcount : j ≤ i + count) {chars : List Char}
    (hread : unquoteFrom l.vocabulary ref count i (escapesIn l.inner index (nodes ++ rest)) =
      .ok chars) : l.Clean nodes := by
  induction h generalizing index count chars with
  | nil => exact .nil
  | @cons i j m nodes hpiece hlt hchain ih =>
    obtain ⟨hhere, hlater⟩ := AllNodes.append_iff.mp hsound
    have hle := hchain.le
    obtain ⟨count, rfl⟩ : ∃ n, count = n + 1 := ⟨count - 1, by omega⟩
    have hinside : ¬ ref.node.stop - 1 ≤ i := by omega
    rcases hpiece with ⟨children, hnodes, huntyped⟩ | rfl
    · rw [unquoteFrom, if_neg hinside] at hread
      rw [hnodes] at hhere
      have huntyped := huntyped hhere.children
      rw [hnodes, List.append_assoc, List.singleton_append, escapesIn_escape huntyped] at hread
      dsimp only at hread
      rw [if_pos (show ((categoryNode "escape" i m.stop children).start == i) = true from
        beq_self_eq_true i)] at hread
      have hescape : ∃ escaped, readEscape l.vocabulary (inText l.inner
          (categoryNode "escape" i m.stop children)) = .ok escaped ∧
          ∃ chars, unquoteFrom l.vocabulary ref count m.stop
            (escapesIn l.inner (index + 1) (nodes ++ rest)) = .ok chars := by
        obtain ⟨escaped, hescape, hlater⟩ := ok_of_bind hread
        cases escaped with
        | char c =>
          obtain ⟨chars, hchars, -⟩ := ok_of_bind hlater
          exact ⟨_, hescape, chars, hchars⟩
        | set set => cases hlater
      obtain ⟨escaped, hescape, chars, hread⟩ := hescape
      refine AllNodes.append_iff.mpr ⟨?_, ih hstop hlater (index + 1) count (by omega) hread⟩
      rw [hnodes]
      intro node hnode
      rcases List.mem_cons.mp hnode with rfl | hnode
      · exact ⟨(by decide : some "escape" ≠ some "fatalError"), fun _ => ⟨escaped, hescape⟩⟩
      · exact huntyped.clean node hnode
    · have hfrom : ∀ ref ∈ escapesIn l.inner (index + 1) (nodes ++ rest), i + 1 ≤ ref.node.start :=
        escapesIn_from hchain hlater hrest (index + 1)
      rw [List.append_assoc, List.singleton_append, escapesIn_leaf,
        unquoteFrom_plain hinside hfrom] at hread
      obtain ⟨chars, hread, -⟩ := ok_of_bind hread
      exact AllNodes.append_iff.mpr ⟨(Untyped.leaf _ _).clean,
        ih hstop hlater (index + 1) count (by omega) hread⟩

/-- The nodes of a literal between its quotes. -/
structure IsLiteral (i stop : Nat) (children : List Node) : Prop where
  pieces : ∃ j nodes, stop = j + 1 ∧ children = .leaf i (i + 1) :: (nodes ++ [.leaf j stop]) ∧
    Chain PieceAt (i + 1) nodes j

theorem IsLiteral.clean {stop : Nat} {children : List Node} (h : IsLiteral i stop children)
    (hsound : Sound children) {r : Char × List Char} (hread : readQuoted l.vocabulary
      (inText l.inner (categoryNode "quoted" i stop children)) = .ok r) : l.Clean children := by
  obtain ⟨j, nodes, rfl, rfl, hchain⟩ := h
  have hend (index : Nat) : escapesIn l.inner index [.leaf j (j + 1)] = [] :=
    escapesIn_untyped (.leaf _ _)
  have hnodes : Sound nodes := (AllNodes.append_iff.mp (AllNodes.cons_iff.mp hsound).2).1
  have hle := hchain.le
  have hunquote : ∃ chars, unquoteFrom l.vocabulary
      (inText l.inner
        (categoryNode "quoted" i (j + 1) (.leaf i (i + 1) :: (nodes ++ [.leaf j (j + 1)]))))
      (j + 1 - i) (i + 1) (escapesIn l.inner 1 (nodes ++ [.leaf j (j + 1)])) = .ok chars := by
    unfold readQuoted at hread
    split at hread
    · cases hread
    · obtain ⟨chars, hchars, -⟩ := ok_of_bind hread
      refine ⟨chars, ?_⟩
      have hleaf : escapesIn l.inner 0 (.leaf i (i + 1) :: (nodes ++ [.leaf j (j + 1)])) =
          escapesIn l.inner 1 (nodes ++ [.leaf j (j + 1)]) := escapesIn_leaf
      rw [← hleaf]
      exact hchars
  obtain ⟨chars, hchars⟩ := hunquote
  have hclean := unquote_clean rfl hchain hnodes hend 1 (j + 1 - i) (by omega) hchars
  exact AllNodes.cons_iff.mpr ⟨(Untyped.leaf _ _).clean,
    AllNodes.append_iff.mpr ⟨hclean, (Untyped.leaf _ _).clean⟩⟩

/-- A literal in quotes of one kind. -/
theorem quotedBy_yields {quote : Char} {set : CharSet} (hquote : quote ≠ '\n')
    (hset : set.contains .standard '\\' = false) (hi : i ≤ l.inner.size) :
    l.Yields (Reads l.inner [char quote, .ofChecker (orFatal (.sequence
        [many (.ofChecker (contentOf set)), char quote]) "Unterminated literal")] i) (fun found =>
      l.Moves (Reads l.outer [char quote, .ofChecker (orFatal (.sequence
        [many (.ofChecker (contentOf set)), char quote]) "Unterminated literal")] (i + l.shift))
          found ∧
      ∀ m ∈ found, l.inner[i]? = some quote ∧ i < m.stop ∧
        (Sound m.nodes → IsLiteral i m.stop m.nodes)) i := by
  refine (construct_yields (P := fun m => ∃ m' : Match, m = ⟨m'.stop + 1, m'.nodes ++
    [.leaf m'.stop (m'.stop + 1)]⟩ ∧ Chain PieceAt (i + 1) m'.nodes m'.stop) hquote hi fun hget =>
      (closed_yields hquote (fun j hj => Agrees.of_get hj) (content_yields hset
        (Array.getElem?_eq_some_iff.mp hget).1)).mono fun found _ h =>
          ⟨h.1, fun m hm => ?_⟩).mono fun found _ h => ⟨h.1, fun m hm => ?_⟩
  · obtain ⟨m', rfl, hchain, -⟩ := h.2 m hm
    exact ⟨m', rfl, hchain⟩
  · obtain ⟨hlt, hP⟩ := h.2.2 m hm
    refine ⟨opens_of_some h.2.1 (Option.isSome_of_mem hm), hlt, fun hsound => ?_⟩
    obtain ⟨_, ⟨m', rfl, hchain⟩, rfl⟩ := hP hsound
    exact ⟨m'.stop, m'.nodes, rfl, rfl, hchain⟩

def quotes : List Char := ['"', '\'', '\x60']

theorem quoted_picks (hi : i ≤ l.inner.size) :
    l.Picks (Chooses l.inner quoted i) (fun found =>
      (True → l.Passes (Chooses l.outer quoted (i + l.shift)) found) ∧
      ∀ f ∈ found, (∃ x ∈ quotes, l.inner[i]? = some x) ∧ i < f.stop ∧
        (Sound f.nodes → IsLiteral i f.stop f.nodes)) i := by
  refine Picks.one_of (quotes.idxOf (l.inner[i]?.getD '\n')) ?_
  have hsuits (quote : Char) {k : Nat} (hquote : quote ∈ quotes)
      (hk : quotes.idxOf quote = k) (hline : quote ≠ '\n')
      (hset : (CharSet.complement (.ofString (String.ofList [quote, '\\']))).contains .standard
        '\\' = false) : l.Suits True (fun f =>
        (∃ x ∈ quotes, l.inner[i]? = some x) ∧ i < f.stop ∧
          (Sound f.nodes → IsLiteral i f.stop f.nodes)) i
        (quotes.idxOf (l.inner[i]?.getD '\n')) k (.sequence [char quote, .ofChecker (orFatal
          (.sequence [many (.ofChecker (contentOf (.complement (.ofString
            (String.ofList [quote, '\\']))))), char quote]) "Unterminated literal")]) := by
    refine Yields.suits ((quotedBy_yields hline hset hi).mono fun found _ h =>
      ⟨fun _ => h.1, fun m hm => ?_⟩)
    obtain ⟨hget, hlt, hliteral⟩ := h.2 m hm
    refine ⟨?_, ⟨quote, hquote, hget⟩, hlt, hliteral⟩
    rw [hget, ← hk]
    rfl
  rintro (_ | _ | _ | k) c hc <;> cases hc
  · exact hsuits '"' (by decide) (by decide) (by decide) rfl
  · exact hsuits '\'' (by decide) (by decide) (by decide) rfl
  · exact hsuits '\x60' (by decide) (by decide) (by decide) rfl

theorem quoted_yields (hi : i ≤ l.inner.size) :
    l.Yields (Attempts l.inner (category "quoted") i) (fun found =>
      l.Moves (Attempts l.outer (category "quoted") (i + l.shift)) found ∧
      ∀ m ∈ found, (∃ x ∈ quotes, l.inner[i]? = some x) ∧ i < m.stop ∧ ∃ children,
        m.nodes = [categoryNode "quoted" i m.stop children] ∧
        (Sound children → IsLiteral i m.stop children)) i := by
  refine (choice_yields rfl (category_matched rfl) (quoted_picks hi)).mono fun found _ h =>
    ⟨h.1 trivial, fun m hm => ?_⟩
  obtain ⟨f, ⟨hx, hlt, hliteral⟩, hstop, hnodes⟩ := h.2 m hm
  refine ⟨hx, hstop ▸ hlt, f.nodes, ?_, hstop ▸ hliteral⟩
  rw [hnodes, hstop]
  rfl

end Inlay

end TextGrammar.Pattern
