/-
Printed grammars. The printed form of a grammar is a pattern that is read to a
grammar which says the same, unless two parts next to each other become something
else: a slash and a star begin a comment, a count of any characters takes no
quantifier, and a parameter ends with the first parenthesis. Other conditions
leave out what no pattern is compiled to.
-/
import TextGrammar.Proofs.PrintedGroups

namespace TextGrammar

/-! ## What can be printed -/

/-- The quantifier stays apart from the checker: it is not taken as a second one, nor as a part of
the sign of a comment. -/
def Checker.TakesQuantifier (q : Quantifier) : Checker → Prop
  | .any width => width = some 1 ∨ q.isOne = true
  | .char (.single '/') => q.lower = 0 → q.upper ≠ none
  | _ => True

section

variable (vocabulary : Vocabulary)

/-- There is a pattern for the checker. White space is told from blanks, classes are known, an
alternative has more than a sole choice, and a grammar does not hold just a checker. -/
def Checker.IsPrintable : Checker → Prop
  | .char (.single c) => (CharSet.named "whitespace").contains .standard c = true →
    PatternChar.alone c ≠ c.toString
  | .char set => set.Ordered ∧ ∀ name ∈ set.classNames,
    '\x7d' ∉ name.toList ∧ vocabulary.classes.has name = true
  | .word _ | .not _ => True
  | .oneOf choices fallback =>
    choices ≠ [] ∧ (choices.length = 1 → fallback.isSome = true) ∧
      ∀ c ∈ choices, ∀ cs, c ≠ .oneOf cs none
  | .any width => ∀ n, width = some n → n ≤ maxCount
  | .fixed _ => False
  | .grammar g => ∀ e, g.entries = [e] → e.isPlain = true → ∀ c, e.target ≠ .checker c

/-- There is a pattern for the target. A reference is to a type that is known, by a name, and its
parameter does not end too early. -/
def Target.IsPrintable : Target → Prop
  | .checker (.grammar g) => ∀ e, g.entries = [e] → e.isPlain = false
  | .checker _ => True
  | .ref r => vocabulary.knows r.name = true ∧ Pattern.IsName r.name ∧
    ∀ param, r.param = some param → ')' ∉ param.toList
  | .type _ => False

/-- There is a pattern for the entry. -/
structure Entry.IsPrintable (e : Entry) : Prop where
  name : ∀ capture, e.capture = some capture → Pattern.IsName capture.name
  target : e.target.IsPrintable vocabulary
  quantifier : e.quantifier.IsWritable
  bare : e.capture = none → e.secondary = none → ∀ c, e.target = .checker c →
    c.TakesQuantifier e.quantifier

/-- The printed form of the grammar is a pattern for it. -/
def Grammar.IsPrintable (g : Grammar) : Prop :=
  g.Throughout (Checker.IsPrintable vocabulary) (Entry.IsPrintable vocabulary)

end

namespace Pattern

variable {vocabulary : Vocabulary} {classes : CharClasses} {es es' run : List Entry}
  {pieces : List Piece} {piece : Piece} {q : Quantifier} {c : Checker} {cs : List Char}

/-! ## Entries that are read -/

section

variable (classes)

/-- An entry is read to a piece that says the same. -/
inductive EntryReadAs : Entry → Piece → Prop
  | literal {e : Entry} {cs : List Char} (h : Entry.Spells [e] cs) : EntryReadAs e (.literal cs)
  | entry {e e' : Entry} (h : e.Restated classes e') : EntryReadAs e (.entry e')
  | fused {e : Entry} {c : Checker} (h : Entry.Fuses [e] c) : EntryReadAs e (.entry (.ofChecker c))

/-- So is a checker with its quantifier. Only brackets around a reference are lost. -/
inductive CheckerReadAs (q : Quantifier) : Checker → Piece → Prop
  | entry {c : Checker} {piece : Piece}
    (h : EntryReadAs classes ⟨none, .checker c, q, none⟩ piece) :
    CheckerReadAs q c piece
  | reference {r : TypeRef} {one : Quantifier} (hone : one.isOne = true) :
    CheckerReadAs q (.grammar ⟨[⟨none, .ref r, one, none⟩]⟩)
      (.entry ((Entry.ofTarget (.ref r)).quantified q.reread))

end

theorem spells_append {run' : List Entry} {cs' : List Char} (h : Entry.Spells run cs)
    (h' : Entry.Spells run' cs') : Entry.Spells (run ++ run') (cs ++ cs') := by
  induction h with
  | nil => exact h'
  | cons hletters hq _ ih =>
    rw [List.cons_append, List.append_assoc]
    exact .cons hletters hq ih

theorem letters_ne_nil (h : c.letters? = some cs) : cs ≠ [] := by
  cases c with
  | word w => exact Option.some.inj h ▸ List.cons_ne_nil _ _
  | char set =>
    cases set with
    | single d => exact Option.some.inj h ▸ List.cons_ne_nil _ _
    | _ => cases h
  | _ => cases h

theorem letters_literal (h : cs ≠ []) : (Checker.literal cs).letters? = some cs := by
  cases cs with
  | nil => exact absurd rfl h
  | cons c cs => rfl

theorem spells_ne_nil (hne : run ≠ []) (h : Entry.Spells run cs) : cs ≠ [] := by
  cases h with
  | nil => exact absurd rfl hne
  | cons hletters _ _ => exact List.append_ne_nil_of_left_ne_nil (letters_ne_nil hletters) _

theorem literalEntry_of_ne_nil (h : cs ≠ []) : literalEntry cs = [.ofChecker (.literal cs)] :=
  if_neg fun hempty => h (List.isEmpty_iff.mp hempty)

/-- Literals before other entries are taken together. -/
theorem restated_literals (hrun : Entry.Spells run cs) (h : Entry.AllRestated classes es es') :
    Entry.AllRestated classes (run ++ es) (literalEntry cs ++ es') := by
  by_cases hne : run = []
  · subst hne
    cases hrun
    exact h
  · rw [literalEntry_of_ne_nil (spells_ne_nil hne hrun)]
    exact .fused (.literals hne hrun) h

/-- **Entries read piece by piece** say the same, after literals that are still open. -/
theorem restated_entriesOf (h : List.Forall₂ (EntryReadAs classes) es pieces)
    (hrun : Entry.Spells run cs) :
    Entry.AllRestated classes (run ++ es) (entriesOf cs pieces) := by
  induction h generalizing run cs with
  | nil =>
    have hall : Entry.AllRestated classes (run ++ []) (literalEntry cs ++ []) :=
      restated_literals hrun .nil
    simpa only [entriesOf, List.append_nil] using hall
  | cons hfirst _ ih =>
    cases hfirst with
    | literal hletters =>
      rw [List.append_cons]
      exact ih (spells_append hrun hletters)
    | entry he => exact restated_literals hrun (.cons he (ih .nil))
    | fused hfuses => exact restated_literals hrun (.fused hfuses (ih .nil))

/-! ## Bodies that are read -/

theorem isPlain_iff {e : Entry} : e.isPlain = true ↔
    e.capture = none ∧ e.quantifier.isOne = true ∧ e.secondary = none := by
  simp [Entry.isPlain, and_assoc]

/-- Plain entries stay plain, and none becomes it. -/
theorem restated_plain {e e' : Entry} (h : e.Restated classes e') :
    (e.isPlain = true ↔ e'.isPlain = true) ∧ e.target.Restated classes e'.target := by
  cases h with
  | intro htarget hq hsecondary =>
    refine ⟨?_, htarget⟩
    rw [isPlain_iff, isPlain_iff]
    cases hsecondary <;> rcases hq with rfl | ⟨hone, hone'⟩ <;> simp_all

/-- An entry that is not repeated is read to a sole one that is not, either. -/
theorem EntryReadAs.sole {e : Entry} (h : EntryReadAs classes e piece) (hplain : e.isPlain = true) :
    ∃ e', entriesOf [] [piece] = [e'] ∧ e'.isPlain = true ∧
      e.target.Restated classes e'.target := by
  have hliteral {cs : List Char} (hspells : Entry.Spells [e] cs) :
      literalEntry cs = [.ofChecker (.literal cs)] ∧
        e.target.Restated classes (.checker (.literal cs)) := by
    refine ⟨literalEntry_of_ne_nil (spells_ne_nil (List.cons_ne_nil _ _) hspells), ?_⟩
    cases hspells with
    | cons hletters _ hlater =>
      cases hlater
      rw [List.append_nil]
      exact .checker (.literal hletters (letters_literal (letters_ne_nil hletters)))
  cases h with
  | literal hspells => exact ⟨_, (hliteral hspells).1, rfl, (hliteral hspells).2⟩
  | @entry e' he => exact ⟨e', rfl, (restated_plain he).1.mp hplain, (restated_plain he).2⟩
  | fused hfuses =>
    refine ⟨_, rfl, rfl, ?_⟩
    cases hfuses with
    | literals _ hspells => exact (hliteral hspells).2
    | count n =>
      obtain ⟨-, hone, -⟩ := isPlain_iff.mp hplain
      obtain rfl : n = 1 := by
        simpa [Quantifier.isOne, Quantifier.exactly, Entry.quantified] using hone
      exact .checker (.any _)
    | rest => cases hplain

/-- So a checker is read to one that says the same, where it stands by itself. -/
theorem CheckerReadAs.checker (h : CheckerReadAs classes .one c piece) :
    c.Restated classes (Body.sequenceChecker (entriesOf [] [piece])) := by
  cases h with
  | entry h =>
    obtain ⟨⟨_, target, _, _⟩, hentries, hplain, htarget⟩ := h.sole rfl
    rw [hentries]
    cases htarget with
    | checker hc =>
      rw [Body.sequenceChecker]
      dsimp only
      rw [if_pos hplain]
      exact hc
  | reference hone => exact .grammar (.cons (.intro (.ref _) (.inr ⟨hone, rfl⟩) .none) .nil)

/-- A body that is a sole plain entry is that entry, and any other one is a grammar. -/
theorem body_entry_sequence (es : List Entry) :
    (∃ e, es = [e] ∧ e.isPlain = true ∧ Body.entry (.sequence es) = e) ∨
      ((∀ e, es = [e] → e.isPlain = false) ∧
        Body.entry (.sequence es) = .ofChecker (.sequence es)) := by
  match es with
  | [] => exact .inr ⟨fun _ h => (nomatch h), rfl⟩
  | [e] =>
    cases hplain : e.isPlain with
    | true => exact .inl ⟨e, rfl, hplain, if_pos hplain⟩
    | false =>
      refine .inr ⟨fun _ h => List.singleton_inj.mp h ▸ hplain, if_neg ?_⟩
      exact hplain ▸ Bool.false_ne_true
  | _ :: _ :: _ => exact .inr ⟨fun _ h => (nomatch h), rfl⟩

/-- What may be read to a sole plain entry: one that is plain as well, or literals. -/
theorem restated_singleton {e' : Entry} (h : Entry.AllRestated classes es [e'])
    (hplain : e'.isPlain = true) :
    (∃ e, es = [e] ∧ e.isPlain = true ∧ e.target.Restated classes e'.target) ∨
      Target.Restated classes (.checker (.grammar ⟨es⟩)) e'.target := by
  generalize hes' : [e'] = es' at h
  cases h with
  | nil => cases hes'
  | cons he hlater =>
    obtain ⟨rfl, rfl⟩ := List.cons.inj hes'
    cases hlater
    exact .inl ⟨_, rfl, (restated_plain he).1.mpr hplain, (restated_plain he).2⟩
  | fused hfuses hlater =>
    obtain ⟨rfl, rfl⟩ := List.cons.inj hes'
    cases hlater
    rw [List.append_nil]
    exact .inr (.checker (.fused hfuses))

/-- A group of the entries of a grammar is read to the grammar, if this is not a sole entry. -/
theorem restated_group (h : Entry.AllRestated classes es es') :
    (∃ e, es = [e] ∧ e.isPlain = true ∧
        e.target.Restated classes (Body.entry (.sequence es')).target) ∨
      Target.Restated classes (.checker (.grammar ⟨es⟩)) (Body.entry (.sequence es')).target := by
  rcases body_entry_sequence es' with ⟨e', rfl, hplain, heq⟩ | ⟨-, heq⟩
  · rw [heq]
    exact restated_singleton h hplain
  · rw [heq]
    exact .inr (.checker (.grammar h))

/-- A group of one item is read to the target of the item. -/
theorem EntryReadAs.group {e : Entry} (h : EntryReadAs classes e piece)
    (hplain : e.isPlain = true) :
    e.target.Restated classes (Body.entry (.sequence (entriesOf [] [piece]))).target := by
  obtain ⟨e', hentries, hplain', htarget⟩ := h.sole hplain
  rcases body_entry_sequence [e'] with ⟨_, heq, -, hentry⟩ | ⟨hne, -⟩
  · rw [hentries, hentry]
    exact List.singleton_inj.mp heq ▸ htarget
  · exact absurd hplain' (hne e' rfl ▸ Bool.false_ne_true)

/-! ## Checkers that are printed -/

section

open Inlay (Sound captureEntries signs)

variable {text : Text} {i j k a e : Nat} {name later items blanks : List Node} {rest : List Char}

/-- After a parenthesis neither a name nor a comment begins there. -/
structure OpensGroup (text : Text) (i : Nat) : Prop where
  unnamed : Reads text captureEntries i none
  star : text[i]? ≠ some '*'

theorem ItemIn.opensGroup {nodes : List Node} (h : ItemIn vocabulary text i j nodes piece) :
    OpensGroup text i := by
  obtain ⟨x, hx, hsign⟩ := h.opens
  refine ⟨h.unnamed, Text.no_other_at hx ?_⟩
  rintro rfl
  exact hsign (by decide)

theorem Closes.opensGroup (h : Closes rest) (hleft : text.LeftAt i rest) : OpensGroup text i := by
  have hsigns : ∀ x ∈ [' ', ')', '|'], x ≠ '#' ∧ x ≠ '$' ∧ x ≠ '*' :=
    List.all_iff_forall_prop.mp (by decide)
  have hnext (x : Char) (hx : text[i]? = some x) := hsigns x (h.at hleft x hx)
  exact ⟨no_capture fun x hx => ⟨(hnext x hx).1, (hnext x hx).2.1⟩,
    fun hstar => (hnext _ hstar).2.2 rfl⟩

/-- A sequence in parentheses, with a name before it and a secondary body after it as the case may
be. -/
theorem SequenceIn.enclosed {capture : Option Capture} {second : Option Grammar} {x : Char}
    (h : SequenceIn vocabulary text a k e items blanks pieces) (hopen : text[i]? = some '(')
    (hstar : text[i + 1]? ≠ some '*') (hcapture : CaptureIn text (i + 1) name a capture)
    (hend : text[e]? = some x) (hx : x ∈ [')', '~'])
    (hsecond : SecondIn vocabulary text e later j second) :
    ∃ nodes, ElementIn vocabulary text i (j + 1) nodes fun q =>
      .entry ⟨capture, (Body.entry (.sequence (entriesOf [] pieces))).target, q, second⟩ := by
  have hsigns : ∀ x ∈ [')', '~'], x ∈ closings ∧ x ≠ '^' ∧ x ≠ '|' :=
    List.all_iff_forall_prop.mp (by decide)
  obtain ⟨hclosing, hcaret, hbar⟩ := hsigns x hx
  obtain ⟨lead, s, k', items', blanks', hlead, hbare, hcaret, hsound, hinside⟩ :=
    h.lead (bare_end hend hclosing) (Text.no_other_at hend hcaret)
  obtain ⟨inside, hbody⟩ := hinside.body (.nil vocabulary text e) hend hclosing
    (Text.no_other_at hend hbar)
  exact ElementIn.group hopen hstar hcapture hlead hsound hbare hcaret hbody hsecond

variable (vocabulary)

/-- Wherever the checker stands with a quantifier, before what may follow an item, it is read to
what says the same. -/
def CheckerPrints (c : Checker) : Prop :=
  ∀ (text : Text) (i : Nat) (q : Quantifier) (rest : List Char), q.IsWritable →
    c.TakesQuantifier q → Closes rest →
    text.LeftAt i (c.display.toList ++ (q.display.toList ++ rest)) →
    ∃ nodes piece, CheckerReadAs vocabulary.classes q c piece ∧ ItemIn vocabulary text i
      (i + c.display.toList.length + q.display.toList.length) nodes piece

/-- So are the entries, one after the other. -/
def EntriesPrint (es : List Entry) : Prop :=
  ∀ (text : Text) (a i : Nat) (blanks : List Node) (rest : List Char), Blanks text a blanks i →
    Sound blanks → Closes rest → text.LeftAt i ((Entry.displayAll es).toList ++ rest) →
    OpensGroup text i ∧ ∃ k items blanks pieces, SequenceIn vocabulary text a k
      (i + (Entry.displayAll es).toList.length) items blanks pieces ∧
        List.Forall₂ (EntryReadAs vocabulary.classes) es pieces

variable {vocabulary}

theorem takesQuantifier_one (c : Checker) : c.TakesQuantifier .one := by
  unfold Checker.TakesQuantifier
  split
  · exact .inr rfl
  · exact nofun
  · trivial

theorem isWritable_one : Quantifier.one.IsWritable := by
  refine ⟨by decide, fun m hm => ?_, fun h => nomatch h⟩
  obtain rfl := Option.some.inj hm
  decide

/-- Once, and without a quantifier. -/
theorem CheckerPrints.once (h : CheckerPrints vocabulary c)
    (hleft : text.LeftAt i (c.display.toList ++ rest)) (hrest : Closes rest) :
    ∃ nodes piece, CheckerReadAs vocabulary.classes .one c piece ∧
      ItemIn vocabulary text i (i + c.display.toList.length) nodes piece :=
  h text i .one rest isWritable_one (takesQuantifier_one c) hrest hleft

/-- An element takes any quantifier. -/
theorem CheckerPrints.of_element (h : ∀ (text : Text) (i : Nat) (rest : List Char),
      text.LeftAt i (c.display.toList ++ rest) → ∃ nodes piece,
        (∀ q : Quantifier, CheckerReadAs vocabulary.classes q c (piece q.reread)) ∧
        ElementIn vocabulary text i (i + c.display.toList.length) nodes piece) :
    CheckerPrints vocabulary c := by
  intro text i q rest hq _ hrest hleft
  obtain ⟨nodes, piece, hpiece, helement⟩ := h text i _ hleft
  obtain ⟨nodes, hitem⟩ := helement.item hq hleft.skip hrest
  exact ⟨nodes, _, hpiece q, hitem⟩

theorem checkerReadAs_entry {c' : Checker} (h : c.Restated classes c') :
    CheckerReadAs classes q c (.entry ((Entry.ofChecker c').quantified q.reread)) :=
  .entry (.entry (.intro (.checker h) q.restated_reread .none))

theorem checkerReadAs_literal {piece : Quantifier → Piece} (h : c.letters? = some cs)
    (hpiece : IsLiteral cs piece) : CheckerReadAs classes q c (piece q.reread) := by
  obtain ⟨hone, hother⟩ := hpiece q.reread
  unfold Quantifier.reread at *
  cases hq : q.isOne with
  | true =>
    rw [hq] at hone
    rw [hone rfl, ← List.append_nil cs]
    exact .entry (.literal (.cons h hq .nil))
  | false =>
    rw [hq] at hother
    obtain ⟨c', hc', heq⟩ := hother hq
    rw [heq]
    exact .entry (.entry (.intro (.checker (.literal h hc')) (.inl rfl) .none))

/-! ### Characters and words -/

theorem prints_word (word : Word) : CheckerPrints vocabulary (.word word) := by
  refine .of_element fun text i rest hleft => ?_
  obtain ⟨nodes, helement⟩ := ElementIn.word vocabulary hleft
  exact ⟨nodes, _, fun q => checkerReadAs_literal rfl (isLiteral_piece word), helement⟩

theorem displayBounds_head (h : q.lower = 0 → q.upper ≠ none) :
    ∃ x ∈ ['^', '?', '+', '\x7b'], q.displayBounds.toList.head? = some x := by
  obtain ⟨lower, upper, g⟩ := q
  unfold Quantifier.displayBounds
  dsimp only at *
  split
  · exact ⟨'^', by decide, rfl⟩
  · exact ⟨'?', by decide, rfl⟩
  · exact absurd rfl (h rfl)
  · exact ⟨'+', by decide, rfl⟩
  · exact ⟨'\x7b', by decide, by simp⟩
  · exact ⟨'\x7b', by decide, by simp⟩
  · split
    · exact ⟨'\x7b', by decide, by simp⟩
    · exact ⟨'\x7b', by decide, by simp⟩

/-- What a quantifier begins with is not taken for the sign of a comment. -/
theorem slash_apart {d : Char} (hslash : Checker.TakesQuantifier q (.single '/'))
    (hrest : Closes rest) (hd : (q.display.toList ++ rest).head? = some d) : d ≠ '/' ∧ d ≠ '*' := by
  have hclosing : ∀ x ∈ [' ', ')', '|'], x ≠ '/' ∧ x ≠ '*' :=
    List.all_iff_forall_prop.mp (by decide)
  have hsign : ∀ x ∈ ['^', '?', '+', '\x7b'], x ≠ '/' ∧ x ≠ '*' :=
    List.all_iff_forall_prop.mp (by decide)
  unfold Quantifier.display at hd
  split at hd
  · exact hclosing d (hrest d hd)
  · obtain ⟨x, hx, hhead⟩ := displayBounds_head hslash
    rw [String.toList_append, List.append_assoc, List.head?_append, hhead] at hd
    exact Option.some.inj hd ▸ hsign x hx

theorem prints_single {d : Char} (h : (CharSet.named "whitespace").contains .standard d = true →
      PatternChar.alone d ≠ d.toString) : CheckerPrints vocabulary (.char (.single d)) := by
  intro text i q rest hq htakes hrest hleft
  have hslash (heq : d = '/') (x : Char) (hx : (q.display.toList ++ rest).head? = some x) :
      x ≠ '/' ∧ x ≠ '*' := by
    subst heq
    exact slash_apart htakes hrest hx
  obtain ⟨nodes, piece, hpiece, helement⟩ := ElementIn.alone vocabulary h hslash hleft
  obtain ⟨nodes, hitem⟩ := helement.item hq hleft.skip hrest
  exact ⟨nodes, _, checkerReadAs_literal rfl hpiece, hitem⟩

theorem prints_set {set : CharSet} (hsingle : ∀ c, set ≠ .single c)
    (h : Checker.IsPrintable vocabulary (.char set)) : CheckerPrints vocabulary (.char set) := by
  have hset : set.Ordered ∧ ∀ name ∈ set.classNames,
      '\x7d' ∉ name.toList ∧ vocabulary.classes.has name = true := by
    cases set with
    | single c => exact absurd rfl (hsingle c)
    | _ => exact h
  refine .of_element fun text i rest hleft => ?_
  obtain ⟨nodes, set', hset', helement⟩ := ElementIn.set hset.1 hsingle hset.2 hleft
  exact ⟨nodes, _, fun q => checkerReadAs_entry (.char hset'), helement⟩

/-! ### Any characters -/

/-- A repeated dot may be taken together. -/
theorem entryReadAs_dot (q : Quantifier) : EntryReadAs classes
    ⟨none, .checker (.anyOf 1), q, none⟩ (.entry (dotEntry q.reread)) := by
  unfold Quantifier.reread
  cases hone : q.isOne with
  | true => exact .entry (.intro (.checker (.any _)) (.inr ⟨hone, rfl⟩) .none)
  | false =>
    obtain ⟨lower, upper, greediness⟩ := q
    rw [if_neg Bool.false_ne_true, dotEntry]
    dsimp only
    split
    · next hpossessive =>
      obtain rfl := beq_iff_eq.mp hpossessive
      split
      · next hrest =>
        obtain ⟨hlower, hupper⟩ := Bool.and_eq_true_iff.mp hrest
        obtain rfl := beq_iff_eq.mp hlower
        obtain rfl := Option.isNone_iff_eq_none.mp hupper
        exact .fused .rest
      · split
        · next hfixed =>
          obtain rfl : upper = some lower := beq_iff_eq.mp hfixed
          exact .fused (.count lower)
        · exact .entry (.intro (.checker (.any _)) (.inl rfl) .none)
    · exact .entry (.intro (.checker (.any _)) (.inl rfl) .none)

/-- A dot with bounds of its own takes no other quantifier. -/
theorem prints_any_of {width : Option Nat} {base : List Char} {bounds : Quantifier}
    (hwidth : width ≠ some 1) (hdisplay : (Checker.displayAny width).toList = '.' :: base)
    (hbase : Base base) (hbounds : bareQuantifier? base = some bounds)
    (hgreed : bounds.greediness = .possessive)
    (hentry : dotEntry bounds = .ofChecker (.any width)) :
    CheckerPrints vocabulary (.any width) := by
  intro text i q rest _ htakes hrest hleft
  have hone : q.isOne = true := htakes.resolve_left hwidth
  have hq : q.display = "" := if_pos hone
  have hsame : bounds.withGreediness .possessive = bounds := by rw [← hgreed]; rfl
  rw [hq, Checker.display, hdisplay, List.cons_append] at hleft
  obtain ⟨nodes, hitem⟩ := (ElementIn.dot hleft).quantified hbase (hsame.symm ▸ hbounds)
    (fun _ => hgreed) (by rw [hgreed]; exact hleft.next) hrest
  rw [hgreed, hentry] at hitem
  have hstop : i + (Checker.any width).display.toList.length + q.display.toList.length =
      i + 1 + base.length + (Quantifier.displayGreediness .possessive).toList.length := by
    rw [hq, Checker.display, hdisplay, List.length_cons]
    show i + (base.length + 1) + 0 = i + 1 + base.length + 0
    omega
  rw [hstop]
  exact ⟨nodes, _, .entry (.entry (.intro (.checker (.any width)) (.inr ⟨hone, rfl⟩) .none)), hitem⟩

theorem prints_any {width : Option Nat} (h : ∀ n, width = some n → n ≤ maxCount) :
    CheckerPrints vocabulary (.any width) := by
  by_cases hone : width = some 1
  · subst hone
    refine .of_element fun text i rest hleft => ?_
    exact ⟨_, _, fun q => .entry (entryReadAs_dot q), .dot hleft⟩
  cases width with
  | none =>
    exact prints_any_of hone rfl (.sign (by decide)) rfl rfl rfl
  | some n =>
    have hdisplay : (Checker.displayAny (some n)).toList =
        '.' :: '\x7b' :: (Nat.toDigits 10 n ++ ['\x7d']) := by
      unfold Checker.displayAny
      split
      · next heq => exact absurd heq hone
      · next m heq =>
        obtain rfl := Option.some.inj heq
        simp
      · next heq => cases heq
    have hbounds : bareQuantifier? ('\x7b' :: (Nat.toDigits 10 n ++ ['\x7d'])) =
        some (.exactly n) := by
      rw [bareQuantifier_braces, bounds_count (isDigit_toDigits n), count_toDigits (h n rfl)]
      rfl
    have hentry : dotEntry (.exactly n) = .ofChecker (.anyOf n) := by
      have hrest : ((Quantifier.exactly n).lower == 0 && (Quantifier.exactly n).upper.isNone) =
          false := Bool.and_false _
      have hfixed : (Quantifier.exactly n).isFixed = true := beq_self_eq_true (some n)
      have hgreed : ((Quantifier.exactly n).greediness == .possessive) = true := rfl
      rw [dotEntry, if_pos hgreed, if_neg (hrest ▸ Bool.false_ne_true), if_pos hfixed]
      rfl
    exact prints_any_of hone hdisplay (.count (isDigit_toDigits n)) hbounds rfl hentry

/-! ### Choices -/

/-- Choices after the first one, each after a bar. -/
def laterChoices (cs : List Checker) : List Char := cs.flatMap fun c => '|' :: c.display.toList

theorem toList_displayChoices (c : Checker) (cs : List Checker) :
    (Checker.displayChoices (c :: cs)).toList = c.display.toList ++ laterChoices cs := by
  induction cs generalizing c with
  | nil => exact (List.append_nil _).symm
  | cons d ds ih =>
    rw [Checker.displayChoices, String.toList_append, String.toList_append, ih, List.append_assoc]
    · rfl
    · exact nofun

/-- What follows a choice closes it: a bar, or the end of the group. -/
theorem head_afterChoice (cs : List Checker) (fallback : Option Checker) (rest : List Char) :
    ∃ x ∈ ['|', ')'], ∃ more,
      laterChoices cs ++ ((Checker.displayFallback fallback).toList ++ ')' :: rest) =
        x :: more := by
  cases cs with
  | cons c cs => exact ⟨'|', by decide, _, rfl⟩
  | nil =>
    cases fallback with
    | none => exact ⟨')', by decide, _, rfl⟩
    | some c =>
      have hbars : (Checker.displayFallback (some c)).toList = '|' :: '|' :: c.display.toList :=
        String.toList_append
      exact ⟨'|', by decide, _, by rw [hbars]; rfl⟩

/-- A choice is found up to what closes it. -/
theorem choice_found (h : CheckerPrints vocabulary c)
    (hleft : text.LeftAt i (c.display.toList ++ rest)) {x : Char} {more : List Char}
    (hrest : rest = x :: more) (hx : x ∈ ['|', ')']) :
    ∃ nodes items piece, ItemIn vocabulary text i (i + c.display.toList.length) nodes piece ∧
      c.Restated vocabulary.classes (Body.sequenceChecker (entriesOf [] [piece])) ∧
      SequenceIn vocabulary text i (i + c.display.toList.length) (i + c.display.toList.length)
        items [] [piece] ∧
      text[i + c.display.toList.length]? = some x ∧ x ∈ closings := by
  have hsigns : ∀ x ∈ ['|', ')'], x ∈ [' ', ')', '|'] ∧ x ∈ closings :=
    List.all_iff_forall_prop.mp (by decide)
  obtain ⟨hcloses, hclosing⟩ := hsigns x hx
  subst hrest
  obtain ⟨nodes, piece, hpiece, hitem⟩ := h.once hleft (.cons hcloses)
  obtain ⟨items, hsequence⟩ := hitem.sequence
  exact ⟨nodes, items, piece, hitem, hpiece.checker, hsequence, hleft.skip.get, hclosing⟩

/-- No item begins with a bar. -/
theorem ItemIn.no_bar {nodes : List Node} (h : ItemIn vocabulary text i j nodes piece) :
    text[i]? ≠ some '|' := fun hbar =>
  nomatch (Repeats.once rfl h.step).unique (.once rfl (no_item (Text.only_at hbar (by decide))))

/-- A fallback after two bars, if there is one. -/
theorem fallback_found {fallback : Option Checker}
    (h : ∀ c, fallback = some c → CheckerPrints vocabulary c)
    (hleft : text.LeftAt i ((Checker.displayFallback fallback).toList ++ ')' :: rest)) :
    ∃ nodes segments, SegmentsIn vocabulary text i nodes
        (i + (Checker.displayFallback fallback).toList.length) [] segments ∧
      Checker.OptionRestated vocabulary.classes fallback
        (Body.ofSegments (segments.map (·.map Body.sequenceChecker))) := by
  cases fallback with
  | none => exact ⟨[], [], .nil vocabulary text i, .none⟩
  | some c =>
    have hbars : (Checker.displayFallback (some c)).toList = '|' :: '|' :: c.display.toList :=
      String.toList_append
    rw [hbars] at hleft ⊢
    obtain ⟨_, items, piece, -, hpiece, hsequence, hend, hclosing⟩ :=
      choice_found (h c rfl) hleft.next.next rfl (by decide)
    have hstop : i + ('|' :: '|' :: c.display.toList).length = i + 2 + c.display.toList.length := by
      rw [List.length_cons, List.length_cons]
      omega
    obtain ⟨nodes, hsegments⟩ := (SegmentsIn.nil vocabulary text _).bars hleft.get hleft.next.get
      hsequence hend hclosing
    rw [hstop]
    exact ⟨nodes, _, hsegments, .some hpiece⟩

/-- Choices and a fallback after them. -/
theorem choices_found {fallback : Option Checker}
    (h : ∀ c, fallback = some c → CheckerPrints vocabulary c) {cs : List Checker}
    (hcs : ∀ c ∈ cs, CheckerPrints vocabulary c) (hleft : text.LeftAt i (laterChoices cs ++
      ((Checker.displayFallback fallback).toList ++ ')' :: rest))) :
    ∃ nodes sequences segments, SegmentsIn vocabulary text i nodes (i + (laterChoices cs).length +
        (Checker.displayFallback fallback).toList.length) sequences segments ∧
      Checker.AllRestated vocabulary.classes cs (sequences.map Body.sequenceChecker) ∧
      Checker.OptionRestated vocabulary.classes fallback
        (Body.ofSegments (segments.map (·.map Body.sequenceChecker))) := by
  induction cs generalizing i with
  | nil =>
    obtain ⟨nodes, segments, hsegments, hfallback⟩ := fallback_found h hleft
    exact ⟨nodes, [], segments, hsegments, .nil, hfallback⟩
  | cons c cs ih =>
    obtain ⟨hc, hcs⟩ := List.forall_mem_cons.mp hcs
    have hlater : laterChoices (c :: cs) = '|' :: (c.display.toList ++ laterChoices cs) := rfl
    rw [hlater] at hleft ⊢
    rw [List.cons_append, List.append_assoc] at hleft
    obtain ⟨x, hx, more, hmore⟩ := head_afterChoice cs fallback rest
    obtain ⟨_, items, piece, hitem, hpiece, hsequence, hend, hclosing⟩ :=
      choice_found hc hleft.next hmore hx
    obtain ⟨_, sequences, segments, hsegments, hrestated, hfallback⟩ := ih hcs hleft.next.skip
    obtain ⟨nodes, hbar⟩ := hsegments.bar hleft.get hitem.no_bar hsequence hend hclosing
    have hstop : i + ('|' :: (c.display.toList ++ laterChoices cs)).length =
        i + 1 + c.display.toList.length + (laterChoices cs).length := by
      rw [List.length_cons, List.length_append]
      omega
    rw [hstop]
    exact ⟨nodes, _, segments, hbar, .cons hpiece hrestated, hfallback⟩

/-- What is no alternative without a fallback is read to one choice. -/
theorem choiceParts_restated {c c' : Checker} (h : c.Restated classes c')
    (hc : ∀ cs, c ≠ .oneOf cs none) : c'.choiceParts = [c'] := by
  cases h with
  | literal _ h' =>
    cases c' with
    | oneOf => cases h'
    | _ => rfl
  | oneOf _ hfallback =>
    cases hfallback with
    | none => exact absurd rfl (hc _)
    | some _ => rfl
  | fused h =>
    cases h with
    | @literals _ cs _ _ => cases cs <;> rfl
    | count | rest => rfl
  | _ => rfl

theorem choiceParts_allRestated {cs cs' : List Checker} (h : Checker.AllRestated classes cs cs')
    (hcs : ∀ c ∈ cs, ∀ ds, c ≠ .oneOf ds none) : cs'.flatMap Checker.choiceParts = cs' := by
  induction cs generalizing cs' with
  | nil =>
    cases h
    rfl
  | cons c cs ih =>
    cases h with
    | cons hc hlater =>
      obtain ⟨hplain, hcs⟩ := List.forall_mem_cons.mp hcs
      rw [List.flatMap_cons, choiceParts_restated hc hplain, ih hlater hcs]
      rfl

theorem length_allRestated {cs cs' : List Checker} (h : Checker.AllRestated classes cs cs') :
    cs'.length = cs.length := by
  induction cs generalizing cs' with
  | nil =>
    cases h
    rfl
  | cons c cs ih =>
    cases h with
    | cons _ hlater => rw [List.length_cons, List.length_cons, ih hlater]

theorem ofSegments_ne_none (choices : List Checker) (segments : List (List Checker)) :
    Body.ofSegments (choices :: segments) ≠ none := by
  unfold Body.ofSegments
  split
  · exact nofun
  · split <;> exact nofun

theorem ofSegments_fallback {choices : List Checker} {segments : List (List Checker)}
    (h : Body.ofSegments segments = some c) :
    Body.ofSegments (choices :: segments) = some (.alternativeOr choices c) := by
  unfold Body.ofSegments
  rw [h]

/-- Choices that are no sole one are read to an alternative of the same. -/
theorem ofSequences_choices {cs : List Checker} {fallback : Option Checker}
    {sequences : List (List Entry)} {segments : List (List (List Entry))}
    (h : Checker.IsPrintable vocabulary (.oneOf cs fallback))
    (hcs : Checker.AllRestated classes cs (sequences.map Body.sequenceChecker))
    (hfallback : Checker.OptionRestated classes fallback
      (Body.ofSegments (segments.map (·.map Body.sequenceChecker)))) :
    ∃ c, Body.ofSequences (sequences :: segments) = .choice c ∧
      Checker.Restated classes (.oneOf cs fallback) c := by
  obtain ⟨hne, hsole, hplain⟩ := h
  have hflat := choiceParts_allRestated hcs hplain
  have hlength := length_allRestated hcs
  rw [List.length_map] at hlength
  cases segments with
  | nil =>
    cases hfallback
    match sequences with
    | [] => exact absurd (List.length_eq_zero_iff.mp hlength.symm) hne
    | [_] => exact absurd (hsole hlength.symm) Bool.false_ne_true
    | first :: second :: others =>
      refine ⟨_, rfl, ?_⟩
      show Checker.Restated classes _ (.alternative _)
      rw [Checker.alternative, hflat]
      exact .oneOf hcs .none
  | cons segment segments =>
    have hchoice : Body.ofSequences (sequences :: segment :: segments) =
        .choice ((Body.ofSegments
          ((sequences :: segment :: segments).map (·.map Body.sequenceChecker))).getD
            (.anyOf 0)) := by
      rcases sequences with _ | ⟨_, _ | _⟩ <;> rfl
    refine ⟨_, hchoice, ?_⟩
    generalize hlater : Body.ofSegments ((segment :: segments).map (·.map Body.sequenceChecker)) =
      later at hfallback
    cases hfallback with
    | none => exact absurd hlater (ofSegments_ne_none _ _)
    | @some _ d' hd =>
      rw [List.map_cons, ofSegments_fallback hlater, Option.getD_some, Checker.alternativeOr, hflat]
      exact .oneOf hcs (.some hd)

/-- Choices in parentheses. -/
theorem prints_oneOf {cs : List Checker} {fallback : Option Checker}
    (h : Checker.IsPrintable vocabulary (.oneOf cs fallback))
    (hcs : ∀ c ∈ cs, CheckerPrints vocabulary c)
    (hfallback : ∀ c, fallback = some c → CheckerPrints vocabulary c) :
    CheckerPrints vocabulary (.oneOf cs fallback) := by
  refine .of_element fun text i rest hleft => ?_
  cases cs with
  | nil => exact absurd rfl h.1
  | cons c cs =>
    obtain ⟨hc, hothers⟩ := List.forall_mem_cons.mp hcs
    have hdisplay : (Checker.oneOf (c :: cs) fallback).display.toList = '(' :: (c.display.toList ++
        (laterChoices cs ++ ((Checker.displayFallback fallback).toList ++ [')']))) := by
      rw [Checker.display, String.toList_append, String.toList_append, String.toList_append,
        toList_displayChoices, List.append_assoc, List.append_assoc, List.append_assoc]
      rfl
    rw [hdisplay] at hleft ⊢
    simp only [List.cons_append, List.append_assoc, List.nil_append] at hleft
    obtain ⟨x, hx, more, hmore⟩ := head_afterChoice cs fallback rest
    obtain ⟨_, items, piece, hitem, hpiece, hsequence, hend, hclosing⟩ :=
      choice_found hc hleft.next hmore hx
    obtain ⟨_, sequences, segments, hsegments, hrestated, hsecond⟩ :=
      choices_found hfallback hothers hleft.next.skip
    have hclose := hleft.next.skip.skip.skip.get
    obtain ⟨inside, hbody⟩ := hsequence.body hsegments hend hclosing
      (Text.no_other_at hclose (by decide))
    obtain ⟨c', hchoice, hc'⟩ := ofSequences_choices h
      (show Checker.AllRestated _ _ ((entriesOf [] [piece] :: sequences).map _) from
        .cons hpiece hrestated) hsecond
    obtain ⟨_, hx, hsign⟩ := hitem.opens
    have hcaret : text[i + 1]? ≠ some '^' := fun hcaret =>
      hsign (Text.only_at hcaret (by decide) _ hx)
    obtain ⟨nodes, helement⟩ := ElementIn.group hleft.get hitem.opensGroup.star
      (.left_out hitem.unnamed) ⟨.nil _, by rintro _ ⟨⟩⟩ (by rintro _ ⟨⟩) hitem.bare hcaret hbody
      (.left_out vocabulary hclose)
    have hstop : i + ('(' :: (c.display.toList ++ (laterChoices cs ++
        ((Checker.displayFallback fallback).toList ++ [')'])))).length =
          i + 1 + c.display.toList.length + (laterChoices cs).length +
            (Checker.displayFallback fallback).toList.length + 1 := by
      simp only [List.length_cons, List.length_append, List.length_nil]
      omega
    rw [hstop]
    rw [hchoice] at helement
    exact ⟨nodes, _, fun q => checkerReadAs_entry hc', helement⟩

/-! ### Negations and grammars -/

theorem prints_not {item : Checker} (h : CheckerPrints vocabulary item) :
    CheckerPrints vocabulary (.not item) := by
  refine .of_element fun text i rest hleft => ?_
  have hdisplay : (Checker.not item).display.toList =
      '(' :: '^' :: (item.display.toList ++ [')']) := by
    rw [Checker.display, String.toList_append, String.toList_append]
    rfl
  rw [hdisplay] at hleft ⊢
  simp only [List.cons_append, List.append_assoc, List.nil_append] at hleft
  obtain ⟨_, items, piece, -, hpiece, hsequence, hend, hclosing⟩ :=
    choice_found h hleft.next.next rfl (by decide)
  obtain ⟨inside, hbody⟩ := hsequence.body (.nil vocabulary text _) hend hclosing
    (Text.no_other_at hend (by decide))
  obtain ⟨nodes, helement⟩ := ElementIn.negation hleft.get hleft.next.get hbody hend
  have hstop : i + ('(' :: '^' :: (item.display.toList ++ [')'])).length =
      i + 2 + item.display.toList.length + 1 := by
    simp only [List.length_cons, List.length_append, List.length_nil]
    omega
  rw [hstop]
  exact ⟨nodes, _, fun q => checkerReadAs_entry (.not hpiece), helement⟩

/-- A grammar that holds just a reference is read to that. -/
theorem checkerReadAs_group (h : Checker.IsPrintable vocabulary (.grammar ⟨es⟩))
    (hes : Entry.AllRestated classes es es') (q : Quantifier) :
    CheckerReadAs classes q (.grammar ⟨es⟩)
      (.entry ⟨none, (Body.entry (.sequence es')).target, q.reread, none⟩) := by
  rcases restated_group hes with ⟨e, rfl, hplain, htarget⟩ | htarget
  · obtain ⟨hcapture, hone, hsecondary⟩ := isPlain_iff.mp hplain
    obtain ⟨capture, target, one, secondary⟩ := e
    dsimp only at *
    subst hcapture
    subst hsecondary
    generalize (Body.entry (.sequence es')).target = target' at htarget
    cases htarget with
    | checker hc => exact absurd rfl (h _ rfl hplain _)
    | ref r => exact .reference hone
  · exact .entry (.entry (.intro htarget q.restated_reread .none))

theorem prints_grammar (h : Checker.IsPrintable vocabulary (.grammar ⟨es⟩))
    (hes : EntriesPrint vocabulary es) : CheckerPrints vocabulary (.grammar ⟨es⟩) := by
  refine .of_element fun text i rest hleft => ?_
  have hdisplay : (Checker.grammar ⟨es⟩).display.toList =
      '(' :: ((Entry.displayAll es).toList ++ [')']) := by
    rw [Checker.display, Grammar.display, String.toList_append, String.toList_append]
    rfl
  rw [hdisplay] at hleft ⊢
  simp only [List.cons_append, List.append_assoc, List.nil_append] at hleft
  obtain ⟨hopens, k, items, blanks, pieces, hsequence, hpieces⟩ := hes text (i + 1) (i + 1) [] _
    ⟨.nil _, by rintro _ ⟨⟩⟩ (by rintro _ ⟨⟩) (.cons (by decide)) hleft.next
  have hclose := hleft.next.skip.get
  obtain ⟨nodes, helement⟩ := hsequence.enclosed hleft.get hopens.star (.left_out hopens.unnamed)
    hclose (by decide) (.left_out vocabulary hclose)
  have hstop : i + ('(' :: ((Entry.displayAll es).toList ++ [')'])).length =
      i + 1 + (Entry.displayAll es).toList.length + 1 := by
    simp only [List.length_cons, List.length_append, List.length_nil]
    omega
  rw [hstop]
  exact ⟨nodes, _, checkerReadAs_group h (restated_entriesOf hpieces .nil), helement⟩

/-! ## Entries that are printed -/

variable (vocabulary)

/-- Wherever the entry stands before what may follow an item, it is read to what says the same. -/
def EntryPrints (entry : Entry) : Prop :=
  ∀ (text : Text) (i : Nat) (rest : List Char), Closes rest →
    text.LeftAt i (entry.display.toList ++ rest) → ∃ nodes piece,
      EntryReadAs vocabulary.classes entry piece ∧
      ItemIn vocabulary text i (i + entry.display.toList.length) nodes piece

/-- Inside of a group the target is read to a body that says the same. -/
def TargetFills (target : Target) : Prop :=
  ∀ (text : Text) (a i : Nat) (blanks : List Node) (rest : List Char), Blanks text a blanks i →
    Sound blanks → Closes rest → text.LeftAt i ((Target.displayInGroup target).toList ++ rest) →
    OpensGroup text i ∧ ∃ k items blanks pieces, SequenceIn vocabulary text a k
      (i + (Target.displayInGroup target).toList.length) items blanks pieces ∧
        target.Restated vocabulary.classes (Body.entry (.sequence (entriesOf [] pieces))).target

variable {vocabulary}

theorem entriesPrint_nil : EntriesPrint vocabulary [] :=
  fun _ a _ _ _ hblanks hsound hrest hleft =>
    ⟨hrest.opensGroup hleft, a, _, _, _, .of_blanks vocabulary hblanks hsound, .nil⟩

/-- A blank node. -/
theorem sound_blank (i : Nat) : Sound [categoryNode "ignored" i (i + 1) []] :=
  .node (by rintro _ ⟨⟩) (by decide)

theorem entriesPrint_cons {e : Entry} (he : EntryPrints vocabulary e)
    (hes : EntriesPrint vocabulary es) : EntriesPrint vocabulary (e :: es) := by
  intro text a i blanks rest hblanks hsound hrest hleft
  have hbefore := SequenceIn.of_blanks vocabulary hblanks hsound
  cases es with
  | nil =>
    obtain ⟨nodes, piece, hpiece, hitem⟩ := he text i rest hrest hleft
    obtain ⟨items, hsequence⟩ := hitem.between hbefore (.nil vocabulary text _)
    exact ⟨hitem.opensGroup, _, items, _, _, hsequence, .cons hpiece .nil⟩
  | cons e' es =>
    have hdisplay : (Entry.displayAll (e :: e' :: es)).toList =
        e.display.toList ++ ' ' :: (Entry.displayAll (e' :: es)).toList := by
      rw [Entry.displayAll, String.toList_append, String.toList_append, List.append_assoc]
      · rfl
      · exact nofun
    rw [hdisplay] at hleft ⊢
    rw [List.append_assoc, List.cons_append] at hleft
    obtain ⟨nodes, piece, hpiece, hitem⟩ := he text i _ (.cons (by decide)) hleft
    obtain ⟨-, k, items, blanks, pieces, hlater, hpieces⟩ := hes text _ _ _ rest
      (blank_step hleft.skip.get (by decide)) (sound_blank _) hrest hleft.skip.next
    obtain ⟨items, hsequence⟩ := hitem.between hbefore hlater
    have hstop : i + (e.display.toList ++ ' ' :: (Entry.displayAll (e' :: es)).toList).length =
        i + e.display.toList.length + 1 + (Entry.displayAll (e' :: es)).toList.length := by
      rw [List.length_append, List.length_cons]
      omega
    rw [hstop]
    exact ⟨hitem.opensGroup, k, items, blanks, _, hsequence, .cons hpiece hpieces⟩

/-! ### Targets -/

theorem fills_grammar (h : Target.IsPrintable vocabulary (.checker (.grammar ⟨es⟩)))
    (hes : EntriesPrint vocabulary es) : TargetFills vocabulary (.checker (.grammar ⟨es⟩)) := by
  intro text a i blanks rest hblanks hsound hrest hleft
  obtain ⟨hopens, k, items, blanks, pieces, hsequence, hpieces⟩ :=
    hes text a i blanks rest hblanks hsound hrest hleft
  refine ⟨hopens, k, items, blanks, pieces, hsequence, ?_⟩
  rcases restated_group (restated_entriesOf hpieces .nil) with ⟨e, hone, hplain, -⟩ | htarget
  · exact absurd hplain (h e hone ▸ Bool.false_ne_true)
  · exact htarget

/-- Any other target is an item. -/
theorem fills_item {target : Target} (h : EntryPrints vocabulary (.ofTarget target))
    (hdisplay : Target.displayInGroup target = (Entry.ofTarget target).display) :
    TargetFills vocabulary target := by
  intro text a i blanks rest hblanks hsound hrest hleft
  rw [hdisplay] at hleft ⊢
  obtain ⟨nodes, piece, hpiece, hitem⟩ := h text i rest hrest hleft
  obtain ⟨items, hsequence⟩ := hitem.between (.of_blanks vocabulary hblanks hsound)
    (.nil vocabulary text _)
  exact ⟨hitem.opensGroup, _, items, _, _, hsequence, hpiece.group rfl⟩

theorem entryReadAs_of_checker (h : CheckerReadAs classes q c piece)
    (hgrammar : ∀ r one, one.isOne = true → c ≠ .grammar ⟨[⟨none, .ref r, one, none⟩]⟩) :
    EntryReadAs classes ⟨none, .checker c, q, none⟩ piece := by
  cases h with
  | entry h => exact h
  | reference hone => exact absurd rfl (hgrammar _ _ hone)

/-- A target without a name is printed as it is, and its quantifier after it. -/
theorem prints_bare {target : Target}
    (h : Entry.IsPrintable vocabulary ⟨none, target, q, none⟩)
    (hchecker : ∀ c, target = .checker c → CheckerPrints vocabulary c) :
    EntryPrints vocabulary ⟨none, target, q, none⟩ := by
  intro text i rest hrest hleft
  have hdisplay : (Entry.display ⟨none, target, q, none⟩).toList =
      (Target.display target).toList ++ q.display.toList := String.toList_append
  rw [hdisplay] at hleft ⊢
  rw [List.append_assoc] at hleft
  rw [List.length_append, ← Nat.add_assoc]
  cases target with
  | checker c =>
    obtain ⟨nodes, piece, hpiece, hitem⟩ := hchecker c rfl text i q rest h.quantifier
      (h.bare rfl rfl c rfl) hrest hleft
    refine ⟨nodes, piece, entryReadAs_of_checker hpiece ?_, hitem⟩
    rintro r one hone rfl
    have hplain : Entry.isPlain ⟨none, .ref r, one, none⟩ = false := h.target _ rfl
    exact Bool.false_ne_true (hplain.symm.trans (isPlain_iff.mpr ⟨rfl, hone, rfl⟩))
  | ref r =>
    obtain ⟨hknown, hname, hparam⟩ := h.target
    obtain ⟨nodes, helement⟩ := ElementIn.typeRef hknown hname hparam hleft
    obtain ⟨nodes, hitem⟩ := helement.item h.quantifier hleft.skip hrest
    exact ⟨nodes, _, .entry (.intro (.ref r) q.restated_reread .none), hitem⟩
  | type t => exact h.target.elim

/-- Printable by itself, once. -/
theorem isPrintable_ofTarget {target : Target} (h : target.IsPrintable vocabulary) :
    (Entry.ofTarget target).IsPrintable vocabulary where
  name _ h := nomatch h
  target := h
  quantifier := isWritable_one
  bare _ _ c _ := takesQuantifier_one c

theorem fills_of {target : Target} (h : target.IsPrintable vocabulary)
    (hchecker : ∀ c, target = .checker c → CheckerPrints vocabulary c)
    (hgrammar : ∀ es, target = .checker (.grammar ⟨es⟩) → EntriesPrint vocabulary es) :
    TargetFills vocabulary target := by
  have hitem := prints_bare (isPrintable_ofTarget h) hchecker
  cases target with
  | checker c =>
    cases c with
    | grammar g =>
      obtain ⟨es⟩ := g
      exact fills_grammar h (hgrammar es rfl)
    | _ => exact fills_item hitem (String.append_empty).symm
  | ref r => exact fills_item hitem (String.append_empty).symm
  | type t => exact h.elim

/-! ### Groups -/

/-- The name of a group and the blank after it. -/
def openingChars : Option Capture → List Char
  | some capture => capture.display.toList
  | none => []

/-- What stands before the body of a group, and the body. -/
theorem filled_group {target : Target} {capture : Option Capture}
    (hname : ∀ c, capture = some c → IsName c.name) (htarget : TargetFills vocabulary target)
    (hrest : Closes rest) (hleft : text.LeftAt i
      (openingChars capture ++ ((Target.displayInGroup target).toList ++ rest))) :
    text[i]? ≠ some '*' ∧ ∃ name a k items blanks pieces, CaptureIn text i name a capture ∧
      SequenceIn vocabulary text a k
        (i + (openingChars capture).length + (Target.displayInGroup target).toList.length)
        items blanks pieces ∧
      target.Restated vocabulary.classes (Body.entry (.sequence (entriesOf [] pieces))).target := by
  cases capture with
  | none =>
    obtain ⟨hopens, k, items, blanks, pieces, hsequence, hpieces⟩ := htarget text i i [] rest
      ⟨.nil i, by rintro _ ⟨⟩⟩ (by rintro _ ⟨⟩) hrest hleft
    exact ⟨hopens.star, [], i, k, items, blanks, pieces, .left_out hopens.unnamed, hsequence,
      hpieces⟩
  | some capture =>
    have hopening : openingChars (some capture) =
        kindSign capture.flat :: (capture.name.toList ++ [':', ' ']) :=
      toList_displayCapture capture
    have hstop : i + (openingChars (some capture)).length =
        i + 1 + capture.name.toList.length + 1 + 1 := by
      simp only [hopening, List.length_cons, List.length_append, List.length_nil]
      omega
    rw [hstop]
    rw [hopening] at hleft
    simp only [List.cons_append, List.append_assoc, List.nil_append] at hleft
    obtain ⟨name, hcapture⟩ := CaptureIn.given (hname capture rfl) hleft
    obtain ⟨-, k, items, blanks, pieces, hsequence, hpieces⟩ := htarget text _ _ _ rest
      (blank_step hleft.next.skip.next.get (by decide)) (sound_blank _) hrest
      hleft.next.skip.next.next
    refine ⟨Text.no_other_at hleft.get ?_, name, _, k, items, blanks, pieces, hcapture, hsequence,
      hpieces⟩
    cases capture.flat <;> decide

/-- The secondary body of a group, and the blanks around its sign. -/
theorem second_found {secondary : Option Grammar}
    (h : ∀ g, secondary = some g → EntriesPrint vocabulary g.entries)
    (hbody : SequenceIn vocabulary text a k i items blanks pieces)
    (hleft : text.LeftAt i ((Grammar.displaySecondary secondary).toList ++ ')' :: rest)) :
    ∃ e blanks later second, ∃ x ∈ [')', '~'], text[e]? = some x ∧
      SequenceIn vocabulary text a k e items blanks pieces ∧
      SecondIn vocabulary text e later (i + (Grammar.displaySecondary secondary).toList.length)
        second ∧ Grammar.OptionRestated vocabulary.classes secondary second := by
  cases secondary with
  | none =>
    exact ⟨i, blanks, [], none, ')', by decide, hleft.get, hbody, .left_out vocabulary hleft.get,
      .none⟩
  | some g =>
    obtain ⟨es⟩ := g
    have hdisplay : (Grammar.displaySecondary (some ⟨es⟩)).toList =
        ' ' :: '~' :: ' ' :: (Entry.displayAll es).toList := String.toList_append
    have hstop : i + (' ' :: '~' :: ' ' :: (Entry.displayAll es).toList).length =
        i + 1 + 1 + 1 + (Entry.displayAll es).toList.length := by
      simp only [List.length_cons]
      omega
    rw [hdisplay] at hleft ⊢
    rw [hstop]
    simp only [List.cons_append] at hleft
    have hinside := hleft.next.next
    obtain ⟨-, k', items', blanks', pieces', hsecond, hpieces⟩ := h ⟨es⟩ rfl text _ _ _ _
      (blank_step hinside.get (by decide)) (sound_blank _) (.cons (by decide)) hinside.next
    have hclose := hinside.next.skip.get
    obtain ⟨nodes, hsecondBody⟩ := hsecond.body (.nil vocabulary text _) hclose (by decide)
      (Text.no_other_at hclose (by decide))
    exact ⟨i + 1, _, _, _, '~', by decide, hleft.next.get, hbody.blank hleft.get (by decide),
      .given hleft.next.get hsecondBody hclose, .some (restated_entriesOf hpieces .nil)⟩

/-- A group around a target, with a name or a secondary body. -/
theorem prints_group {capture : Option Capture} {target : Target} {secondary : Option Grammar}
    (hdisplay : (Entry.display ⟨capture, target, q, secondary⟩).toList =
      '(' :: (openingChars capture ++ ((Target.displayInGroup target).toList ++
        ((Grammar.displaySecondary secondary).toList ++ ')' :: q.display.toList))))
    (h : Entry.IsPrintable vocabulary ⟨capture, target, q, secondary⟩)
    (htarget : TargetFills vocabulary target)
    (hsecondary : ∀ g, secondary = some g → EntriesPrint vocabulary g.entries) :
    EntryPrints vocabulary ⟨capture, target, q, secondary⟩ := by
  intro text i rest hrest hleft
  rw [hdisplay] at hleft ⊢
  simp only [List.cons_append, List.append_assoc] at hleft
  have hcloses : Closes ((Grammar.displaySecondary secondary).toList ++
      ')' :: (q.display.toList ++ rest)) := by
    cases secondary with
    | none => exact .cons (by decide)
    | some g =>
      have hblank : (Grammar.displaySecondary (some g)).toList =
          ' ' :: '~' :: ' ' :: (Grammar.display g).toList := String.toList_append
      rw [hblank]
      exact .cons (by decide)
  obtain ⟨hstar, name, a, k, items, blanks, pieces, hcapture, hsequence, hpieces⟩ :=
    filled_group h.name htarget hcloses hleft.next
  obtain ⟨e, blanks, later, second, x, hx, hend, hbody, hsecond, hrestated⟩ :=
    second_found hsecondary hsequence hleft.next.skip.skip
  obtain ⟨nodes, helement⟩ := hbody.enclosed hleft.get hstar hcapture hend hx hsecond
  obtain ⟨nodes, hitem⟩ := helement.item h.quantifier hleft.next.skip.skip.skip.next hrest
  have hstop : i + ('(' :: (openingChars capture ++ ((Target.displayInGroup target).toList ++
      ((Grammar.displaySecondary secondary).toList ++ ')' :: q.display.toList)))).length =
        i + 1 + (openingChars capture).length + (Target.displayInGroup target).toList.length +
          (Grammar.displaySecondary secondary).toList.length + 1 + q.display.toList.length := by
    simp only [List.length_cons, List.length_append]
    omega
  rw [hstop]
  exact ⟨nodes, _, .entry (.intro hpieces q.restated_reread hrestated), hitem⟩

/-- A name or a secondary body needs a group. -/
theorem prints_entry {capture : Option Capture} {target : Target} {secondary : Option Grammar}
    (h : Entry.IsPrintable vocabulary ⟨capture, target, q, secondary⟩)
    (hchecker : ∀ c, target = .checker c → CheckerPrints vocabulary c)
    (hgrammar : ∀ es, target = .checker (.grammar ⟨es⟩) → EntriesPrint vocabulary es)
    (hsecondary : ∀ g, secondary = some g → EntriesPrint vocabulary g.entries) :
    EntryPrints vocabulary ⟨capture, target, q, secondary⟩ := by
  have htarget := fills_of h.target hchecker hgrammar
  have hgroup := fun hdisplay => prints_group hdisplay h htarget hsecondary
  cases capture with
  | some capture =>
    refine hgroup ?_
    simp [Entry.display, openingChars]
  | none =>
    cases secondary with
    | some g =>
      refine hgroup ?_
      simp [Entry.display, openingChars]
    | none => exact prints_bare h hchecker

/-! ## Grammars that are printed -/

mutual

theorem printsChecker : ∀ {c : Checker},
    c.Throughout (Checker.IsPrintable vocabulary) (Entry.IsPrintable vocabulary) →
      CheckerPrints vocabulary c
  | .char (.single _), h => prints_single h
  | .char (.range _ _), h | .char (.members _), h | .char (.named _), h | .char (.union _), h
  | .char (.inter _), h | .char (.compl _), h => prints_set (by simp) h
  | .word word, _ => prints_word word
  | .oneOf _ _, h => prints_oneOf h.1 (printsCheckers h.2.1) (printsFallback h.2.2)
  | .any _, h => prints_any h
  | .not item, h => prints_not (printsChecker (c := item) h.2)
  | .fixed _, h => h.1.elim
  | .grammar ⟨_⟩, h => prints_grammar h.1 (printsEntries h.2)

theorem printsCheckers : ∀ {cs : List Checker},
    Checker.ThroughoutAll (Checker.IsPrintable vocabulary) (Entry.IsPrintable vocabulary) cs →
      ∀ c ∈ cs, CheckerPrints vocabulary c
  | [], _ => fun _ hc => nomatch hc
  | _ :: _, h => List.forall_mem_cons.mpr ⟨printsChecker h.1, printsCheckers h.2⟩

theorem printsFallback : ∀ {fallback : Option Checker},
    Checker.ThroughoutOption (Checker.IsPrintable vocabulary) (Entry.IsPrintable vocabulary)
      fallback → ∀ c, fallback = some c → CheckerPrints vocabulary c
  | none, _ => fun _ hc => nomatch hc
  | some c, h => fun _ hc => Option.some.inj hc ▸ printsChecker (c := c) h

/-- **Entries are printed** so that they are read to entries that say the same. -/
theorem printsEntries : ∀ {es : List Entry},
    Entry.ThroughoutAll (Checker.IsPrintable vocabulary) (Entry.IsPrintable vocabulary) es →
      EntriesPrint vocabulary es
  | [], _ => entriesPrint_nil
  | _ :: _, h => entriesPrint_cons (printsEntry h.1) (printsEntries h.2)

theorem printsEntry : ∀ {e : Entry},
    e.Throughout (Checker.IsPrintable vocabulary) (Entry.IsPrintable vocabulary) →
      EntryPrints vocabulary e
  | ⟨_, _, _, _⟩, h =>
    prints_entry h.1 (printsTarget h.2.1) (printsTargetGrammar h.2.1) (printsSecondary h.2.2)

theorem printsTarget : ∀ {t : Target},
    t.Throughout (Checker.IsPrintable vocabulary) (Entry.IsPrintable vocabulary) →
      ∀ c, t = .checker c → CheckerPrints vocabulary c
  | .checker c, h => fun _ hc => Target.checker.inj hc ▸ printsChecker (c := c) h
  | .ref _, _ | .type _, _ => fun _ hc => nomatch hc

theorem printsTargetGrammar : ∀ {t : Target},
    t.Throughout (Checker.IsPrintable vocabulary) (Entry.IsPrintable vocabulary) →
      ∀ es, t = .checker (.grammar ⟨es⟩) → EntriesPrint vocabulary es
  | .checker (.grammar ⟨es⟩), h => fun _ hes => by
    obtain ⟨rfl⟩ := hes
    exact printsEntries h.2
  | .checker (.char _), _ | .checker (.word _), _ | .checker (.oneOf _ _), _
  | .checker (.any _), _ | .checker (.not _), _ | .checker (.fixed _), _ | .ref _, _
  | .type _, _ => fun _ hes => nomatch hes

theorem printsSecondary : ∀ {g : Option Grammar},
    Grammar.ThroughoutOption (Checker.IsPrintable vocabulary) (Entry.IsPrintable vocabulary) g →
      ∀ g', g = some g' → EntriesPrint vocabulary g'.entries
  | none, _ => fun _ hg => nomatch hg
  | some ⟨_⟩, h => fun _ hg => Option.some.inj hg ▸ printsEntries h

end

end

end Pattern

open Pattern

/-- **A printed grammar is a pattern for it.** What it is compiled to says the same. -/
theorem Grammar.compile_display_restated {vocabulary : Vocabulary} {g : Grammar}
    (h : g.IsPrintable vocabulary) : ∃ g', Grammar.compile vocabulary g.display = .ok g' ∧
      g.Restated vocabulary.classes g' := by
  obtain ⟨es⟩ := g
  have hleft : (Text.ofString (Grammar.display ⟨es⟩)).LeftAt 0
      ((Entry.displayAll es).toList ++ []) := by
    rw [List.append_nil]
    exact .ofString _
  obtain ⟨-, k, items, blanks, pieces, hsequence, hpieces⟩ := printsEntries h _ 0 0 [] []
    ⟨.nil 0, by rintro _ ⟨⟩⟩ (by rintro _ ⟨⟩) .nil hleft
  have hsize : 0 + (Entry.displayAll es).toList.length =
      (Text.ofString (Grammar.display ⟨es⟩)).size := by
    rw [← Text.LeftAt.size hleft (Nat.zero_le _), List.append_nil]
  rw [hsize] at hsequence
  exact ⟨_, hsequence.compile, restated_entriesOf hpieces .nil⟩

end TextGrammar
