/-
Patterns are always matched. Every category of the pattern language comes to an
outcome at every offset. A category is tried again at the same offset only
inside others that stand above it; a group or a set is tried again inside itself
only past the bracket that opens it, so the induction is on the characters left.
As the entries of a body and of a sequence may all be left out, a body matches
everywhere, and the steps allowed to a pattern are enough for it.
-/
import Mathlib.Tactic.Ring
import TextGrammar.Pattern.Compile
import TextGrammar.Proofs.Deciding

namespace TextGrammar.Pattern

/-! ## Entries of patterns -/

/-- The searches for a pattern. -/
def searching (text : Text) : Setting := patternTypes.setting text

/-- The nodes there are in the tree of a pattern: an error in it is a fatal one, and a node stands
for what the checker of its type takes. -/
structure Allowed (text : Text) (name : String) (node : Node) : Prop where
  fatal : name ≠ "error"
  taken : ∀ type c, patternTypes.Offers ⟨name, node.param⟩ type c → ∃ need built,
    c.Takes (Option Failure) (searching text) need node.start
      (some ⟨node.stop, node.children, built⟩)

/-- The entry is matched by the checker, and its nodes are such as there may be. -/
structure IsPart (use : Option TypeUse) (c : Checker) (entry : Entry) : Prop where
  matched : entry.MatchedBy patternTypes use c
  deep : entry.isFlat = false
  fatal : ∀ u ∈ use, u.type.name ≠ "error"

end Pattern

/-! ## Outcomes in patterns -/

/-- The checker comes to an outcome wherever it is tried in a pattern. -/
abbrev Checker.DecidesIn (text : Text) (rank first : Nat) (c : Checker) : Prop :=
  c.Decides (Option Failure) (Pattern.searching text) (Pattern.Allowed text) rank first

/-- The checker is a grammar that does. -/
abbrev Checker.WalksIn (text : Text) (rank steps first : Nat) (sure : Prop) (c : Checker) : Prop :=
  c.Walks (Option Failure) (Pattern.searching text) (Pattern.Allowed text) rank steps first sure

/-- The repeats of the entry do. -/
abbrev Entry.RepeatsDecideIn (text : Text) (rank steps first : Nat) (sure : Prop) (entry : Entry) :
    Prop :=
  entry.RepeatsDecide (Option Failure) (Pattern.searching text) (Pattern.Allowed text) rank steps
    first sure

/-- Entries do, one after the other. -/
abbrev Entry.AllDecideIn (text : Text) (rank steps first : Nat) (sure : Prop)
    (entries : List Entry) : Prop :=
  Entry.AllDecide (Option Failure) (Pattern.searching text) (Pattern.Allowed text) rank steps first
    sure entries

namespace Pattern

variable {text : Text} {rank steps first : Nat} {sure : Prop}

namespace IsPart

variable {use : Option TypeUse} {c : Checker} {entry : Entry}

theorem ofChecker (c : Checker) : IsPart none c (.ofChecker c) := ⟨.ofChecker c, rfl, nofun⟩

theorem named (h : IsPart use c entry) (name : String) : IsPart use c (entry.named name) :=
  ⟨h.matched.named name, rfl, h.fatal⟩

theorem quantified (h : IsPart use c entry) {q : Quantifier} (hq : q.greediness = .possessive) :
    IsPart use c (entry.quantified q) := ⟨h.matched.quantified hq, h.deep, h.fatal⟩

/-- A type that is referred to gives its nodes what its checker takes. -/
theorem shapes (h : IsPart use c entry) :
    entry.Shapes (Option Failure) (searching text) (Allowed text) use c := by
  rintro u hu need offset f htakes node hnode
  refine ⟨h.fatal u hu, fun type' c' hoffers => ?_⟩
  have hgives := h.matched.gives
  generalize entry.target = target at hgives
  cases hgives with
  | checker => cases hu
  | @ref r type _ hr =>
    obtain rfl := Option.some.inj hu
    simp only [Entry.nodesOf, h.deep, Bool.false_eq_true, if_false, List.mem_singleton] at hnode
    subst hnode
    have hoffers : patternTypes.Offers r type' c' := by
      have heq : (⟨type.name, r.param⟩ : TypeRef) = r := by rw [hr.named]
      exact heq ▸ hoffers
    exact hr.unique hoffers ▸ ⟨need, f.built, htakes⟩

end IsPart

theorem category_part {name : String} {c : Checker}
    (h : category? name = some (Builtin.constant name c)) (hname : name ≠ "error") :
    IsPart (some ⟨Builtin.constant name c, none⟩) c (category name) := by
  refine ⟨.ref ⟨h, rfl, fun _ => rfl, fun _ _ => rfl⟩, rfl, ?_⟩
  rintro u ⟨⟩
  exact hname

/-- The bound for steps, in the form they are counted in. -/
theorem lt_span (h : steps ≤ 2 * (searching text).text.size ^ 3 +
      60 * (searching text).text.size ^ 2 + 600 * (searching text).text.size + 1999) :
    steps < (searching text).span := by
  have hspan : (searching text).span = 2 * (searching text).text.size ^ 3 +
      60 * (searching text).text.size ^ 2 + 600 * (searching text).text.size + 2000 := by
    simp only [Setting.span]
    ring
  omega

section

variable {entry : Entry} {entries : List Entry} {use : Option TypeUse} {c : Checker}

theorem char_once {set : CharSet} (hentry : IsPart none (.char set) entry)
    (hupper : entry.quantifier.upper = some 1) :
    entry.RepeatsDecideIn text rank 2 first (False ∨ entry.quantifier.lower = 0) :=
  .once (.at_once hentry.matched hentry.shapes nofun nofun .char) hupper

theorem char_many {set : CharSet} (hentry : IsPart none (.char set) entry) :
    entry.RepeatsDecideIn text rank (((searching text).text.size + 1) * 1 + 1) first
      (False ∨ entry.quantifier.lower = 0) :=
  .many (.at_once hentry.matched hentry.shapes nofun nofun .char)

theorem literal_once (s : String) :
    (literal s).RepeatsDecideIn text rank 2 first (False ∨ 1 = 0) := by
  refine .once (.at_once (.ofChecker _) (IsPart.ofChecker _).shapes ?_ ?_ (.literal _)) rfl <;>
    cases s.toList <;> exact nofun

/-- An entry that chooses between checkers. -/
theorem choice_once {cs : List Checker} {fallback : Option Checker}
    (hentry : IsPart use (.oneOf cs fallback) entry)
    (hupper : entry.quantifier.upper = some 1)
    (h : (Checker.oneOf cs fallback).DecidesIn text rank first) :
    entry.RepeatsDecideIn text rank 2 first (False ∨ entry.quantifier.lower = 0) :=
  .once (.at_once hentry.matched hentry.shapes nofun nofun h) hupper

theorem choice_many {cs : List Checker} {fallback : Option Checker}
    (hentry : IsPart use (.oneOf cs fallback) entry)
    (h : (Checker.oneOf cs fallback).DecidesIn text rank first) :
    entry.RepeatsDecideIn text rank (((searching text).text.size + 1) * 1 + 1) first
      (False ∨ entry.quantifier.lower = 0) :=
  .many (.at_once hentry.matched hentry.shapes nofun nofun h)

/-- An entry that is a grammar of its own. -/
theorem walked_once (hentry : IsPart use c entry)
    (hupper : entry.quantifier.upper = some 1)
    (h : c.WalksIn text rank steps first sure) (hsteps : steps < (searching text).span) :
    entry.RepeatsDecideIn text (rank + 1) (steps + 3) first
      (sure ∨ entry.quantifier.lower = 0) :=
  .once (h.within hsteps hentry.matched hentry.shapes) hupper

theorem walked_many (hentry : IsPart use c entry)
    (h : c.WalksIn text rank steps first sure) (hsteps : steps < (searching text).span) :
    entry.RepeatsDecideIn text (rank + 1)
      (((searching text).text.size + 1) * (steps + 2) + 1) first
        (sure ∨ entry.quantifier.lower = 0) :=
  .many (h.within hsteps hentry.matched hentry.shapes)

/-- Where nothing of a construct matches, the error takes the rest of the pattern. -/
theorem orFatal_decides {message : String}
    (h : ∀ c' ∈ c.choiceParts, c'.DecidesIn text (rank + 1) first) :
    (orFatal c message).DecidesIn text (rank + 1) first := by
  have hfatal : IsPart (some ⟨Builtin.fatalError, some message⟩) .rest
      (.ref "fatalError" (some message)) := by
    refine ⟨.ref ⟨rfl, rfl, fun _ => rfl, fun _ _ => rfl⟩, rfl, ?_⟩
    rintro u ⟨⟩
    exact (by decide : "fatalError" ≠ "error")
  have hrest : Entry.AllDecideIn text rank _ first _
      [Entry.ref "fatalError" (some message)] :=
    .cons (.once (.at_once hfatal.matched hfatal.shapes nofun nofun .any) rfl) .nil
  refine .oneOf (fun c' hc' => h c' (by simpa using hc')) fun c' hc' => ?_
  obtain rfl := Option.some.inj hc'
  exact (Checker.Walks.sequence hrest).decides (lt_span (by omega))

/-- The same for a construct that is a sequence. -/
theorem orFatal_sequence_decides {message : String}
    (h : Entry.AllDecideIn text rank steps first sure entries)
    (hsteps : steps < (searching text).span) :
    (orFatal (.sequence entries) message).DecidesIn text (rank + 1) first :=
  orFatal_decides (List.forall_mem_singleton.mpr ((Checker.Walks.sequence h).decides hsteps))

end

/-! ## Categories without others inside -/

theorem ignored_decides : ignored.DecidesIn text 2 first := by
  have hclosed (close : String) : Entry.AllDecideIn text 0 _ first _
      [many (.ofChecker (.not (.literal close.toList))), literal close] :=
    .cons (.many (.at_once ((Entry.MatchedBy.ofChecker _).quantified rfl)
      ((IsPart.ofChecker _).quantified rfl).shapes nofun nofun (.not_literal _))) <|
    .cons (literal_once close) .nil
  have hcomment (opening close : String) : Checker.DecidesIn text 2 first
      (.sequence [literal opening, commentUntil close]) := by
    have hentries : Entry.AllDecideIn text 1 _ first _
        [literal opening, commentUntil close] :=
      .cons (literal_once opening) <|
      .cons (choice_once (.ofChecker _) rfl
        (orFatal_sequence_decides (hclosed close) (lt_span (by omega)))) .nil
    exact (Checker.Walks.sequence hentries).decides (lt_span (by omega))
  have hline : Entry.AllDecideIn text 1 _ first _
      [literal "//", many (.ofChecker (noneOf "\n"))] :=
    .cons (literal_once "//") <|
    .cons (char_many ((IsPart.ofChecker _).quantified rfl)) .nil
  exact .oneOf (List.forall_mem_cons.mpr ⟨.char, List.forall_mem_cons.mpr ⟨hcomment "/*" "*/",
    List.forall_mem_cons.mpr ⟨hcomment "(*" "*)", List.forall_mem_singleton.mpr
      ((Checker.Walks.sequence hline).decides (lt_span (by omega)))⟩⟩⟩) nofun

/-- The forms of an escape hold nothing but characters. -/
theorem escape_walks : escape.WalksIn text 1 4 first False := by
  have hcode (c : Char) {q : Quantifier} (hq : q.greediness = .possessive) (set : CharSet) :
      Checker.DecidesIn text 1 first
        (.sequence [char c, (Entry.ofChecker (.char set)).quantified q]) := by
    have hentries : Entry.AllDecideIn text 0 _ first _
        [char c, (Entry.ofChecker (.char set)).quantified q] :=
      .cons (char_once (.ofChecker _) rfl) <|
      .cons (char_many ((IsPart.ofChecker _).quantified hq)) .nil
    exact (Checker.Walks.sequence hentries).decides (lt_span (by omega))
  have hclass : Entry.AllDecideIn text 0 _ first _ [
      .ofChecker (.char (.ofString "pP")), char '\x7b', many (.ofChecker (noneOf "\x7d")),
      char '\x7d'] :=
    .cons (char_once (.ofChecker _) rfl) <| .cons (char_once (.ofChecker _) rfl) <|
    .cons (char_many ((IsPart.ofChecker _).quantified rfl)) <|
    .cons (char_once (.ofChecker _) rfl) .nil
  refine Checker.Walks.mono (.sequence (.cons (char_once (.ofChecker _) rfl) <|
    .cons (choice_once (.ofChecker _) rfl (orFatal_decides ?_)) .nil)) (Nat.le_refl _)
      (Nat.le_refl _) nofun
  exact List.forall_mem_cons.mpr ⟨hcode 'x' rfl _, List.forall_mem_cons.mpr ⟨hcode 'u' rfl _,
    List.forall_mem_cons.mpr ⟨hcode '0' rfl _, List.forall_mem_cons.mpr
      ⟨(Checker.Walks.sequence hclass).decides (lt_span (by omega)),
        List.forall_mem_singleton.mpr .any⟩⟩⟩⟩

theorem quantifier_walks : quantifier.WalksIn text 3 4 first False := by
  have hdigits (rank : Nat) :
      (many (.ofChecker (.char (.between '0' '9')))).RepeatsDecideIn text rank _ first _ :=
    char_many ((IsPart.ofChecker _).quantified rfl)
  have hupper : Entry.AllDecideIn text 0 _ first _
      [char ',', many (.ofChecker (.char (.between '0' '9')))] :=
    .cons (char_once (.ofChecker _) rfl) <| .cons (hdigits 0) .nil
  have hbounds : Entry.AllDecideIn text 1 _ first _ [
      many (.ofChecker (.char (.between '0' '9'))),
      optional (group [char ',', many (.ofChecker (.char (.between '0' '9')))]), char '\x7d'] :=
    .cons (hdigits 1) <|
    .cons (walked_once ((IsPart.ofChecker _).quantified rfl) rfl (.sequence hupper)
      (lt_span (by omega))) <|
    .cons (char_once (.ofChecker _) rfl) .nil
  have hbraces : Entry.AllDecideIn text 2 _ first _
      [char '\x7b', .ofChecker (orFatal (.sequence [
        many (.ofChecker (.char (.between '0' '9'))),
        optional (group [char ',', many (.ofChecker (.char (.between '0' '9')))]), char '\x7d'])
          "Malformed quantifier")] :=
    .cons (char_once (.ofChecker _) rfl) <|
    .cons (choice_once (.ofChecker _) rfl
      (orFatal_sequence_decides hbounds (lt_span (by omega)))) .nil
  refine Checker.Walks.mono (.sequence (.cons (choice_once (.ofChecker _) rfl (.oneOf ?_ nofun)) <|
    .cons (char_once (((IsPart.ofChecker _).named _).quantified rfl) rfl) .nil))
      (Nat.le_refl _) (Nat.le_refl _) nofun
  exact List.forall_mem_cons.mpr ⟨.char, List.forall_mem_cons.mpr ⟨.char,
    List.forall_mem_cons.mpr ⟨.char, List.forall_mem_cons.mpr ⟨.char, List.forall_mem_singleton.mpr
      ((Checker.Walks.sequence hbraces).decides (lt_span (by omega)))⟩⟩⟩⟩

theorem nameAs_once (node : String) : (nameAs node).RepeatsDecideIn text (rank + 1)
    (((searching text).text.size + 1) * 1 + 6) first (False ∨ 1 = 0) := by
  have hname : Entry.AllDecideIn text rank _ first _ [
      .ofChecker (.char (CharSet.unionOf [.between 'a' 'z', .between 'A' 'Z', .single '_'])),
      many (.ofChecker (.char (CharSet.unionOf
        [CharSet.unionOf [.between 'a' 'z', .between 'A' 'Z', .single '_'], .between '0' '9'])))] :=
    .cons (char_once (.ofChecker _) rfl) <|
    .cons (char_many ((IsPart.ofChecker _).quantified rfl)) .nil
  have hwalks : Checker.WalksIn text rank (((searching text).text.size + 1) * 1 + 3)
      first False (.sequence _) :=
    (Checker.Walks.sequence hname).mono (Nat.le_refl _) (by omega) False.elim
  exact walked_once ((IsPart.ofChecker _).named _) rfl hwalks (lt_span (by omega))

theorem typeRef_walks : typeRef.WalksIn text 3 4 first False := by
  have hparam : Entry.AllDecideIn text 0 _ first _ [many (.ofChecker (noneOf ")"))] :=
    .cons (char_many ((IsPart.ofChecker _).quantified rfl)) .nil
  have hparens : Entry.AllDecideIn text 1 _ first _
      [char '(', (group [many (.ofChecker (noneOf ")"))]).named "param", char ')'] :=
    .cons (char_once (.ofChecker _) rfl) <|
    .cons (walked_once ((IsPart.ofChecker _).named _) rfl (.sequence hparam)
      (lt_span (by omega))) <|
    .cons (char_once (.ofChecker _) rfl) .nil
  have hinner : Entry.AllDecideIn text 2 _ first _ [
      optional ((char '$').named "capture"), nameAs "name",
      optional (group [char '(', (group [many (.ofChecker (noneOf ")"))]).named "param", char ')']),
      char '!'] :=
    .cons (char_once (((IsPart.ofChecker _).named _).quantified rfl) rfl) <|
    .cons (nameAs_once "name") <|
    .cons (walked_once ((IsPart.ofChecker _).quantified rfl) rfl (.sequence hparens)
      (lt_span (by omega))) <|
    .cons (char_once (.ofChecker _) rfl) .nil
  exact Checker.Walks.mono (.sequence (.cons (char_once (.ofChecker _) rfl) <|
    .cons (choice_once (.ofChecker _) rfl
      (orFatal_sequence_decides hinner (lt_span (by omega)))) .nil)) (Nat.le_refl _)
        (Nat.le_refl _) nofun

theorem backRef_walks : backRef.WalksIn text 2 4 first False := by
  have hinner : Entry.AllDecideIn text 1 _ first _
      [nameAs "name", optional ((char '\'').named "ci"), char ';'] :=
    .cons (nameAs_once "name") <|
    .cons (char_once (((IsPart.ofChecker _).named _).quantified rfl) rfl) <|
    .cons (char_once (.ofChecker _) rfl) .nil
  exact Checker.Walks.mono (.sequence (.cons (char_once (.ofChecker _) rfl) <|
    .cons (choice_once (.ofChecker _) rfl
      (orFatal_sequence_decides hinner (lt_span (by omega)))) .nil)) (Nat.le_refl _)
        (Nat.le_refl _) nofun

/-! ## Characters with escapes -/

theorem escape_decides : Checker.DecidesIn text 3 first
    (.sequence [category "escape"]) := by
  have hescape : Entry.AllDecideIn text 2 _ first _ [category "escape"] :=
    .cons (walked_once (category_part rfl (by decide)) rfl escape_walks (lt_span (by omega))) .nil
  exact (Checker.Walks.sequence hescape).decides (lt_span (by omega))

theorem quoted_decides : quoted.DecidesIn text 5 first := by
  have hquoted (quote : Char) : (quotedBy quote).DecidesIn text 5 first := by
    have hcontent : (Checker.alternative [.sequence [category "escape"],
        noneOf (String.ofList [quote, '\\'])]).DecidesIn text 3 first :=
      .oneOf (List.forall_mem_cons.mpr ⟨escape_decides, List.forall_mem_singleton.mpr .char⟩) nofun
    have hinner : Entry.AllDecideIn text 3 _ first _
        [many (.ofChecker (Checker.alternative [.sequence [category "escape"],
          noneOf (String.ofList [quote, '\\'])])), char quote] :=
      .cons (choice_many ((IsPart.ofChecker _).quantified rfl) hcontent) <|
      .cons (char_once (.ofChecker _) rfl) .nil
    exact Checker.Walks.decides (.sequence (.cons (char_once (.ofChecker _) rfl) <|
      .cons (choice_once (.ofChecker _) rfl
        (orFatal_sequence_decides hinner (lt_span (by omega)))) .nil)) (lt_span (by omega))
  exact .oneOf (List.forall_mem_cons.mpr ⟨hquoted '"', List.forall_mem_cons.mpr ⟨hquoted '\'',
    List.forall_mem_singleton.mpr (hquoted '\x60')⟩⟩) nofun

theorem setChar_decides : setChar.DecidesIn text 3 first :=
  .oneOf (List.forall_mem_cons.mpr ⟨escape_decides, List.forall_mem_singleton.mpr .char⟩) nofun

/-! ## Sets -/

/-- A set is tried inside a set only past its bracket. -/
theorem charSet_walks_of (hinside : charSet.WalksIn text (rank + 2) 6 (first + 1) False) :
    charSet.WalksIn text (rank + 8) 6 first False := by
  have hsetChar (rank : Nat) : setChar.DecidesIn text (rank + 3) (first + 1) :=
    setChar_decides.mono (Nat.le_add_left 3 rank) (Nat.le_refl _)
  have hnested : Entry.AllDecideIn text (rank + 3) _ (first + 1) _ [category "charSet"] :=
    .cons (walked_once (category_part rfl (by decide)) rfl hinside (lt_span (by omega))) .nil
  have hrange : Entry.AllDecideIn text (rank + 3) _ (first + 1) _
      [(category "setChar").named "from", char '-', (category "setChar").named "to"] :=
    .cons (choice_once ((category_part rfl (by decide)).named _) rfl (hsetChar rank)) <|
    .cons (char_once (.ofChecker _) rfl) <|
    .cons (choice_once ((category_part rfl (by decide)).named _) rfl (hsetChar rank)) .nil
  have hchar : Entry.AllDecideIn text (rank + 3) _ (first + 1) _ [category "setChar"] :=
    .cons (choice_once (category_part rfl (by decide)) rfl (hsetChar rank)) .nil
  have hitem : setItem.DecidesIn text (rank + 4) (first + 1) :=
    .oneOf (List.forall_mem_cons.mpr
      ⟨(Checker.Walks.sequence hnested).decides (lt_span (by omega)), List.forall_mem_cons.mpr
      ⟨(Checker.Walks.sequence hrange).decides (lt_span (by omega)), List.forall_mem_singleton.mpr
      ((Checker.Walks.sequence hchar).decides (lt_span (by omega)))⟩⟩) nofun
  have hitems (rank' : Nat) (hrank : rank + 4 ≤ rank') :
      Entry.AllDecideIn text rank' _ (first + 1) _ [many (category "setItem")] :=
    .cons (choice_many ((category_part rfl (by decide)).quantified rfl)
      (hitem.mono hrank (Nat.le_refl _))) .nil
  have hpart (rank' : Nat) (hrank : rank + 4 ≤ rank') :
      ((group [many (category "setItem")]).named "part").RepeatsDecideIn text
        (rank' + 1) _ (first + 1) _ :=
    walked_once ((IsPart.ofChecker _).named _) rfl (.sequence (hitems rank' hrank))
      (lt_span (by omega))
  have hmore : Entry.AllDecideIn text (rank + 5) _ (first + 1) _
      [literal "&&", (group [many (category "setItem")]).named "part"] :=
    .cons (literal_once "&&") <| .cons (hpart (rank + 4) (Nat.le_refl _)) .nil
  have hparts : Entry.AllDecideIn text (rank + 6) _ (first + 1) _ [
      (group [many (category "setItem")]).named "part",
      many (group [literal "&&", (group [many (category "setItem")]).named "part"])] :=
    .cons (hpart (rank + 5) (by omega)) <|
    .cons (walked_many ((IsPart.ofChecker _).quantified rfl) (.sequence hmore)
      (lt_span (by omega))) .nil
  have hinner : Entry.AllDecideIn text (rank + 7) _ (first + 1) _
      [category "setItems", char ']'] :=
    .cons (walked_once (category_part rfl (by decide)) rfl (.sequence hparts)
      (lt_span (by ring_nf; omega))) <|
    .cons (char_once (.ofChecker _) rfl) .nil
  refine Checker.Walks.mono (.sequence (.after_char
    (.cons (char_once (((IsPart.ofChecker _).named _).quantified rfl) rfl) <|
      .cons (choice_once (.ofChecker _) rfl
        (orFatal_sequence_decides hinner (lt_span (by ring_nf; omega)))) .nil))) (Nat.le_refl _)
          (Nat.le_refl _) nofun

theorem charSet_walks (left : Nat) : ∀ first, (searching text).text.size < first + left →
    charSet.WalksIn text (6 * left + 2) 6 first False := by
  induction left with
  | zero => exact fun first hfirst => .past_end hfirst
  | succ left ih => exact fun first hfirst => charSet_walks_of (ih (first + 1) (by omega))

/-! ## Bodies and groups -/

/-- Sequences and bodies match everywhere. -/
theorem sequence_walks (hitem : item.WalksIn text (rank + 1) 9 first False) :
    sequence.WalksIn text (rank + 3) (((searching text).text.size + 1) *
      ((searching text).text.size + 16) + (searching text).text.size + 3) first True := by
  have hignored (rank : Nat) : (many (category "ignored")).RepeatsDecideIn text
      (rank + 2) _ first _ :=
    choice_many ((category_part rfl (by decide)).quantified rfl)
      (ignored_decides.mono (Nat.le_add_left 2 rank) (Nat.le_refl _))
  have hgroup : Entry.AllDecideIn text (rank + 2) _ first _
      [many (category "ignored"), category "item"] :=
    .cons (hignored rank) <|
    .cons (walked_once (category_part rfl (by decide)) rfl hitem (lt_span (by omega))) .nil
  have hentries : Entry.AllDecideIn text (rank + 3) _ first _
      [many (group [many (category "ignored"), category "item"]), many (category "ignored")] :=
    .cons (walked_many ((IsPart.ofChecker _).quantified rfl) (.sequence hgroup)
      (lt_span (by omega))) <|
    .cons (hignored (rank + 1)) .nil
  refine (Checker.Walks.sequence hentries).mono (Nat.le_refl _) (by ring_nf; omega) fun _ => ?_
  exact ⟨.inr rfl, .inr rfl, trivial⟩

/-- More steps than a body takes. -/
def bodySteps (text : Text) : Nat :=
  text.size ^ 3 + 30 * text.size ^ 2 + 200 * text.size + 200

theorem body_walks (hitem : item.WalksIn text (rank + 1) 9 first False) :
    body.WalksIn text (rank + 5) (bodySteps text) first True := by
  have hsequence (rank' : Nat) (hrank : rank + 3 ≤ rank') :
      (category "sequence").RepeatsDecideIn text (rank' + 1) _ first _ :=
    walked_once (category_part rfl (by decide)) rfl
      ((sequence_walks hitem).mono hrank (Nat.le_refl _) id) (lt_span (by ring_nf; omega))
  have hmore : Entry.AllDecideIn text (rank + 4) _ first _
      [(Entry.ofChecker (.alternative [.literal ['|', '|'], .single '|'])).named "sep",
        category "sequence"] :=
    .cons (choice_once ((IsPart.ofChecker _).named _) rfl (.oneOf
      (List.forall_mem_cons.mpr ⟨.literal _, List.forall_mem_singleton.mpr .char⟩) nofun)) <|
    .cons (hsequence (rank + 3) (Nat.le_refl _)) .nil
  have hentries : Entry.AllDecideIn text (rank + 5) _ first _ [category "sequence",
      many (group [(Entry.ofChecker (.alternative [.literal ['|', '|'], .single '|'])).named "sep",
        category "sequence"])] :=
    .cons (hsequence (rank + 4) (by omega)) <|
    .cons (walked_many ((IsPart.ofChecker _).quantified rfl) (.sequence hmore)
      (lt_span (by ring_nf; omega))) .nil
  refine (Checker.Walks.sequence hentries).mono (Nat.le_refl _) ?_ fun _ => ?_
  · have hsize : (searching text).text.size = text.size := rfl
    rw [hsize, bodySteps]
    ring_nf
    omega
  · exact ⟨.inl trivial, .inr rfl, trivial⟩

theorem bodySteps_lt : bodySteps text < (searching text).span := by
  have hsize : (searching text).text.size = text.size := rfl
  refine lt_span ?_
  rw [hsize, bodySteps]
  omega

/-- What follows the bracket of a group is tried past that bracket. -/
theorem group_walks (hitem : item.WalksIn text (rank + 1) 9 (first + 1) False) :
    groupCategory.WalksIn text (rank + 8) 4 first False := by
  have hsize : (searching text).text.size = text.size := rfl
  have hbody (rank' : Nat) (hrank : rank + 5 ≤ rank') :
      body.WalksIn text rank' (bodySteps text) (first + 1) True :=
    (body_walks hitem).mono hrank (Nat.le_refl _) id
  have hignored (rank' : Nat) (hrank : 2 ≤ rank') :
      (many (category "ignored")).RepeatsDecideIn text rank' _ (first + 1) _ :=
    choice_many ((category_part rfl (by decide)).quantified rfl)
      (ignored_decides.mono hrank (Nat.le_refl _))
  have hcapture : Entry.AllDecideIn text (rank + 6) _ (first + 1) _
      [(Entry.ofChecker (.char (.ofString "#$"))).named "kind", nameAs "name", char ':'] :=
    .cons (char_once ((IsPart.ofChecker _).named _) rfl) <|
    .cons (nameAs_once "name") <| .cons (char_once (.ofChecker _) rfl) .nil
  have hsecond : Entry.AllDecideIn text (rank + 6) _ (first + 1) _
      [many (category "ignored"), char '~', (category "body").named "second"] :=
    .cons (hignored _ (Nat.le_add_left 2 _)) <| .cons (char_once (.ofChecker _) rfl) <|
    .cons (walked_once ((category_part rfl (by decide)).named _) rfl (hbody _ (Nat.le_refl _))
      bodySteps_lt) .nil
  have hinner : Entry.AllDecideIn text (rank + 7) _ (first + 1) _ [
      optional (group [(Entry.ofChecker (.char (.ofString "#$"))).named "kind", nameAs "name",
        char ':']),
      many (category "ignored"), optional ((char '^').named "not"), category "body",
      optional (group [many (category "ignored"), char '~', (category "body").named "second"]),
      char ')'] :=
    .cons (walked_once ((IsPart.ofChecker _).quantified rfl) rfl (.sequence hcapture)
      (lt_span (by omega))) <|
    .cons (hignored _ (Nat.le_add_left 2 _)) <|
    .cons (char_once (((IsPart.ofChecker _).named _).quantified rfl) rfl) <|
    .cons (walked_once (category_part rfl (by decide)) rfl (hbody (rank + 6) (Nat.le_succ _))
      bodySteps_lt) <|
    .cons (walked_once ((IsPart.ofChecker _).quantified rfl) rfl (.sequence hsecond)
      (lt_span (by rw [hsize, bodySteps]; omega))) <|
    .cons (char_once (.ofChecker _) rfl) .nil
  refine Checker.Walks.mono (.sequence (.after_char (.cons (choice_once (.ofChecker _) rfl
    (orFatal_sequence_decides hinner (lt_span ?_))) .nil))) (Nat.le_refl _) (Nat.le_refl _) nofun
  rw [hsize, bodySteps]
  omega

/-- A group is tried inside a group only past its bracket. -/
theorem item_walks_of (hset : charSet.WalksIn text (rank + 8) 6 first False)
    (hitem : item.WalksIn text (rank + 1) 9 (first + 1) False) :
    item.WalksIn text (rank + 10) 9 first False := by
  have hgroup : Entry.AllDecideIn text (rank + 9) _ first _ [category "group"] :=
    .cons (walked_once (category_part rfl (by decide)) rfl (group_walks hitem)
      (lt_span (by omega))) .nil
  have hcharSet : Entry.AllDecideIn text (rank + 9) _ first _ [category "charSet"] :=
    .cons (walked_once (category_part rfl (by decide)) rfl hset (lt_span (by omega))) .nil
  have hquoted : Entry.AllDecideIn text (rank + 9) _ first _ [category "quoted"] :=
    .cons (choice_once (category_part rfl (by decide)) rfl
      (quoted_decides.mono (by omega) (Nat.le_refl _))) .nil
  have htypeRef : Entry.AllDecideIn text (rank + 9) _ first _ [category "typeRef"] :=
    .cons (walked_once (category_part rfl (by decide)) rfl
      (typeRef_walks.mono (by omega) (Nat.le_refl _) id) (lt_span (by omega))) .nil
  have hbackRef : Entry.AllDecideIn text (rank + 9) _ first _ [category "backRef"] :=
    .cons (walked_once (category_part rfl (by decide)) rfl
      (backRef_walks.mono (by omega) (Nat.le_refl _) id) (lt_span (by omega))) .nil
  have hescape : Checker.DecidesIn text (rank + 10) first
      (.sequence [category "escape"]) := escape_decides.mono (by omega) (Nat.le_refl _)
  have hquantifier : (optional (category "quantifier")).RepeatsDecideIn text
      (rank + 10) _ first _ :=
    walked_once ((category_part rfl (by decide)).quantified rfl) rfl
      (quantifier_walks.mono (by omega) (Nat.le_refl _) id) (lt_span (by omega))
  refine Checker.Walks.mono (.sequence (.cons (choice_once (.ofChecker _) rfl (.oneOf ?_ nofun)) <|
    .cons hquantifier .nil)) (Nat.le_refl _) (Nat.le_refl _) nofun
  exact List.forall_mem_cons.mpr ⟨(Checker.Walks.sequence hgroup).decides (lt_span (by omega)),
    List.forall_mem_cons.mpr ⟨(Checker.Walks.sequence hcharSet).decides (lt_span (by omega)),
    List.forall_mem_cons.mpr ⟨(Checker.Walks.sequence hquoted).decides (lt_span (by omega)),
    List.forall_mem_cons.mpr ⟨(Checker.Walks.sequence htypeRef).decides (lt_span (by omega)),
    List.forall_mem_cons.mpr ⟨(Checker.Walks.sequence hbackRef).decides (lt_span (by omega)),
    List.forall_mem_cons.mpr ⟨hescape,
    List.forall_mem_cons.mpr ⟨.char, List.forall_mem_singleton.mpr .char⟩⟩⟩⟩⟩⟩⟩

theorem item_walks (left : Nat) : ∀ first, (searching text).text.size < first + left →
    item.WalksIn text (9 * left + 1) 9 first False := by
  induction left with
  | zero => exact fun first hfirst => .past_end hfirst
  | succ left ih =>
    intro first hfirst
    have hset : charSet.WalksIn text (9 * left + 8) 6 first False :=
      (charSet_walks (left + 1) first hfirst).mono (by omega) (Nat.le_refl _) id
    exact item_walks_of hset (ih (first + 1) (by omega))

/-! ## Patterns -/

theorem start_decides : Entry.AllDecideIn text (9 * text.size + 15)
    (bodySteps text + 3) 0 True start.entries := by
  have hsize : (searching text).text.size = text.size := rfl
  have hitem : item.WalksIn text (9 * (text.size + 1) + 1) 9 0 False :=
    item_walks (text.size + 1) 0 (by omega)
  have hstart : Entry.AllDecideIn text _ _ 0 _ [category "body"] :=
    .cons (walked_once (category_part rfl (by decide)) rfl (body_walks hitem) bodySteps_lt) .nil
  intro offset hoffset hsize
  obtain ⟨found, hread, hout⟩ := hstart offset hoffset hsize
  exact ⟨found, hread, hout.mono fun _ => ⟨.inl trivial, trivial⟩⟩

/-- The steps allowed to a pattern are enough for it. -/
theorem enough_steps (text : Text) :
    (9 * text.size + 15) * (searching text).span + (bodySteps text + 3) < fuelFor text.size := by
  have hbody : bodySteps text < (searching text).span := bodySteps_lt
  have hspan : (searching text).span = 2 * (text.size + 10) ^ 3 := rfl
  have hfuel : fuelFor text.size = (text.size + 10) ^ 2 * (text.size + 10) ^ 3 :=
    Nat.pow_add (text.size + 10) 2 3
  have hrank : 18 * text.size + 34 ≤ (text.size + 10) ^ 2 := by
    nlinarith [Nat.zero_le (text.size ^ 2)]
  have hlarge : (18 * text.size + 34) * (text.size + 10) ^ 3 ≤
      (text.size + 10) ^ 2 * (text.size + 10) ^ 3 := Nat.mul_le_mul_right _ hrank
  have hcube : 10 ^ 3 ≤ (text.size + 10) ^ 3 := Nat.pow_le_pow_left (Nat.le_add_left _ _) 3
  rw [hfuel]
  rw [hspan] at hbody ⊢
  nlinarith

/-- **Every pattern is matched**: in the steps allowed to it, and in more, by a tree that lies in the
pattern and has no nodes that report an error and go on. -/
theorem start_parse (text : Text) : ∃ stop nodes,
    (∀ fuel, fuelFor text.size ≤ fuel →
      start.parse fuel patternTypes text = .ok (.ofNodes text 0 stop nodes)) ∧
    stop ≤ text.size ∧ Node.AllBetween 0 stop nodes ∧
      AllNodes (Node.Sits (Allowed text) text.size) nodes := by
  have hdecides : Entry.AllDecideIn text _ _ 0 True _ := start_decides
  obtain ⟨found, hread, hout⟩ := hdecides 0 (Nat.le_refl 0) (Nat.zero_le _)
  obtain ⟨m, rfl⟩ := Option.isSome_iff_exists.mp (hout.matched trivial)
  refine ⟨m.stop, m.nodes, fun fuel hfuel => ?_, (hout.within m rfl).2,
    hout.between m rfl, hout.nodes m rfl⟩
  obtain ⟨failures, hrun⟩ := hread.run [] (Nat.lt_of_lt_of_le (enough_steps text) hfuel)
  have hsearch : searchWithin fuel (patternTypes.setting text) .beginning start 0 =
      .ok ⟨some m, failures⟩ := hrun
  simp only [Grammar.parse, Grammar.matchFrom, hsearch]

end TextGrammar.Pattern
