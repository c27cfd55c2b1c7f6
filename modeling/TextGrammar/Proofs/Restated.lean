/-
What becomes of a grammar that is printed and compiled again. It need not be the
same one: a set comes back as one with the same members, a word of one character
as that character, and entries that are matched at once may have been taken
together on the way. All else stays, and so do the names of what is captured.
-/
import TextGrammar.Proofs.Throughout

namespace TextGrammar

/-- The characters of a literal: a word, or one character. -/
def Checker.letters? : Checker → Option (List Char)
  | .word w => some w.chars
  | .char (.single c) => some [c]
  | _ => none

/-! ## Entries in the place of others -/

namespace Entry

/-- Literals without names, each of them matched once: what they spell together. -/
inductive Spells : List Entry → List Char → Prop
  | nil : Spells [] []
  | cons {c : Checker} {q : Quantifier} {run : List Entry} {cs later : List Char}
    (hletters : c.letters? = some cs) (hq : q.isOne = true) (hlater : Spells run later) :
    Spells (⟨none, .checker c, q, none⟩ :: run) (cs ++ later)

/-- Entries that one checker stands for: literals for which there is a word, and any characters,
all or a number of them, of which none is given back. -/
inductive Fuses : List Entry → Checker → Prop
  | literals {run : List Entry} {cs : List Char} (hne : run ≠ []) (h : Spells run cs) :
    Fuses run (.literal cs)
  | count (n : Nat) : Fuses [(ofChecker (.anyOf 1)).quantified (.exactly n)] (.anyOf n)
  | rest : Fuses [(ofChecker (.anyOf 1)).quantified .zeroOrMore] .rest

end Entry

/-! ## Grammars that say the same -/

/-- The same repeats. Where there is only one, greediness makes no difference. -/
def Quantifier.Restated (q q' : Quantifier) : Prop := q' = q ∨ (q.isOne = true ∧ q'.isOne = true)

section

variable (classes : CharClasses)

mutual

/-- The second checker says what the first one says. -/
inductive Checker.Restated : Checker → Checker → Prop
  | char {set set' : CharSet} (h : ∀ c, set'.contains classes c = set.contains classes c) :
    Checker.Restated (.char set) (.char set')
  | literal {c c' : Checker} {cs : List Char} (h : c.letters? = some cs)
    (h' : c'.letters? = some cs) : Checker.Restated c c'
  | any (width : Option Nat) : Checker.Restated (.any width) (.any width)
  | oneOf {cs cs' : List Checker} {fallback fallback' : Option Checker}
    (hchoices : Checker.AllRestated cs cs')
    (hfallback : Checker.OptionRestated fallback fallback') :
    Checker.Restated (.oneOf cs fallback) (.oneOf cs' fallback')
  | not {item item' : Checker} (h : Checker.Restated item item') :
    Checker.Restated (.not item) (.not item')
  | grammar {es es' : List Entry} (h : Entry.AllRestated es es') :
    Checker.Restated (.grammar ⟨es⟩) (.grammar ⟨es'⟩)
  | fused {es : List Entry} {c : Checker} (h : Entry.Fuses es c) :
    Checker.Restated (.grammar ⟨es⟩) c

inductive Checker.AllRestated : List Checker → List Checker → Prop
  | nil : Checker.AllRestated [] []
  | cons {c c' : Checker} {cs cs' : List Checker} (h : Checker.Restated c c')
    (hlater : Checker.AllRestated cs cs') : Checker.AllRestated (c :: cs) (c' :: cs')

inductive Checker.OptionRestated : Option Checker → Option Checker → Prop
  | none : Checker.OptionRestated none none
  | some {c c' : Checker} (h : Checker.Restated c c') :
    Checker.OptionRestated (some c) (some c')

/-- Entries one after the other, some of them taken together. -/
inductive Entry.AllRestated : List Entry → List Entry → Prop
  | nil : Entry.AllRestated [] []
  | cons {e e' : Entry} {es es' : List Entry} (h : Entry.Restated e e')
    (hlater : Entry.AllRestated es es') : Entry.AllRestated (e :: es) (e' :: es')
  | fused {run es es' : List Entry} {c : Checker} (h : Entry.Fuses run c)
    (hlater : Entry.AllRestated es es') :
    Entry.AllRestated (run ++ es) (.ofChecker c :: es')

inductive Entry.Restated : Entry → Entry → Prop
  | intro {capture : Option Capture} {target target' : Target} {q q' : Quantifier}
    {secondary secondary' : Option Grammar} (htarget : Target.Restated target target')
    (hq : q.Restated q') (hsecondary : Grammar.OptionRestated secondary secondary') :
    Entry.Restated ⟨capture, target, q, secondary⟩ ⟨capture, target', q', secondary'⟩

inductive Target.Restated : Target → Target → Prop
  | checker {c c' : Checker} (h : Checker.Restated c c') :
    Target.Restated (.checker c) (.checker c')
  | ref (r : TypeRef) : Target.Restated (.ref r) (.ref r)

inductive Grammar.OptionRestated : Option Grammar → Option Grammar → Prop
  | none : Grammar.OptionRestated none none
  | some {es es' : List Entry} (h : Entry.AllRestated es es') :
    Grammar.OptionRestated (some ⟨es⟩) (some ⟨es'⟩)

end

/-- The second grammar says what the first one says. -/
def Grammar.Restated (g g' : Grammar) : Prop := Entry.AllRestated classes g.entries g'.entries

end

end TextGrammar
