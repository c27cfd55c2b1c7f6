/-
Patterns put together from their parts. Where nothing begins there is no
item, no quantifier and no separator; a group stands around the items between
its parentheses, and the items and blanks of a whole text are a pattern.
-/
import TextGrammar.Proofs.PatternGroups
import TextGrammar.Proofs.PatternErrors
import Mathlib.Data.Bool.AllAny

namespace TextGrammar.Pattern

open Inlay (elementKey captureEntries secondEntries groupEntries separator separated signs quotes)

variable {vocabulary : Vocabulary} {text : Text} {i j k : Nat}

/-! ## Where nothing begins -/

theorem no_construct {name : String} {x : Char} {entries : List Entry}
    (hcategory : category? name = some (Builtin.constant name (.sequence (char x :: entries))))
    (h : text[i]? ≠ some x) : Chooses text (.sequence [category name]) i none :=
  .stuck (.stuck (.once rfl (.category hcategory (.stuck (not_char h)))))

theorem no_quoted (h : ∀ x, text[i]? = some x → x ∉ quotes) :
    Chooses text (.sequence [category "quoted"]) i none := by
  have hquote : ∀ x ∈ quotes, text[i]? ≠ some x := fun x hx hget => h x hget hx
  have hnone : Chooses text quoted i none := .one_of <|
    ((Among.nil.skip (.stuck (.stuck (not_char (hquote _ (by decide)))))).skip
      (.stuck (.stuck (not_char (hquote _ (by decide)))))).skip
      (.stuck (.stuck (not_char (hquote _ (by decide)))))
  exact .stuck (.stuck (.once rfl (.choice_category (by rfl) hnone)))

/-- What an item may be but a group, with characters that none of that begins with. -/
theorem no_other_element (h : ∀ x, text[i]? = some x → x ∈ ['(', ')', '|', '~']) :
    Among text elements.tail i none := by
  have hother (x : Char) (hx : x ∉ ['(', ')', '|', '~']) : text[i]? ≠ some x :=
    fun hget => hx (h x hget)
  have hset {set : CharSet} (hset : ∀ x ∈ ['(', ')', '|', '~'], set.contains .standard x = false) :
      Chooses text (.char set) i none := .not_char fun x hx => hset x (h x hx)
  have hsigns : ∀ x ∈ ['(', ')', '|', '~'], x ∉ quotes ∧
      (CharSet.single '.').contains .standard x = false ∧
      (CharSet.complement (.unionOf [.ofString specials, .named "whitespace"])).contains .standard
        x = false := List.all_iff_forall_prop.mp (by decide)
  have hquoted (x : Char) (hx : text[i]? = some x) : x ∉ quotes := (hsigns x (h x hx)).1
  exact ((((((Among.nil.skip (hset fun x hx => (hsigns x hx).2.2)).skip
    (hset fun x hx => (hsigns x hx).2.1)).skip
    (no_construct (by rfl) (hother '\\' (by decide)))).skip
    (no_construct (by rfl) (hother '$' (by decide)))).skip
    (no_construct (by rfl) (hother '!' (by decide)))).skip (no_quoted hquoted)).skip
    (no_construct (by rfl) (hother '[' (by decide)))

theorem item_category : category? "item" = some (Builtin.constant "item" (.sequence
    [.ofChecker (.oneOf elements none), optional (category "quantifier")])) := rfl

/-- There is no item before what ends a sequence, nor at the end. -/
theorem no_item (h : ∀ x, text[i]? = some x → x ∈ [')', '|', '~']) :
    Attempts text (category "item") i none := by
  have hgroup : Chooses text (.sequence [category "group"]) i none :=
    no_construct Inlay.group_category fun hget => absurd (h _ hget) (by decide)
  have hnone : Chooses text (.oneOf elements none) i none :=
    .one_of ((no_other_element fun x hx => .tail _ (h x hx)).only hgroup)
  exact .category item_category (.stuck (.once rfl (.at_once (.ofChecker _) rfl hnone)))

theorem no_quantifier (h : ∀ x, text[i]? = some x → x ∉ signs) :
    Repeats text (optional (category "quantifier")) 0 i (some ⟨i, []⟩) := by
  have hsign : ∀ x ∈ signs, text[i]? ≠ some x := fun x hx hget => h x hget hx
  have hsingle (x : Char) (hx : x ∈ signs) : Chooses text (.single x) i none :=
    .not_char fun y hy => beq_false_of_ne fun hxy => hsign x hx (hxy ▸ hy)
  have hbounds : Chooses text bounds i none :=
    .stuck (.stuck (not_char (hsign _ (by decide))))
  have hnone : Chooses text (.oneOf [.single '?', .single '*', .single '+', .single '^', bounds]
      none) i none := .one_of <|
    ((((Among.nil.skip hbounds).skip (hsingle '^' (by decide))).skip (hsingle '+' (by decide))).skip
      (hsingle '*' (by decide))).skip (hsingle '?' (by decide))
  have hentry : (optional (category "quantifier")).MatchedBy patternTypes
      (some ⟨Builtin.constant "quantifier" quantifier, none⟩) (.sequence [
        .ofChecker (.oneOf [.single '?', .single '*', .single '+', .single '^', bounds] none),
        optional ((Entry.ofChecker (.char (.ofString "+*"))).named "greed")]) :=
    (category_matched (by rfl)).quantified rfl
  exact .once rfl (.grammar hentry (.stuck (.once rfl (.at_once (.ofChecker _) rfl hnone))))

theorem separated_misses (h : text[i]? ≠ some '|') : Attempts text separated i none := by
  have hentry : separated.MatchedBy patternTypes none
      (.sequence [separator, category "sequence"]) := (Entry.MatchedBy.ofChecker _).quantified rfl
  have hword : text.hasAt i ['|', '|'] = false :=
    eq_false_of_ne_true fun hhas => h (Inlay.hasAt_two hhas).1
  have hnone : Chooses text (.oneOf [.literal ['|', '|'], .single '|'] none) i none := by
    refine .one_of ((Among.nil.skip (.not_char fun x hx => ?_)).skip ?_)
    · exact beq_false_of_ne fun hbar => h (hbar ▸ hx)
    · exact .not_word (w := ⟨'|', ['|']⟩) hword
  have hsep : Repeats text separator 0 i none :=
    .once rfl (.at_once ((Entry.MatchedBy.ofChecker _).named "sep") rfl hnone)
  exact .group hentry rfl (.stuck hsep)

theorem no_separated (h : text[i]? ≠ some '|') : Repeats text separated 0 i (some ⟨i, []⟩) :=
  .missed rfl (separated_misses h)

/-! ## Blanks and groups -/

/-- A character of white space is a blank. -/
theorem blank_step {c : Char} (h : text[i]? = some c)
    (hc : (CharSet.named "whitespace").contains .standard c = true) :
    Blanks text i [categoryNode "ignored" i (i + 1) []] (i + 1) := by
  have hentry : (many (category "ignored")).MatchedBy patternTypes
      (some ⟨Builtin.constant "ignored" ignored, none⟩) ignored :=
    (category_matched (by rfl)).quantified rfl
  have hword (a b : Char) (ha : (CharSet.named "whitespace").contains .standard a = false) :
      text.hasAt i [a, b] = false := by
    refine eq_false_of_ne_true fun hhas => ?_
    obtain rfl := Option.some.inj ((Inlay.hasAt_two hhas).1.symm.trans h)
    cases ha.symm.trans hc
  have hspace : Chooses text ignored i (some ⟨i + 1, [], false⟩) := .one_of <|
    (((Among.nil.skip (.stuck (.stuck (not_word (hword '/' '/' (by decide)))))).skip
      (.stuck (.stuck (not_word (hword '(' '*' (by decide)))))).skip
      (.stuck (.stuck (not_word (hword '/' '*' (by decide)))))).only (.char h hc)
  have hstep : Steps text (many (category "ignored")) i
      ⟨i + 1, [categoryNode "ignored" i (i + 1) []]⟩ :=
    .at_once hentry rfl hspace
  exact ⟨.single hstep (Nat.lt_succ_self i), List.forall_mem_singleton.mpr ⟨rfl, rfl⟩⟩

/-- A group as an item, with no quantifier after it. -/
theorem group_item {m : Match} (h : text[i]? = some '(')
    (hgroup : Steps text (category "group") i m) (hsign : ∀ x, text[m.stop]? = some x → x ∉ signs) :
    Steps text (category "item") i ⟨m.stop, [categoryNode "item" i m.stop m.nodes]⟩ := by
  have hopen : ∀ x, text[i]? = some x → x ∈ ['(', ')', '|', '~'] :=
    Text.only_at h List.mem_cons_self
  have hchoice : Chooses text (.oneOf elements none) i (some m.found) := by
    have hread : Reads text [category "group"] i (some m) := .last (.once rfl hgroup)
    exact .one_of ((no_other_element hopen).only (.sequence hread))
  have helement : Repeats text (.ofChecker (.oneOf elements none)) 0 i (some m) :=
    .once rfl (.at_once (.ofChecker _) rfl hchoice)
  have hread := Reads.cons helement (.last (no_quantifier hsign))
  rw [Option.map_some, Match.after, List.append_nil] at hread
  exact .category item_category hread

/-- The tree of a group without a name and a secondary body. -/
def groupNode (i j s : Nat) (lead nodes : List Node) : Node :=
  categoryNode "group" i (j + 1) ([.leaf i (i + 1)] ++ (lead ++
    ([categoryNode "body" s j [categoryNode "sequence" s j nodes]] ++ [.leaf j (j + 1)])))

/-- A body of one sequence, where no item and no separator is. -/
theorem body_reads {s : Nat} {items blanks : List Node} (hitems : Chain (SpacedItem text) s items k)
    (hblanks : Blanks text k blanks j) (hignored : Attempts text (many (category "ignored")) j none)
    (hitem : Attempts text (category "item") j none) (hbar : text[j]? ≠ some '|') :
    Repeats text (category "body") 0 s
      (some ⟨j, [categoryNode "body" s j [categoryNode "sequence" s j (items ++ blanks)]]⟩) := by
  have hsequence : Repeats text (category "sequence") 0 s
      (some ⟨j, [categoryNode "sequence" s j (items ++ blanks)]⟩) :=
    .once rfl (.category (by rfl) (sequence_reads hitems hblanks hignored hitem))
  have hread := Reads.cons hsequence (.last (no_separated hbar))
  rw [Option.map_some, Match.after, List.append_nil] at hread
  exact .once rfl (.category Inlay.body_category hread)

/-- No blank begins with a parenthesis that closes a group. -/
theorem bare_close (h : text[i]? = some ')') : Attempts text (many (category "ignored")) i none :=
  no_ignored (Text.only_at h (by decide)) fun hparen =>
    absurd (Option.some.inj (h.symm.trans hparen)) (by decide)

theorem not_capture (h : Reads text captureEntries i none) :
    Repeats text (optional (group captureEntries)) 0 i (some ⟨i, []⟩) :=
  .once rfl (.group ((Entry.MatchedBy.ofChecker _).quantified rfl) rfl h)

theorem not_caret (h : text[i]? ≠ some '^') :
    Repeats text (optional ((char '^').named "not")) 0 i (some ⟨i, []⟩) := by
  refine .once rfl (.not_char (((Entry.MatchedBy.ofChecker _).named _).quantified rfl) ?_)
  exact fun x hx => beq_false_of_ne fun hxy => h (hxy ▸ hx)

/-- A group from its parts: a name, blanks, the sign of a negation, a body and a secondary one. -/
theorem group_found {name lead caret body second : Match} (hopen : text[i]? = some '(')
    (hname : Repeats text (optional (group captureEntries)) 0 (i + 1) (some name))
    (hlead : Repeats text (many (category "ignored")) 0 name.stop (some lead))
    (hcaret : Repeats text (optional ((char '^').named "not")) 0 lead.stop (some caret))
    (hbody : Repeats text (category "body") 0 caret.stop (some body))
    (hsecond : Repeats text (optional (group secondEntries)) 0 body.stop (some second))
    (hclose : text[second.stop]? = some ')') :
    Steps text (category "group") i ⟨second.stop + 1, [categoryNode "group" i (second.stop + 1)
      ([.leaf i (i + 1)] ++ (name.nodes ++ (lead.nodes ++ (caret.nodes ++ (body.nodes ++
        (second.nodes ++ [.leaf second.stop (second.stop + 1)]))))))]⟩ := by
  have hcontent : Reads text groupEntries (i + 1) (some ⟨second.stop + 1, _⟩) :=
    .cons hname (.cons hlead (.cons hcaret (.cons hbody (.cons hsecond
      (.last (read_char hclose))))))
  have hchecker : Chooses text (orFatal (.sequence groupEntries) "Unclosed group") (i + 1) _ :=
    .among (.only .nil (.sequence hcontent))
  have hinside := Repeats.once rfl (Attempts.at_once (.ofChecker _) rfl hchecker)
  exact .category Inlay.group_category (.cons (read_char hopen) (.last hinside))

theorem group_steps {s : Nat} {lead items blanks : List Node} (hopen : text[i]? = some '(')
    (hcapture : Reads text captureEntries (i + 1) none) (hlead : Blanks text (i + 1) lead s)
    (hend : Attempts text (many (category "ignored")) s none) (hcaret : text[s]? ≠ some '^')
    (hitems : Chain (SpacedItem text) s items k) (hblanks : Blanks text k blanks j)
    (hclose : text[j]? = some ')') :
    Steps text (category "group") i ⟨j + 1, [groupNode i j s lead (items ++ blanks)]⟩ := by
  have hbar : text[j]? ≠ some '|' := Text.no_other_at hclose (by decide)
  have hbody := body_reads hitems hblanks (bare_close hclose)
    (no_item (Text.only_at hclose (by decide))) hbar
  exact group_found hopen (not_capture hcapture) (hlead.read hend) (not_caret hcaret) hbody
    (Inlay.no_second hclose) hclose

end TextGrammar.Pattern
