/-
Patterns of one item. Which element an item is shows in the first character;
the element and the quantifier after it are the whole pattern if they go up to
its end.
-/
import TextGrammar.Proofs.PatternTrees
import TextGrammar.Proofs.Texts

namespace TextGrammar.Pattern

open Inlay (Sound openings elementKey elementKey_of_get elementNodes signs quotes)

variable {vocabulary : Vocabulary} {text : Text} {i : Nat}

/-! ## Elements -/

/-- None of the choices takes anything. -/
theorem Among.missed {choices : List Checker}
    (h : ∀ (k : Nat) (c : Checker), choices[k]? = some c → Chooses text c i none) :
    Among text choices i none := by
  induction choices with
  | nil => exact .nil
  | cons c choices ih => exact (ih fun k => h (k + 1)).skip (h 0 c rfl)

/-- Only one of the choices takes anything. -/
theorem Among.sole {choices : List Checker} {k : Nat} {c : Checker} {found : Option Found}
    (hk : choices[k]? = some c) (h : Chooses text c i found)
    (hothers : ∀ k', k' ≠ k → ∀ c', choices[k']? = some c' → Chooses text c' i none) :
    Among text choices i found := by
  induction choices generalizing k with
  | nil => cases hk
  | cons first choices ih =>
    cases k with
    | zero =>
      obtain rfl : first = c := Option.some.inj hk
      exact (Among.missed fun k => hothers (k + 1) (Nat.succ_ne_zero k)).only h
    | succ k =>
      refine Among.skip (ih hk fun k' hne => hothers (k' + 1) fun heq => ?_) ?_
      · exact hne (Nat.succ.inj heq)
      · exact hothers 0 (Nat.succ_ne_zero k).symm first rfl

/-- An element does not begin with a character of another one. -/
theorem element_misses {k : Nat} {c : Checker} (hc : elements[k]? = some c)
    (hkey : elementKey text i ≠ k) : Chooses text c i none := by
  have hother {x : Char} (hx : openings.findIdx (·.contains x) = k) : text[i]? ≠ some x :=
    fun hget => hkey ((elementKey_of_get hget).trans hx)
  have hset {set : CharSet} (hset : ∀ x, set.contains .standard x = true →
      openings.findIdx (·.contains x) = k) : Chooses text (.char set) i none := by
    refine .not_char fun x hx => eq_false_of_ne_true fun hin => ?_
    exact hother (hset x hin) hx
  rcases k with _ | _ | _ | _ | _ | _ | _ | _ | k <;> cases hc
  · exact no_construct (by rfl) (hother (by decide))
  · exact no_construct (by rfl) (hother (by decide))
  · exact no_quoted fun x hx hquote => hother (Inlay.key_of_quote hquote).1 hx
  · exact no_construct (by rfl) (hother (by decide))
  · exact no_construct (by rfl) (hother (by decide))
  · exact no_construct (by rfl) (hother (by decide))
  · refine hset fun x hx => ?_
    obtain rfl : '.' = x := beq_iff_eq.mp hx
    decide
  · refine hset fun x hx => ?_
    have hopening : x ∉ openings.flatten := Inlay.not_mem_of_contains (by decide) hx
    refine List.findIdx_eq_length.mpr fun cs hcs => eq_false_of_ne_true fun hin => hopening ?_
    exact List.mem_flatten.mpr ⟨cs, hcs, List.contains_iff_mem.mp hin⟩

/-- The element that the first character tells. -/
theorem choose_element {k : Nat} {c : Checker} {f : Found} (hkey : elementKey text i = k)
    (hc : elements[k]? = some c) (h : Chooses text c i (some f)) :
    Chooses text (.oneOf elements none) i (some f) :=
  .one_of (.sole hc h fun _ hne _ hc' => element_misses hc' (hkey ▸ hne.symm))

/-! ## Items -/

/-- An element and its quantifier. -/
theorem item_step {f : Found} {last : Match} (h : Chooses text (.oneOf elements none) i (some f))
    (hquantifier : Repeats text (optional (category "quantifier")) 0 f.stop (some last)) :
    Steps text (category "item") i
      ⟨last.stop, [categoryNode "item" i last.stop (elementNodes i f ++ last.nodes)]⟩ := by
  have helement : Repeats text (.ofChecker (.oneOf elements none)) 0 i
      (some ⟨f.stop, elementNodes i f⟩) := .once rfl (.at_once (.ofChecker _) rfl h)
  exact .category item_category (.cons helement (.last hquantifier))

/-- A pattern that is one item. -/
theorem compile_item {pattern : String} {item : Match} {x : Char}
    (hx : (Text.ofString pattern)[0]? = some x)
    (hopen : x ∉ signs ∧ x ≠ '/' ∧ x ≠ '(' ∧
      (CharSet.named "whitespace").contains .standard x = false)
    (hitem : Steps (Text.ofString pattern) (category "item") 0 item)
    (hstop : item.stop = (Text.ofString pattern).size) (hsound : Sound item.nodes) :
    Grammar.compile vocabulary pattern =
      (readPieces vocabulary (Text.ofString pattern) item.nodes).map fun pieces =>
        ⟨entriesOf [] pieces⟩ := by
  obtain ⟨hsign, hslash, hparen, hspace⟩ := hopen
  have hignored : Attempts (Text.ofString pattern) (many (category "ignored")) 0 none :=
    no_ignored (Text.only_at hx ⟨hslash, hspace⟩) fun hget =>
      absurd hget (Text.no_other_at hx hparen)
  have hlt : 0 < item.stop := hstop ▸ (Array.getElem?_eq_some_iff.mp hx).1
  have hspaced : SpacedItem (Text.ofString pattern) 0 item :=
    ⟨0, [], item, ⟨.nil 0, by rintro _ ⟨⟩⟩, hignored, ⟨x, hx, hsign⟩, hitem, hlt, rfl⟩
  have hblanks : Blanks (Text.ofString pattern) item.stop [] (Text.ofString pattern).size :=
    ⟨hstop ▸ .nil _, by rintro _ ⟨⟩⟩
  have hcompile := compile_of_chain vocabulary (.single hspaced hlt) hblanks
    (by rwa [List.append_nil])
  rwa [List.append_nil] at hcompile

/-- A pattern that is one construct of a category, without a quantifier. -/
theorem compile_construct {pattern name : String} {x : Char} {stop : Nat} {children : List Node}
    (hx : (Text.ofString pattern)[0]? = some x)
    (hopen : x ∉ signs ∧ x ≠ '/' ∧ x ≠ '(' ∧
      (CharSet.named "whitespace").contains .standard x = false)
    (hcategory : elements[openings.findIdx (·.contains x)]? = some (.sequence [category name]))
    (hstep : Steps (Text.ofString pattern) (category name) 0
      ⟨stop, [categoryNode name 0 stop children]⟩)
    (hstop : stop = (Text.ofString pattern).size)
    (hsound : Sound [categoryNode name 0 stop children]) :
    Grammar.compile vocabulary pattern =
      (readPieces vocabulary (Text.ofString pattern) [categoryNode "item" 0 stop
        [categoryNode name 0 stop children]]).map fun pieces => ⟨entriesOf [] pieces⟩ := by
  have helement : Chooses (Text.ofString pattern) (.oneOf elements none) 0
      (some ⟨stop, [categoryNode name 0 stop children], true⟩) :=
    choose_element (elementKey_of_get hx) hcategory (.sequence (.last (.once rfl hstep)))
  have hend : (Text.ofString pattern)[stop]? = none :=
    Array.getElem?_eq_none (Nat.le_of_eq hstop.symm)
  have hitem : Steps (Text.ofString pattern) (category "item") 0
      ⟨stop, [categoryNode "item" 0 stop [categoryNode name 0 stop children]]⟩ :=
    item_step helement (no_quantifier fun x hx => by cases hend.symm.trans hx)
  exact compile_item hx hopen hitem hstop (.node hsound (by decide))

end TextGrammar.Pattern
