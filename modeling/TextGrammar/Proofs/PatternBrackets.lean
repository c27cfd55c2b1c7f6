/-
Character sets of patterns, from what the text has there: the items between the
brackets one after the other, in parts that are intersected, and what a set in
brackets is read to.
-/
import TextGrammar.Proofs.PatternCharacters
import TextGrammar.Proofs.SetMembership

namespace TextGrammar.Pattern

open Inlay (Sound contentOf choose_item single_found range_none range_no_hyphen range_found
  setCharNode partNode rangeEntries)

variable {vocabulary : Vocabulary} {text : Text} {i j k : Nat}

/-! ## Characters of sets -/

/-- What stands for itself between brackets. -/
def plainInSet : CharSet := .complement (.ofString "]\\[&")

/-- What stands between brackets, as a set of its own. -/
def Escaped.asSet : Escaped → CharSet
  | .char c => .single c
  | .set s => s

namespace Stands

variable {f g : Found} {escaped : Escaped}

/-- It begins with a backslash or is in the set. -/
theorem get {set : CharSet} (h : Stands vocabulary text set i f escaped) :
    ∃ x, text[i]? = some x ∧ (x = '\\' ∨ set.contains .standard x = true) := by
  cases h with
  | plain h hset => exact ⟨_, h, .inr hset⟩
  | escape h => exact ⟨_, h.opens, .inl rfl⟩

theorem setChar (h : Stands vocabulary text plainInSet i f escaped) :
    Chooses text setChar i (some f) := h.chooses rfl

theorem no_bracket (h : Stands vocabulary text plainInSet i f escaped) : text[i]? ≠ some '[' := by
  obtain ⟨x, hx, hset⟩ := h.get
  rintro hget
  obtain rfl := Option.some.inj (hx.symm.trans hget)
  rcases hset with hset | hset <;> cases hset

/-- A character of a set is read to what it stands for. -/
theorem reads {set : CharSet} (h : Stands vocabulary text set i f escaped) (name : Option String)
    (index : Nat) :
    readSetChar vocabulary ⟨text, setCharNode name i f.stop f.nodes, index⟩ = .ok escaped := by
  cases h with
  | @plain c h hset =>
    have hnone : (NodeRef.mk text (setCharNode name i (i + 1) []) index).typedChild? "escape" =
        none := rfl
    have hget : (NodeRef.mk text (setCharNode name i (i + 1) []) index).chars[0]? = some c := by
      show (text.extract i (i + 1))[0]? = some c
      have hlt : i < text.size := (Array.getElem?_eq_some_iff.mp h).1
      rw [Array.getElem?_extract, if_pos (by omega), Nat.add_zero, h]
    rw [readSetChar, hnone]
    dsimp only
    rw [hget]
  | escape h => exact h.reads 0

end Stands

/-! ## Items -/

theorem charSet_category : category? "charSet" = some (Builtin.constant "charSet" (.sequence
    [char '[', optional ((char '^').named "negate"), .ofChecker (orFatal (.sequence
      [category "setItems", char ']']) "Malformed character set")])) := rfl

theorem setItem_matched : (many (category "setItem")).MatchedBy patternTypes
    (some ⟨Builtin.constant "setItem" setItem, none⟩) setItem :=
  (category_matched rfl).quantified rfl

/-- The items of a set from one place to another, and the sets they stand for. -/
structure Items (vocabulary : Vocabulary) (text : Text) (i : Nat) (nodes : List Node)
    (sets : List CharSet) (j : Nat) : Prop where
  chain : Chain (Steps text (many (category "setItem"))) i nodes j
  sound : Sound nodes
  reads : readMembers vocabulary text nodes = .ok sets
  kept : ∀ set ∈ sets, set.NoEmptyInter

/-- The set that an item holds. -/
def readSetItem (vocabulary : Vocabulary) (text : Text) (i stop : Nat) (nodes : List Node) :
    Except GrammarError CharSet :=
  readNestedSet vocabulary text
    (readPlainItem vocabulary (inText text (categoryNode "setItem" i stop nodes))) nodes

theorem readMembers_both {nodes later : List Node} {sets others : List CharSet}
    (h : readMembers vocabulary text nodes = .ok sets)
    (h' : readMembers vocabulary text later = .ok others) :
    readMembers vocabulary text (nodes ++ later) = .ok (sets ++ others) := by
  induction nodes generalizing sets with
  | nil =>
    cases h
    exact h'
  | cons node nodes ih =>
    obtain ⟨name, typeName, param, start, stop, children⟩ := node
    rw [readMembers] at h
    rw [List.cons_append, readMembers]
    split at h
    · next htype =>
      obtain ⟨item, hitem, h⟩ := ok_of_bind h
      obtain ⟨items, hitems, h⟩ := ok_of_bind h
      cases h
      rw [if_pos htype]
      dsimp only at hitem ⊢
      rw [hitem, ih hitems]
      rfl
    · next htype =>
      rw [if_neg htype]
      exact ih h

namespace Items

variable {nodes later : List Node} {sets others : List CharSet} {f g : Found} {escaped : Escaped}

theorem nil (i : Nat) : Items vocabulary text i [] [] i :=
  ⟨.nil i, Leaves.nil.sound, rfl, fun _ h => by cases h⟩

theorem append (h : Items vocabulary text i nodes sets j)
    (h' : Items vocabulary text j later others k) :
    Items vocabulary text i (nodes ++ later) (sets ++ others) k where
  chain := h.chain.append h'.chain
  sound := AllNodes.append_iff.mpr ⟨h.sound, h'.sound⟩
  reads := readMembers_both h.reads h'.reads
  kept set hset := (List.mem_append.mp hset).elim (h.kept set) (h'.kept set)

/-- One item. -/
theorem one {set : CharSet} {built : Bool} (h : Chooses text setItem i (some ⟨j, nodes, built⟩))
    (hlt : i < j) (hsound : Sound nodes) (hread : readSetItem vocabulary text i j nodes = .ok set)
    (hkept : set.NoEmptyInter) :
    Items vocabulary text i [categoryNode "setItem" i j nodes] [set] j := by
  have hstep : Steps text (many (category "setItem")) i ⟨j, [categoryNode "setItem" i j nodes]⟩ :=
    .at_once setItem_matched rfl h
  refine ⟨.single hstep hlt, .node hsound (by decide), ?_, List.forall_mem_singleton.mpr hkept⟩
  have hmembers : readMembers vocabulary text [categoryNode "setItem" i j nodes] =
      (readSetItem vocabulary text i j nodes >>= fun item => Except.ok [] >>= fun items =>
        pure (item :: items)) := rfl
  rw [hmembers, hread]
  rfl

/-- A character or a class, where no range begins with it. -/
theorem character (h : Stands vocabulary text plainInSet i f escaped)
    (hhyphen : text[f.stop]? ≠ some '-') (hkept : escaped.asSet.NoEmptyInter) :
    ∃ nodes, Items vocabulary text i nodes [escaped.asSet] f.stop := by
  have hitem : Chooses text setItem i
      (some ⟨f.stop, [setCharNode none i f.stop f.nodes], true⟩) :=
    choose_item (no_construct charSet_category h.no_bracket) (range_no_hyphen h.setChar hhyphen)
      (single_found h.setChar)
  refine ⟨_, .one hitem h.lt (.node h.sound (by decide)) ?_ hkept⟩
  have hread : readSetItem vocabulary text i f.stop [setCharNode none i f.stop f.nodes] =
      (readSetChar vocabulary ⟨text, setCharNode none i f.stop f.nodes, 0⟩ >>= fun escaped =>
        match escaped with
        | .char c => pure (.single c)
        | .set set => pure set) := rfl
  refine hread.trans ?_
  rw [h.reads none 0]
  cases escaped <;> rfl

/-- A range between two characters. -/
theorem range {a b : Char} (h : Stands vocabulary text plainInSet i f (.char a))
    (hhyphen : text[f.stop]? = some '-')
    (h' : Stands vocabulary text plainInSet (f.stop + 1) g (.char b)) :
    ∃ nodes, Items vocabulary text i nodes [.between a b] g.stop := by
  have hgreater : f.stop < g.stop := Nat.lt_trans (Nat.lt_succ_self _) h'.lt
  have hlongest := choose_item (no_construct charSet_category h.no_bracket)
    (range_found h.setChar hhyphen h'.setChar) (single_found h.setChar)
  rw [Option.map_some, Option.map_some, longer, further, if_pos (by exact hgreater)] at hlongest
  have hitem : Chooses text setItem i (some ⟨g.stop,
      [setCharNode (some "from") i f.stop f.nodes, .leaf f.stop (f.stop + 1),
        setCharNode (some "to") (f.stop + 1) g.stop g.nodes], true⟩) := hlongest
  refine ⟨_, .one hitem (Nat.lt_trans h.lt hgreater) ?_ ?_ ?_⟩
  · exact AllNodes.cons_iff.mpr ⟨Sound.node h.sound (by decide), AllNodes.cons_iff.mpr
      ⟨Sound.leaf _ _, Sound.node h'.sound (by decide)⟩⟩
  · have hread : readSetItem vocabulary text i g.stop
        [setCharNode (some "from") i f.stop f.nodes, .leaf f.stop (f.stop + 1),
          setCharNode (some "to") (f.stop + 1) g.stop g.nodes] =
        (readSetChar vocabulary ⟨text, setCharNode (some "from") i f.stop f.nodes, 0⟩ >>= fun lo =>
          readSetChar vocabulary ⟨text, setCharNode (some "to") (f.stop + 1) g.stop g.nodes, 2⟩ >>=
            _) := rfl
    refine hread.trans ?_
    rw [h.reads, h'.reads]
    rfl
  · rw [CharSet.between]
    split <;> trivial

end Items

/-! ## Parts -/

/-- A part of a set: items up to a sign for another part or the end. -/
def part : Entry := (group [many (category "setItem")]).named "part"

/-- A part after the first one. -/
def laterPart : Entry := many (group [literal "&&", part])

theorem setItems_category : category? "setItems" =
    some (Builtin.constant "setItems" (.sequence [part, laterPart])) := rfl

/-- No item begins with a bracket that closes a set, or with the sign for another part. -/
theorem no_setItem (h : ∀ x, text[i]? = some x → x = ']' ∨ x = '&') :
    Attempts text (many (category "setItem")) i none := by
  have hchar : Chooses text setChar i none := no_content fun x hx => by
    rcases h x hx with rfl | rfl <;> decide
  have hbracket : text[i]? ≠ some '[' := fun hget => by
    rcases h _ hget with h | h <;> cases h
  have hitem : Chooses text setItem i none :=
    choose_item (no_construct charSet_category hbracket) (range_none hchar) (single_found hchar)
  exact .at_once setItem_matched rfl hitem

/-- Items that are all there is up to such a place are a part. -/
theorem Items.part {nodes : List Node} {sets : List CharSet}
    (h : Items vocabulary text i nodes sets j)
    (hend : ∀ x, text[j]? = some x → x = ']' ∨ x = '&') :
    Repeats text part 0 i (some ⟨j, [partNode i j nodes]⟩) := by
  have hentry : Pattern.part.MatchedBy patternTypes none (.sequence [many (category "setItem")]) :=
    (Entry.MatchedBy.ofChecker _).named "part"
  exact .once rfl (.grammar hentry (.last (.chain rfl rfl h.chain (no_setItem hend) 0)))

theorem no_laterPart (h : text[i]? = some ']') : Attempts text laterPart i none := by
  have hentry : laterPart.MatchedBy patternTypes none (.sequence [literal "&&", part]) :=
    (Entry.MatchedBy.ofChecker _).quantified rfl
  have hword : text.hasAt i ['&', '&'] = false := eq_false_of_ne_true fun hhas => by
    cases h.symm.trans (Inlay.hasAt_two hhas).1
  exact .group hentry rfl (.stuck (not_word (w := ⟨'&', ['&']⟩) hword))

/-- The parts of a set from one place to another, and the sets they stand for. -/
structure Parts (vocabulary : Vocabulary) (text : Text) (i : Nat) (nodes : List Node)
    (parts : List CharSet) (j : Nat) : Prop where
  chain : Chain (Steps text laterPart) i nodes j
  sound : Sound nodes
  reads : readParts vocabulary text nodes = .ok parts
  kept : ∀ part ∈ parts, part.NoEmptyInter

theorem noEmptyInter_unionOf {sets : List CharSet} (h : ∀ set ∈ sets, set.NoEmptyInter) :
    (CharSet.unionOf sets).NoEmptyInter := by
  refine CharSet.noEmptyInterAll_iff.mpr fun part hpart => ?_
  obtain ⟨set, hset, hpart⟩ := List.mem_flatMap.mp hpart
  exact (h set hset).unionParts part hpart

theorem readParts_part {nodes later : List Node} {sets parts : List CharSet} (i j : Nat)
    (h : readMembers vocabulary text nodes = .ok sets)
    (hlater : readParts vocabulary text later = .ok parts) :
    readParts vocabulary text (partNode i j nodes :: later) = .ok (.unionOf sets :: parts) := by
  have hread : readParts vocabulary text (partNode i j nodes :: later) =
      (readMembers vocabulary text nodes >>= fun members =>
        readParts vocabulary text later >>= fun parts => pure (.unionOf members :: parts)) := rfl
  rw [hread, h, hlater]
  rfl

namespace Parts

variable {nodes later : List Node} {sets parts : List CharSet}

theorem nil (i : Nat) : Parts vocabulary text i [] [] i :=
  ⟨.nil i, Leaves.nil.sound, rfl, fun _ h => by cases h⟩

/-- Another part, after its sign. -/
theorem cons (hsign : text.hasAt i ['&', '&'] = true)
    (h : Items vocabulary text (i + 2) nodes sets j)
    (hend : ∀ x, text[j]? = some x → x = ']' ∨ x = '&')
    (hlater : Parts vocabulary text j later parts k) :
    Parts vocabulary text i (.leaf i (i + 2) :: partNode (i + 2) j nodes :: later)
      (.unionOf sets :: parts) k := by
  have hword : Chooses text (.literal ['&', '&']) i (some ⟨i + 2, [], false⟩) := by
    have hchooses : Chooses text (.literal ['&', '&']) i _ := .word ⟨'&', ['&']⟩
    rwa [Word.lengthAt, show text.hasAt i (Word.chars ⟨'&', ['&']⟩) = true from hsign, if_pos rfl]
      at hchooses
  have hsignRead : Repeats text (literal "&&") 0 i (some ⟨i + 2, [.leaf i (i + 2)]⟩) :=
    .once rfl (.at_once (.ofChecker _) rfl hword)
  have hentry : laterPart.MatchedBy patternTypes none (.sequence [literal "&&", part]) :=
    (Entry.MatchedBy.ofChecker _).quantified rfl
  have hstep : Steps text laterPart i
      ⟨j, [.leaf i (i + 2), partNode (i + 2) j nodes]⟩ :=
    .group hentry rfl (.cons hsignRead (.last (h.part hend)))
  have hlt : i < j := by
    have hle := h.chain.le
    omega
  refine ⟨.cons hstep hlt hlater.chain, ?_, readParts_part (i + 2) j h.reads hlater.reads, ?_⟩
  · exact AllNodes.cons_iff.mpr ⟨Sound.leaf _ _,
      AllNodes.cons_iff.mpr ⟨Sound.node h.sound (by decide), hlater.sound⟩⟩
  · exact List.forall_mem_cons.mpr ⟨noEmptyInter_unionOf h.kept, hlater.kept⟩

end Parts

/-! ## Brackets -/

/-- What parts come to together. -/
def meet : List CharSet → CharSet
  | [part] => part
  | parts => .interOf parts

/-- What a set in brackets comes to. -/
def bracketed (negated : Bool) (parts : List CharSet) : CharSet :=
  if negated then (meet parts).simplify.complement else (meet parts).simplify

section

variable {parts : List CharSet}

/-- Parts that come to no intersection of nothing are not lost. -/
theorem flatMap_interParts_ne_nil (hne : parts ≠ []) (h : ∀ part ∈ parts, part.NoEmptyInter) :
    parts.flatMap CharSet.interParts ≠ [] := by
  obtain ⟨part, hpart⟩ := List.exists_mem_of_ne_nil parts hne
  exact fun hnil => CharSet.interParts_ne_nil (h part hpart).ne_inter
    (List.flatMap_eq_nil_iff.mp hnil part hpart)

theorem noEmptyInter_meet (hne : parts ≠ []) (h : ∀ part ∈ parts, part.NoEmptyInter) :
    (meet parts).NoEmptyInter := by
  unfold meet
  split
  · exact h _ List.mem_cons_self
  · refine ⟨flatMap_interParts_ne_nil hne h, CharSet.noEmptyInterAll_iff.mpr fun item hitem => ?_⟩
    obtain ⟨part, hpart, hitem⟩ := List.mem_flatMap.mp hitem
    exact (h part hpart).interParts item hitem

/-- Parts have together what all of them have. -/
theorem contains_meet {classes : CharClasses} {c : Char} (hne : parts ≠ [])
    (h : ∀ part ∈ parts, part.NoEmptyInter) : (meet parts).contains classes c = true ↔
      ∀ part ∈ parts, part.contains classes c = true := by
  unfold meet
  split
  · rw [List.forall_mem_singleton]
  · rw [CharSet.interOf, CharSet.contains_inter]
    constructor
    · rintro ⟨-, hall⟩ part hpart
      refine (CharSet.contains_interParts (h part hpart).ne_inter).mpr fun item hitem => ?_
      exact hall item (List.mem_flatMap.mpr ⟨part, hpart, hitem⟩)
    · refine fun hall => ⟨flatMap_interParts_ne_nil hne h, fun item hitem => ?_⟩
      obtain ⟨part, hpart, hitem⟩ := List.mem_flatMap.mp hitem
      exact (CharSet.contains_interParts (h part hpart).ne_inter).mp (hall part hpart) item hitem

theorem noEmptyInter_bracketed (negated : Bool) (hne : parts ≠ [])
    (h : ∀ part ∈ parts, part.NoEmptyInter) : (bracketed negated parts).NoEmptyInter := by
  have hmeet := CharSet.simplify_noEmptyInter (noEmptyInter_meet hne h)
  cases negated with
  | true => exact hmeet.complement
  | false => exact hmeet

/-- What is in brackets has what all parts have, or has it not if it is negated. -/
theorem contains_bracketed {classes : CharClasses} {c : Char} (negated : Bool) (hne : parts ≠ [])
    (h : ∀ part ∈ parts, part.NoEmptyInter) :
    (bracketed negated parts).contains classes c =
      (negated ^^ parts.all (·.contains classes c)) := by
  have hmeet : (meet parts).simplify.contains classes c = parts.all (·.contains classes c) := by
    rw [CharSet.contains_simplify (noEmptyInter_meet hne h), Bool.eq_iff_iff, contains_meet hne h,
      List.all_eq_true]
  cases negated with
  | true => rw [bracketed, if_pos rfl, CharSet.contains_complement, hmeet, Bool.true_xor]
  | false => rw [bracketed, if_neg Bool.false_ne_true, hmeet, Bool.false_xor]

end

/-- A set in brackets, and what it stands for. -/
structure BracketAt (vocabulary : Vocabulary) (text : Text) (i : Nat) (children : List Node)
    (stop : Nat) (set : CharSet) : Prop where
  opens : text[i]? = some '['
  lt : i < stop
  step : Steps text (category "charSet") i ⟨stop, [categoryNode "charSet" i stop children]⟩
  sound : Sound children
  reads : readSet vocabulary text (categoryNode "charSet" i stop children) = .ok set
  kept : set.NoEmptyInter

/-- The sign for a complement, where there is one. -/
def negation (negated : Bool) (i : Nat) : Match :=
  if negated then ⟨i + 1, [⟨some "negate", none, none, i, i + 1, []⟩]⟩ else ⟨i, []⟩

theorem le_negation (negated : Bool) (i : Nat) : i ≤ (negation negated i).stop := by
  cases negated with
  | true => exact Nat.le_succ i
  | false => exact Nat.le_refl i

theorem sound_negation (negated : Bool) (i : Nat) : Sound (negation negated i).nodes := by
  cases negated with
  | true => exact .node Leaves.nil.sound (by decide)
  | false => exact Leaves.nil.sound

theorem readSet_bracketed {negated : Bool} {stop : Nat} {inside : List Node}
    {parts : List CharSet} (h : readParts vocabulary text inside = .ok parts) :
    readSet vocabulary text (categoryNode "charSet" i stop (.leaf i (i + 1) ::
      ((negation negated (i + 1)).nodes ++ [categoryNode "setItems" j k inside,
        .leaf k (k + 1)]))) = .ok (bracketed negated parts) := by
  have hread : readSet vocabulary text (categoryNode "charSet" i stop (.leaf i (i + 1) ::
      ((negation negated (i + 1)).nodes ++ [categoryNode "setItems" j k inside,
        .leaf k (k + 1)]))) =
      (readParts vocabulary text inside >>= fun parts => pure (bracketed negated parts)) := by
    cases negated <;> rfl
  rw [hread, h]
  rfl

theorem read_negation {negated : Bool} (h : text[i]? = some '^' ↔ negated = true) :
    Repeats text (optional ((char '^').named "negate")) 0 i (some (negation negated i)) := by
  have hentry : (optional ((char '^').named "negate")).MatchedBy patternTypes none
      (.char (.single '^')) := ((Entry.MatchedBy.ofChecker _).named _).quantified rfl
  cases negated with
  | true => exact .once rfl (.char hentry (h.mpr rfl) (beq_self_eq_true '^'))
  | false =>
    refine .once rfl (.not_char hentry fun x hx => beq_false_of_ne ?_)
    rintro rfl
    cases h.mp hx

/-- A set in brackets from its parts. -/
theorem BracketAt.of_parts {negated : Bool} {nodes later : List Node} {sets parts : List CharSet}
    (hopen : text[i]? = some '[') (hsign : text[i + 1]? = some '^' ↔ negated = true)
    (h : Items vocabulary text (negation negated (i + 1)).stop nodes sets j)
    (hend : ∀ x, text[j]? = some x → x = ']' ∨ x = '&')
    (hlater : Parts vocabulary text j later parts k) (hclose : text[k]? = some ']') :
    ∃ children, BracketAt vocabulary text i children (k + 1)
      (bracketed negated (.unionOf sets :: parts)) := by
  let s := negation negated (i + 1)
  let inside := partNode s.stop j nodes :: later
  have hitems : Repeats text (category "setItems") 0 s.stop
      (some ⟨k, [categoryNode "setItems" s.stop k inside]⟩) :=
    .once rfl (.category setItems_category
      (.cons (h.part hend) (.last (.chain rfl rfl hlater.chain (no_laterPart hclose) 0))))
  have hcontent : Chooses text (orFatal (.sequence [category "setItems", char ']'])
      "Malformed character set") s.stop _ :=
    .among (.only .nil (.sequence (.cons hitems (.last (read_char hclose)))))
  have hstep : Steps text (category "charSet") i ⟨k + 1, [categoryNode "charSet" i (k + 1)
      (.leaf i (i + 1) :: (s.nodes ++ [categoryNode "setItems" s.stop k inside,
        .leaf k (k + 1)]))]⟩ :=
    .category charSet_category (.cons (read_char hopen) (.cons (read_negation hsign)
      (.last (.once rfl (.at_once (.ofChecker _) rfl hcontent)))))
  refine ⟨_, hopen, ?_, hstep, ?_, ?_, ?_⟩
  · have hnegated := le_negation negated (i + 1)
    have hitems := h.chain.le
    have hparts := hlater.chain.le
    omega
  · refine AllNodes.cons_iff.mpr ⟨Sound.leaf _ _,
      AllNodes.append_iff.mpr ⟨sound_negation negated (i + 1), AllNodes.cons_iff.mpr
        ⟨Sound.node (AllNodes.cons_iff.mpr ⟨Sound.node h.sound ?_, hlater.sound⟩) ?_,
          Sound.leaf _ _⟩⟩⟩
    all_goals decide
  · exact readSet_bracketed (readParts_part s.stop j h.reads hlater.reads)
  · exact noEmptyInter_bracketed negated (List.cons_ne_nil _ _)
      (List.forall_mem_cons.mpr ⟨noEmptyInter_unionOf h.kept, hlater.kept⟩)

/-- A set inside of another one. -/
theorem Items.nested {children : List Node} {stop : Nat} {set : CharSet}
    (h : BracketAt vocabulary text i children stop set) :
    ∃ nodes, Items vocabulary text i nodes [set] stop := by
  have hchar : Chooses text setChar i none := no_content (Text.only_at h.opens (by decide))
  have hitem : Chooses text setItem i
      (some ⟨stop, [categoryNode "charSet" i stop children], true⟩) :=
    choose_item (.sequence (.last (.once rfl h.step))) (range_none hchar) (single_found hchar)
  exact ⟨_, .one hitem h.lt (.node h.sound (by decide)) h.reads h.kept⟩

end TextGrammar.Pattern
