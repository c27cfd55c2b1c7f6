/-
Elements of patterns as they are printed: characters on their own, character
sets, literals between quotes and references to types. Wherever its printed form
stands in a text, an element is found as one, whatever follows it, and is read to
the same piece for each quantifier. An item is an element and its quantifier.
-/
import TextGrammar.Proofs.PrintedLiterals
import TextGrammar.Proofs.PrintedQuantifiers
import TextGrammar.Proofs.PrintedSets
import TextGrammar.Proofs.Restated

namespace TextGrammar

/-- Bounds of 64 bits, the lower one first. What is never matched has no sign of greediness. -/
structure Quantifier.IsWritable (q : Quantifier) : Prop where
  lower : q.lower ≤ maxCount
  upper : ∀ m, q.upper = some m → m ≤ maxCount ∧ q.lower ≤ m
  zero : q.isZero = true → q.greediness = .possessive

/-- What a quantifier is read to: exactly once is not written. -/
def Quantifier.reread (q : Quantifier) : Quantifier := if q.isOne then .one else q

theorem Quantifier.restated_reread (q : Quantifier) : q.Restated q.reread := by
  unfold reread
  split
  · next hone => exact .inr ⟨hone, rfl⟩
  · exact .inl rfl

namespace Pattern

open Inlay (Sound captureEntries elementKey elementKey_of_get elementNodes openings signs)

variable {vocabulary : Vocabulary} {text : Text} {i j : Nat} {cs rest : List Char}

/-! ## Names -/

/-- What a name begins with, and what may follow. -/
def nameHead : CharSet := .unionOf [.between 'a' 'z', .between 'A' 'Z', .single '_']

def nameTail : CharSet := .unionOf [nameHead, .between '0' '9']

/-- A name of letters, digits and underscores that does not begin with a digit. -/
def IsName (name : String) : Prop := ∃ c cs, name.toList = c :: cs ∧
  nameHead.contains .standard c = true ∧ ∀ d ∈ cs, nameTail.contains .standard d = true

/-- A name is taken up to what is no part of one. -/
theorem read_name {name : String} {next : Char} (node : String) (hname : IsName name)
    (hleft : text.LeftAt i (name.toList ++ next :: rest))
    (hend : nameTail.contains .standard next = false) :
    ∃ children, Repeats text (nameAs node) 0 i (some ⟨i + name.toList.length,
      [⟨some node, none, none, i, i + name.toList.length, children⟩]⟩) ∧ Leaves children := by
  obtain ⟨c, cs, hcs, hc, hlater⟩ := hname
  rw [hcs, List.cons_append] at hleft
  have hhead : Repeats text (.ofChecker (.char nameHead)) 0 i
      (some ⟨i + 1, [.leaf i (i + 1)]⟩) := .once rfl (.char (.ofChecker _) hleft.get hc)
  have hentry : (many (.ofChecker (.char nameTail))).MatchedBy patternTypes none
      (.char nameTail) := (Entry.MatchedBy.ofChecker _).quantified rfl
  obtain ⟨nodes, htail, hnodes⟩ := read_many hentry rfl rfl rfl hlater hleft.next hend
  have hboth : Reads text [.ofChecker (.char nameHead), many (.ofChecker (.char nameTail))] i
      (some ⟨i + 1 + cs.length, .leaf i (i + 1) :: nodes⟩) := .cons hhead (.last htail)
  have hstop : i + name.toList.length = i + 1 + cs.length := by
    rw [hcs, List.length_cons]
    omega
  rw [hstop]
  have hgroup : (nameAs node).MatchedBy patternTypes none
      (.sequence [.ofChecker (.char nameHead), many (.ofChecker (.char nameTail))]) :=
    (Entry.MatchedBy.ofChecker _).named node
  exact ⟨_, .once rfl (.grammar hgroup hboth), (Leaves.leaf i (i + 1)).append hnodes⟩

/-- No name of a group begins there. -/
theorem no_name (h : ∀ x, text[i]? = some x → x ≠ '$')
    (hhash : text[i]? = some '#' → ∀ x, text[i + 1]? = some x →
      nameHead.contains .standard x = false) : Reads text captureEntries i none := by
  by_cases hget : text[i]? = some '#'
  · have hkind : ((Entry.ofChecker (.char (.ofString "#$"))).named "kind").MatchedBy patternTypes
        none (.char (.ofString "#$")) := (Entry.MatchedBy.ofChecker _).named _
    have hgroup : (nameAs "name").MatchedBy patternTypes none
        (.sequence [.ofChecker (.char nameHead), many (.ofChecker (.char nameTail))]) :=
      (Entry.MatchedBy.ofChecker _).named "name"
    have hnone : Repeats text (nameAs "name") 0 (i + 1) none := .once rfl (.grammar hgroup
      (.stuck (.once rfl (.not_char (.ofChecker _) (hhash hget)))))
    exact .cons (.once rfl (.char hkind hget (by decide))) (.stuck hnone)
  · exact no_capture fun x hx => ⟨fun heq => hget (heq ▸ hx), h x hx⟩

/-! ## Elements -/

/-- Neither a blank nor a comment begins with such a character. -/
theorem bare_at {x : Char} (hx : text[i]? = some x) (hopen : x ≠ '/' ∧ x ≠ '(' ∧
      (CharSet.named "whitespace").contains .standard x = false) :
    Attempts text (many (category "ignored")) i none :=
  no_ignored (Text.only_at hx ⟨hopen.1, hopen.2.2⟩) fun hparen =>
    absurd (Option.some.inj (hx.symm.trans hparen)) hopen.2.1

/-- Characters that are found as one element, and read to a piece for each quantifier. -/
structure ElementIn (vocabulary : Vocabulary) (text : Text) (i stop : Nat) (nodes : List Node)
    (piece : Quantifier → Piece) : Prop where
  bare : Attempts text (many (category "ignored")) i none
  opens : ∃ x, text[i]? = some x ∧ x ∉ signs
  /-- It is no name of a group, unless letters follow. -/
  unnamed : (∀ x, text[stop]? = some x → nameHead.contains .standard x = false) →
    Reads text captureEntries i none
  chooses : ∃ f, Chooses text (.oneOf elements none) i (some f) ∧ f.stop = stop ∧
    elementNodes i f = nodes
  lt : i < stop
  sound : Sound nodes
  unquantified : ∀ node ∈ nodes, node.typeName ≠ some "quantifier"
  reads : ∀ missing q later,
    readItem vocabulary text missing q (nodes ++ later) = .ok (piece q)

/-- The piece of an escape: a character that is not repeated stays open for its neighbours. -/
def escapedPiece : Escaped → Quantifier → Piece
  | .char c, q =>
    if q.isOne then .literal [c] else .entry ((Entry.ofChecker (.single c)).quantified q)
  | .set set, q => .entry ((Entry.ofChecker (.char set)).quantified q)

namespace ElementIn

variable {stop : Nat} {children : List Node} {piece : Quantifier → Piece} {set : CharSet}

/-- A construct of a category with an opening of its own. -/
theorem construct {name : String} {x : Char} (hx : text[i]? = some x)
    (hbare : Attempts text (many (category "ignored")) i none)
    (hsign : x ∉ signs ∧ x ≠ '#' ∧ x ≠ '$')
    (hcategory : elements[openings.findIdx (·.contains x)]? = some (.sequence [category name]))
    (hstep : Steps text (category name) i ⟨stop, [categoryNode name i stop children]⟩)
    (hlt : i < stop) (hsound : Sound children)
    (hname : name ≠ "fatalError" ∧ name ≠ "quantifier")
    (hreads : ∀ missing q later, readItem vocabulary text missing q
      (categoryNode name i stop children :: later) = .ok (piece q)) :
    ElementIn vocabulary text i stop [categoryNode name i stop children] piece where
  bare := hbare
  opens := ⟨x, hx, hsign.1⟩
  unnamed _ := no_capture (Text.only_at hx hsign.2)
  chooses := ⟨_, choose_element (elementKey_of_get hx) hcategory
    (.sequence (.last (.once rfl hstep))), rfl, rfl⟩
  lt := hlt
  sound := .node hsound fun heq => hname.1 (Option.some.inj heq)
  unquantified := List.forall_mem_singleton.mpr fun heq => hname.2 (Option.some.inj heq)
  reads := hreads

/-- One character that needs no sign before it. -/
theorem character {c : Char} (hleft : text.LeftAt i (c :: rest))
    (hbare : Attempts text (many (category "ignored")) i none) (hsign : c ∉ signs ∧ c ≠ '$')
    (hset : elements[openings.findIdx (·.contains c)]? = some (.char set))
    (hc : set.contains .standard c = true) :
    ElementIn vocabulary text i (i + 1) [.leaf i (i + 1)] fun q =>
      if c = '.' then .entry (dotEntry q) else literalPiece [c] q where
  bare := hbare
  opens := ⟨c, hleft.get, hsign.1⟩
  unnamed hnext := no_name (Text.only_at hleft.get hsign.2) fun _ => hnext
  chooses := ⟨_, choose_element (elementKey_of_get hleft.get) hset (.char hleft.get hc), rfl, rfl⟩
  lt := Nat.lt_succ_self i
  sound := .leaf i (i + 1)
  unquantified := List.forall_mem_singleton.mpr fun heq => nomatch heq
  reads missing q later := by
    have hchars : (inText text (.leaf i (i + 1))).chars.toList = [c] := by
      rw [← List.singleton_append] at hleft
      exact hleft.slice
    show (let chars := (inText text (.leaf i (i + 1))).chars.toList
      if chars == ['.'] then pure (Piece.entry (dotEntry q))
        else pure (literalPiece chars q)) = _
    rw [hchars]
    by_cases hdot : c = '.'
    · subst hdot
      rfl
    · rw [if_neg hdot]
      exact if_neg fun heq => hdot (List.singleton_inj.mp (beq_iff_eq.mp heq))

/-- The dot. -/
theorem dot (hleft : text.LeftAt i ('.' :: rest)) :
    ElementIn vocabulary text i (i + 1) [.leaf i (i + 1)] fun q => .entry (dotEntry q) :=
  .character hleft (bare_at hleft.get (by decide)) (by decide)
    (show elements[openings.findIdx (·.contains '.')]? = some (.char (.single '.')) by rfl) (by rfl)

/-- A set in brackets. -/
theorem brackets (h : BracketAt vocabulary text i children stop set) :
    ElementIn vocabulary text i stop [categoryNode "charSet" i stop children] fun q =>
      .entry ((Entry.ofChecker (.char set)).quantified q) := by
  refine .construct h.opens (bare_at h.opens (by decide)) (by decide) (by rfl) h.step h.lt h.sound
    (by decide) fun missing q later => ?_
  show (readSet vocabulary text (categoryNode "charSet" i stop children) >>= fun set =>
    pure (Piece.entry ((Entry.ofChecker (.char set)).quantified q))) = _
  rw [h.reads]
  rfl

/-- An escape is read to what it stands for. -/
theorem escape {escaped : Escaped} (h : EscapeAt vocabulary text i children stop escaped) :
    ElementIn vocabulary text i stop [categoryNode "escape" i stop children]
      (escapedPiece escaped) := by
  refine .construct h.opens (bare_at h.opens (by decide)) (by decide) (by rfl) h.step h.lt
    h.leaves.sound (by decide) fun missing q later => ?_
  show (readEscape vocabulary ⟨text, categoryNode "escape" i stop children, 0⟩ >>= _) = _
  rw [h.reads 0]
  cases escaped with
  | char c =>
    rw [escapedPiece]
    cases q.isOne <;> rfl
  | set set => rfl

end ElementIn

/-! ## Literals -/

/-- Without repeats the characters are part of a word, and a literal is what is repeated. -/
def IsLiteral (cs : List Char) (piece : Quantifier → Piece) : Prop := ∀ q : Quantifier,
  (q.isOne = true → piece q = .literal cs) ∧
  (q.isOne = false → ∃ c : Checker, c.letters? = some cs ∧
    piece q = .entry ((Entry.ofChecker c).quantified q))

/-- A literal is simplified to one of the same characters. -/
theorem letters_simplify (word : Word) :
    (Checker.word word).simplify.letters? = some word.chars := by
  obtain ⟨c, cs⟩ := word
  cases cs <;> rfl

theorem isLiteral_piece (word : Word) : IsLiteral word.chars (literalPiece word.chars) :=
  fun _ => ⟨fun h => if_pos h, fun h => ⟨_, letters_simplify word, if_neg (h ▸ Bool.false_ne_true)⟩⟩

theorem isLiteral_escape (c : Char) : IsLiteral [c] (escapedPiece (.char c)) :=
  fun _ => ⟨fun h => if_pos h, fun h => ⟨_, rfl, if_neg (h ▸ Bool.false_ne_true)⟩⟩

/-- The signs of patterns stand for themselves after a backslash. -/
theorem special_escaped (c : Char) (h : PatternChar.isSpecial c = true) :
    c ∉ ['x', 'u', '0', 'p', 'P'] ∧ escapedChar? c = some (.char c) := by
  have hc : c ∈ ['.', '?', '*', '+', '^', '\x7b', '\x7d', '(', ')', '[', ']', '|', '\\', '!', '$',
      '"', '\'', '\x60', '~', ' '] := List.contains_iff_mem.mp h
  simp only [List.mem_cons, List.not_mem_nil, or_false] at hc
  rcases hc with rfl | rfl | rfl | rfl | rfl | rfl | rfl | rfl | rfl | rfl | rfl | rfl | rfl | rfl |
    rfl | rfl | rfl | rfl | rfl | rfl
  all_goals exact ⟨by decide, rfl⟩

/-- What is an element by itself. -/
def plainAlone : CharSet := .complement (.unionOf [.ofString specials, .named "whitespace"])

theorem contains_plainAlone {c : Char} (h : PatternChar.isSpecial c = false)
    (hspace : (CharSet.named "whitespace").contains .standard c = false) :
    plainAlone.contains .standard c = true := by
  have hspecials : ∀ d ∈ specials.toList, PatternChar.isSpecial d = true :=
    List.all_iff_forall_prop.mp (by decide)
  have hspecial : (CharSet.ofString specials).contains .standard c = false := by
    refine eq_false_of_ne_true fun hset => ?_
    exact Bool.false_ne_true (h.symm.trans (hspecials c (CharSet.contains_ofMembers.mp hset)))
  show (!((CharSet.ofString specials).contains .standard c ||
    ((CharSet.named "whitespace").contains .standard c || false))) = true
  rw [hspecial, hspace]
  rfl

/-- No other element begins with a character that is one by itself. -/
theorem opening_of_plain {c : Char} (h : plainAlone.contains .standard c = true) :
    openings.findIdx (·.contains c) = 7 ∧ c ≠ '.' ∧ c ∉ signs ∧ c ≠ '$' := by
  have hopening : c ∉ openings.flatten := Inlay.not_mem_of_contains (by decide) h
  refine ⟨List.findIdx_eq_length.mpr fun cs hcs => eq_false_of_ne_true fun hmem => hopening ?_, ?_,
    Inlay.not_mem_of_contains (by decide) h, ?_⟩
  · exact List.mem_flatten.mpr ⟨cs, hcs, List.contains_iff_mem.mp hmem⟩
  · rintro rfl
    exact hopening (by decide)
  · rintro rfl
    exact hopening (by decide)

/-- Nor does a blank, or a comment unless it is a slash that is followed by another sign of one. -/
theorem bare_of_plain {c : Char} (h : plainAlone.contains .standard c = true)
    (hget : text[i]? = some c)
    (hslash : c = '/' → ∀ d, text[i + 1]? = some d → d ≠ '/' ∧ d ≠ '*') :
    Attempts text (many (category "ignored")) i none := by
  have hspace : (CharSet.named "whitespace").contains .standard c = false := by
    refine eq_false_of_ne_true fun hwhite => ?_
    have hset : (!((CharSet.ofString specials).contains .standard c ||
      ((CharSet.named "whitespace").contains .standard c || false))) = true := h
    simp [hwhite] at hset
  refine nothing_ignored (Text.only_at hget hspace) (fun hopen => ?_) fun hopen => ?_
  · have hafter := hslash (Option.some.inj (hget.symm.trans hopen))
    exact ⟨fun heq => (hafter _ heq).1 rfl, fun heq => (hafter _ heq).2 rfl⟩
  · obtain rfl := Option.some.inj (hget.symm.trans hopen)
    exact absurd h (by decide)

/-- A character on its own is an element. -/
theorem ElementIn.alone (vocabulary : Vocabulary) {c : Char}
    (hspace : (CharSet.named "whitespace").contains .standard c = true →
      PatternChar.alone c ≠ c.toString)
    (hslash : c = '/' → ∀ d, rest.head? = some d → d ≠ '/' ∧ d ≠ '*')
    (hleft : text.LeftAt i ((PatternChar.alone c).toList ++ rest)) :
    ∃ nodes piece, IsLiteral [c] piece ∧
      ElementIn vocabulary text i (i + (PatternChar.alone c).toList.length) nodes piece := by
  have hplain (hc : PatternChar.isSpecial c = false)
      (hwritten : (PatternChar.alone c).toList = [c]) : plainAlone.contains .standard c = true := by
    refine contains_plainAlone hc (eq_false_of_ne_true fun hwhite => hspace hwhite ?_)
    rw [← String.toList_inj, hwritten]
    exact (String.toList_singleton c).symm
  obtain ⟨f, hstands, hstop⟩ := stands_escape special_escaped vocabulary hplain hleft
  have hafter : text[f.stop]? = rest.head? := by
    rw [hstop]
    exact hleft.skip.head
  rw [PatternChar.alone, ← hstop]
  cases hstands with
  | plain h hset =>
    obtain ⟨hkey, hdot, hsign⟩ := opening_of_plain hset
    have hbare := bare_of_plain hset h fun hc d hd => hslash hc d (hafter.symm.trans hd)
    refine ⟨_, _, ?_, .character (.of_get h) hbare hsign (by rw [hkey]; rfl) hset⟩
    rw [funext fun q => if_neg hdot]
    exact isLiteral_piece ⟨c, []⟩
  | escape h => exact ⟨_, _, isLiteral_escape c, .escape h⟩

/-- A word is an element. -/
theorem ElementIn.word (vocabulary : Vocabulary) {word : Word}
    (hleft : text.LeftAt i (word.display.toList ++ rest)) :
    ∃ nodes, ElementIn vocabulary text i (i + word.display.toList.length) nodes
      (literalPiece word.chars) := by
  let inner := word.chars.flatMap fun c => (Word.displayChar c).toList
  have hdisplay : word.display.toList = '"' :: (inner ++ ['"']) := by
    simp only [Word.display, String.toList_append, String.toList_join, List.flatMap_map]
    rfl
  rw [hdisplay, List.cons_append, List.append_assoc] at hleft
  obtain ⟨nodes, hholds⟩ := holds_display vocabulary word.chars hleft.next
  have hclose : text[i + 1 + inner.length]? = some '"' := hleft.next.skip.get
  have hstop : i + word.display.toList.length = i + 1 + inner.length + 1 := by
    rw [hdisplay, List.length_cons, List.length_append, List.length_singleton]
    omega
  rw [hstop]
  refine ⟨_, .construct hleft.get (bare_at hleft.get (by decide)) (by decide) (by rfl)
    (quoted_step hleft.get hholds hclose) (by omega) ?_ (by decide) fun missing q later => ?_⟩
  · exact AllNodes.cons_iff.mpr
      ⟨Sound.leaf _ _, AllNodes.append_iff.mpr ⟨hholds.sound, Sound.leaf _ _⟩⟩
  · have hread : readItem vocabulary text missing q
          (quotedNode i (i + 1 + inner.length) nodes :: later) =
        (readQuoted vocabulary
            (inText text (quotedNode i (i + 1 + inner.length) nodes)) >>= fun r =>
          if r.1 == '\x60' then
            pure (Piece.entry ((Entry.ref "textCI" (some (String.ofList r.2))).quantified q))
          else pure (literalPiece r.2 q)) := rfl
    refine hread.trans ?_
    rw [readQuoted_node hleft hholds]
    rfl

/-! ## Sets -/

/-- A set that is no single character is an element that is read to one with the same members. -/
theorem ElementIn.set {set : CharSet} (hordered : set.Ordered) (hsingle : ∀ c, set ≠ .single c)
    (hnames : ∀ name ∈ set.classNames,
      '\x7d' ∉ name.toList ∧ vocabulary.classes.has name = true)
    (hleft : text.LeftAt i (set.display.toList ++ rest)) :
    ∃ nodes set', (∀ c, set'.contains vocabulary.classes c = set.contains vocabulary.classes c) ∧
      ElementIn vocabulary text i (i + set.display.toList.length) nodes fun q =>
        .entry ((Entry.ofChecker (.char set')).quantified q) := by
  have hbracketed (h : Bracketed vocabulary set set.display.toList) : ∃ nodes set',
      (∀ c, set'.contains vocabulary.classes c = set.contains vocabulary.classes c) ∧
        ElementIn vocabulary text i (i + set.display.toList.length) nodes fun q =>
          .entry ((Entry.ofChecker (.char set')).quantified q) := by
    obtain ⟨children, set', hbracket, hset'⟩ := h.reads hleft
    exact ⟨_, set', hset', .brackets hbracket⟩
  have haround : Bracketed vocabulary set ("[" ++ set.displayItem ++ "]").toList := by
    rw [String.toList_append, String.toList_append, List.append_assoc]
    exact .around (readsBack hordered hnames)
  cases set with
  | single c => exact absurd rfl (hsingle c)
  | named name =>
    obtain ⟨hname, hclass⟩ := hnames name List.mem_cons_self
    have hdisplay : (CharSet.named name).display.toList =
        '\\' :: 'p' :: '\x7b' :: (name.toList ++ ['\x7d']) := toList_displayClass name
    rw [hdisplay] at hleft ⊢
    obtain ⟨children, hescape⟩ := EscapeAt.named hleft hname (by rwa [String.ofList_toList])
    rw [String.ofList_toList] at hescape
    have hstop : i + ('\\' :: 'p' :: '\x7b' :: (name.toList ++ ['\x7d'])).length =
        i + name.toList.length + 4 := by
      simp only [List.length_cons, List.length_append, List.length_nil]
      omega
    rw [hstop]
    exact ⟨_, _, fun _ => rfl, .escape hescape⟩
  | inter items => exact hbracketed (.inter (readsBackAll hordered hnames))
  | compl item =>
    have hitem : ReadsBack vocabulary item := readsBack hordered hnames
    exact hbracketed (.compl hitem)
  | range | members | union => exact hbracketed haround

/-! ## References to types -/

theorem typeRef_category : category? "typeRef" = some (Builtin.constant "typeRef" (.sequence
    [char '!', .ofChecker (orFatal
      (.sequence [
        optional ((char '$').named "capture"), nameAs "name",
        optional (group [char '(', (group [many (.ofChecker (noneOf ")"))]).named "param",
          char ')']), char '!'])
      "Malformed type reference")])) := rfl

/-- The nodes of the parameter of a type. -/
def paramNodes (i : Nat) (children : List Node) : Option (List Char) → List Node
  | some cs => [.leaf i (i + 1), ⟨some "param", none, none, i + 1, i + 1 + cs.length, children⟩,
      .leaf (i + 1 + cs.length) (i + 1 + cs.length + 1)]
  | none => []

/-- The parameter of a type as it is written. -/
def writtenParam : Option (List Char) → List Char
  | some cs => '(' :: (cs ++ [')'])
  | none => []

/-- A parameter is taken up to the parenthesis that closes it. -/
theorem read_param {param : Option (List Char)} (hparam : ∀ cs, param = some cs → ')' ∉ cs)
    (hleft : text.LeftAt i (writtenParam param ++ '!' :: rest)) :
    ∃ children, Repeats text (optional (group [char '(',
        (group [many (.ofChecker (noneOf ")"))]).named "param", char ')'])) 0 i
      (some ⟨i + (writtenParam param).length, paramNodes i children param⟩) ∧ Leaves children := by
  cases param with
  | none =>
    refine ⟨[], .once rfl (.group ((Entry.MatchedBy.ofChecker _).quantified rfl) rfl
      (.stuck (not_char (Text.no_other_at hleft.get (by decide))))), .nil⟩
  | some cs =>
    rw [writtenParam, List.cons_append, List.append_assoc] at hleft
    have hplain (c : Char) (hc : c ∈ cs) :
        (CharSet.compl (.members [')'])).contains .standard c = true := by
      have hne : c ≠ ')' := fun heq => hparam cs rfl (heq ▸ hc)
      simp [CharSet.contains, hne]
    have hentry : (many (.ofChecker (noneOf ")"))).MatchedBy patternTypes none
        (.char (.compl (.members [')']))) := (Entry.MatchedBy.ofChecker _).quantified rfl
    obtain ⟨nodes, hmany, hnodes⟩ := read_many hentry rfl rfl rfl hplain hleft.next rfl
    have hgroup : ((group [many (.ofChecker (noneOf ")"))]).named "param").MatchedBy patternTypes
        none (.sequence [many (.ofChecker (noneOf ")"))]) := (Entry.MatchedBy.ofChecker _).named _
    have hstop : i + (writtenParam (some cs)).length = i + 1 + cs.length + 1 := by
      rw [writtenParam, List.length_cons, List.length_append, List.length_singleton]
      omega
    rw [hstop]
    refine ⟨nodes, .once rfl (.group ((Entry.MatchedBy.ofChecker _).quantified rfl) rfl
      (.cons (read_char hleft.get) (.cons (.once rfl (.grammar hgroup (.last hmany)))
        (.last (read_char hleft.next.skip.get))))), hnodes⟩

theorem toList_displayRef (r : TypeRef) : r.display.toList =
    '!' :: (r.name.toList ++ (writtenParam (r.param.map String.toList) ++ ['!'])) := by
  obtain ⟨name, _ | param⟩ := r
  · simp [TypeRef.display, writtenParam]
  · simp [TypeRef.display, writtenParam]

/-- What is found as a reference to a type. -/
def typeRefNode (i : Nat) (name : List Char) (below : List Node) (param : Option (List Char))
    (children : List Node) : Node :=
  let j := i + 1 + name.length
  let k := j + (writtenParam param).length
  categoryNode "typeRef" i (k + 1) (.leaf i (i + 1) :: ⟨some "name", none, none, i + 1, j, below⟩ ::
    (paramNodes j children param ++ [.leaf k (k + 1)]))

/-- It is read to the reference. -/
theorem readTypeRef_node {r : TypeRef} {below children : List Node} (index : Nat)
    (hknown : vocabulary.knows r.name = true)
    (hleft : text.LeftAt i ('!' :: (r.name.toList ++
      (writtenParam (r.param.map String.toList) ++ rest)))) :
    readTypeRef vocabulary ⟨text, typeRefNode i r.name.toList below (r.param.map String.toList)
      children, index⟩ = .ok (.ofTarget (.ref r)) := by
  obtain ⟨name, param⟩ := r
  have hstring : String.ofList (text.slice (i + 1) (i + 1 + name.toList.length)).toList = name := by
    rw [hleft.next.slice, String.ofList_toList]
  cases param with
  | none =>
    show (knownType vocabulary _ (String.ofList (text.slice (i + 1) _).toList) none >>= fun entry =>
      pure entry) = _
    rw [hstring, knownType, if_pos hknown]
    rfl
  | some param =>
    have hinside : text.LeftAt (i + 1 + name.toList.length)
        ('(' :: (param.toList ++ (')' :: rest))) := by
      have hafter := hleft.next.skip
      simpa [writtenParam] using hafter
    have hparam : String.ofList (text.slice (i + 1 + name.toList.length + 1)
        (i + 1 + name.toList.length + 1 + param.toList.length)).toList = param := by
      rw [hinside.next.slice, String.ofList_toList]
    show (knownType vocabulary _ (String.ofList (text.slice (i + 1) _).toList)
      (some (String.ofList (text.slice _ _).toList)) >>= fun entry => pure entry) = _
    rw [hstring, hparam, knownType, if_pos hknown]
    rfl

/-- It is found up to its closing sign. -/
theorem typeRef_step {name : String} {param : Option (List Char)} (hname : IsName name)
    (hparam : ∀ cs, param = some cs → ')' ∉ cs)
    (hleft : text.LeftAt i ('!' :: (name.toList ++ (writtenParam param ++ '!' :: rest)))) :
    ∃ below children, Leaves below ∧ Leaves children ∧ Steps text (category "typeRef") i
      ⟨i + 1 + name.toList.length + (writtenParam param).length + 1,
        [typeRefNode i name.toList below param children]⟩ := by
  -- What follows the name is no part of it.
  obtain ⟨next, later, hnext, hend⟩ : ∃ next later,
      writtenParam param ++ '!' :: rest = next :: later ∧
        nameTail.contains .standard next = false := by
    cases param with
    | none => exact ⟨_, _, rfl, by decide⟩
    | some cs => exact ⟨_, _, rfl, by decide⟩
  have hnameLeft : text.LeftAt (i + 1) (name.toList ++ next :: later) := hnext ▸ hleft.next
  obtain ⟨below, hnameRead, hbelow⟩ := read_name "name" hname hnameLeft hend
  obtain ⟨children, hparamRead, hchildren⟩ := read_param hparam hleft.next.skip
  have hnoCapture : Repeats text (optional ((char '$').named "capture")) 0 (i + 1)
      (some ⟨i + 1, []⟩) := by
    obtain ⟨c, cs, hcs, hc, -⟩ := hname
    refine .once rfl (.not_char (((Entry.MatchedBy.ofChecker _).named _).quantified rfl) ?_)
    rw [hcs] at hnameLeft
    refine Text.only_at hnameLeft.get (beq_false_of_ne ?_)
    rintro rfl
    exact absurd hc (by decide)
  have hcontent : Chooses text (orFatal (.sequence [
      optional ((char '$').named "capture"), nameAs "name",
      optional (group [char '(', (group [many (.ofChecker (noneOf ")"))]).named "param",
        char ')']), char '!']) "Malformed type reference") (i + 1) (some ⟨_, _, true⟩) :=
    .among (.only .nil (.sequence (.cons hnoCapture (.cons hnameRead (.cons hparamRead
      (.last (read_char hleft.next.skip.skip.get)))))))
  have hinside := Repeats.once rfl (Attempts.at_once (.ofChecker _) rfl hcontent)
  exact ⟨below, children, hbelow, hchildren,
    .category typeRef_category (.cons (read_char hleft.get) (.last hinside))⟩

theorem sound_paramNodes {children : List Node} (h : Sound children) (i : Nat)
    (param : Option (List Char)) : Sound (paramNodes i children param) := by
  cases param with
  | none => exact Leaves.nil.sound
  | some cs =>
    exact AllNodes.cons_iff.mpr ⟨Sound.leaf _ _, AllNodes.cons_iff.mpr
      ⟨Sound.node h (fun heq => nomatch heq), Sound.leaf _ _⟩⟩

/-- A reference to a type the vocabulary knows is an element. -/
theorem ElementIn.typeRef {r : TypeRef} (hknown : vocabulary.knows r.name = true)
    (hname : IsName r.name) (hparam : ∀ param, r.param = some param → ')' ∉ param.toList)
    (hleft : text.LeftAt i (r.display.toList ++ rest)) :
    ∃ nodes, ElementIn vocabulary text i (i + r.display.toList.length) nodes fun q =>
      .entry ((Entry.ofTarget (.ref r)).quantified q) := by
  let param := r.param.map String.toList
  have hparam (cs : List Char) (hcs : param = some cs) : ')' ∉ cs := by
    obtain ⟨p, hp, rfl⟩ := Option.map_eq_some_iff.mp hcs
    exact hparam p hp
  have hstop : i + r.display.toList.length =
      i + 1 + r.name.toList.length + (writtenParam param).length + 1 := by
    rw [toList_displayRef]
    simp only [List.length_cons, List.length_append, List.length_nil, param]
    omega
  rw [toList_displayRef, List.cons_append, List.append_assoc, List.append_assoc] at hleft
  obtain ⟨below, children, hbelow, hchildren, hstep⟩ := typeRef_step hname hparam hleft
  rw [hstop]
  refine ⟨_, .construct hleft.get (bare_at hleft.get (by decide)) (by decide) (by rfl) hstep
    (by omega) ?_ (by decide) fun missing q later => ?_⟩
  · refine AllNodes.cons_iff.mpr ⟨Sound.leaf _ _, AllNodes.cons_iff.mpr
      ⟨Sound.node hbelow.sound (fun h => nomatch h), ?_⟩⟩
    exact AllNodes.append_iff.mpr ⟨sound_paramNodes hchildren.sound _ _, Sound.leaf _ _⟩
  · have hread : readItem vocabulary text missing q
        (typeRefNode i r.name.toList below param children :: later) =
          (readTypeRef vocabulary ⟨text, typeRefNode i r.name.toList below param children, 0⟩ >>=
            fun entry => pure (Piece.entry (entry.quantified q))) := rfl
    refine hread.trans ?_
    rw [readTypeRef_node 0 hknown hleft]
    rfl

/-! ## Items -/

/-- What may follow an item: nothing more, a blank, a separator or the end of a group. -/
def Closes (cs : List Char) : Prop := ∀ c, cs.head? = some c → c ∈ [' ', ')', '|']

theorem Closes.nil : Closes [] := fun _ h => nomatch h

theorem Closes.cons {c : Char} (h : c ∈ [' ', ')', '|']) : Closes (c :: cs) := fun d hd => by
  obtain rfl := Option.some.inj hd
  exact h

theorem Closes.at (h : Closes rest) (hleft : text.LeftAt i rest) :
    ∀ x, text[i]? = some x → x ∈ [' ', ')', '|'] := fun x hx => h x (hleft.head.symm.trans hx)

/-- Characters that are found as one item, and read to one piece. -/
structure ItemIn (vocabulary : Vocabulary) (text : Text) (i stop : Nat) (nodes : List Node)
    (piece : Piece) : Prop where
  /-- Neither a blank nor a comment begins there. -/
  bare : Attempts text (many (category "ignored")) i none
  opens : ∃ x, text[i]? = some x ∧ x ∉ signs
  /-- Nor does the name of a group. -/
  unnamed : Reads text captureEntries i none
  lt : i < stop
  step : Steps text (category "item") i ⟨stop, nodes⟩
  sound : Sound nodes
  reads : readPieces vocabulary text nodes = .ok [piece]

/-- What an item repeats its element by. -/
def itemQuantifier (ref : NodeRef) : Except GrammarError Quantifier :=
  match ref.typedChild? "quantifier" with
  | some q => readQuantifier q
  | none => .ok .one

theorem readPieces_item (vocabulary : Vocabulary) (text : Text) (i stop : Nat)
    (children : List Node) :
    readPieces vocabulary text [categoryNode "item" i stop children] =
      (itemQuantifier (inText text (categoryNode "item" i stop children)) >>= fun q =>
        readItem vocabulary text (malformed "Missing element" (inText text
          (categoryNode "item" i stop children))) q children >>= fun piece => pure [piece]) := by
  rw [categoryNode, readPieces, if_pos (by rfl), itemQuantifier]
  dsimp only
  cases (inText text ⟨none, some "item", none, i, stop, children⟩).typedChild? "quantifier" <;> rfl

namespace ElementIn

variable {stop : Nat} {nodes later : List Node} {piece : Quantifier → Piece} {q : Quantifier}

/-- An item is read to the piece of its element for its quantifier. -/
theorem readPieces (h : ElementIn vocabulary text i j nodes piece)
    (hq : itemQuantifier (inText text (categoryNode "item" i stop (nodes ++ later))) = .ok q) :
    readPieces vocabulary text [categoryNode "item" i stop (nodes ++ later)] = .ok [piece q] := by
  rw [readPieces_item, hq]
  show (readItem vocabulary text _ q (nodes ++ later) >>= _) = _
  rw [h.reads]
  rfl

theorem readPieces_once (h : ElementIn vocabulary text i j nodes piece) :
    Pattern.readPieces vocabulary text [categoryNode "item" i stop nodes] = .ok [piece .one] := by
  rw [← List.append_nil nodes]
  refine h.readPieces ?_
  have hnone : (inText text (categoryNode "item" i stop (nodes ++ []))).typedChild? "quantifier" =
      none := by
    rw [List.append_nil]
    exact no_first_child (p := fun node => node.typeName == some "quantifier")
      fun node hnode => beq_false_of_ne (h.unquantified node hnode)
  rw [itemQuantifier, hnone]

theorem readPieces_quantified {node : Node} (h : ElementIn vocabulary text i j nodes piece)
    (htype : node.typeName = some "quantifier")
    (hread : ∀ index, readQuantifier ⟨text, node, index⟩ = .ok q) :
    Pattern.readPieces vocabulary text [categoryNode "item" i stop (nodes ++ [node])] =
      .ok [piece q] := by
  refine h.readPieces ?_
  have hchild : (inText text (categoryNode "item" i stop (nodes ++ [node]))).typedChild?
      "quantifier" = some ⟨text, node, nodes.length⟩ :=
    first_child (p := fun node => node.typeName == some "quantifier") rfl
      (fun node hnode => beq_false_of_ne (h.unquantified node hnode)) (beq_iff_eq.mpr htype)
  rw [itemQuantifier, hchild]
  exact hread _

/-- An element without a quantifier is an item. -/
theorem once (h : ElementIn vocabulary text i j nodes piece)
    (hleft : text.LeftAt j rest)
    (hrest : Closes rest) : ∃ nodes, ItemIn vocabulary text i j nodes (piece .one) := by
  obtain ⟨f, hchooses, rfl, rfl⟩ := h.chooses
  have hsigns : ∀ x ∈ [' ', ')', '|'],
      x ∉ signs ∧ nameHead.contains .standard x = false := List.all_iff_forall_prop.mp (by decide)
  have hstep := item_step hchooses (no_quantifier fun x hx => (hsigns x (hrest.at hleft x hx)).1)
  rw [List.append_nil] at hstep
  exact ⟨_, h.bare, h.opens, h.unnamed fun x hx => (hsigns x (hrest.at hleft x hx)).2, h.lt, hstep,
    .node h.sound (by decide), h.readPieces_once⟩

/-- An element with bounds that are read to a quantifier is an item. -/
theorem quantified {base : List Char} (h : ElementIn vocabulary text i j nodes piece)
    (hbase : Base base) (hbounds : bareQuantifier? base = some (q.withGreediness .possessive))
    (hzero : q.isZero = true → q.greediness = .possessive)
    (hleft : text.LeftAt j (base ++ ((Quantifier.displayGreediness q.greediness).toList ++ rest)))
    (hrest : Closes rest) :
    ∃ nodes, ItemIn vocabulary text i
      (j + base.length + (Quantifier.displayGreediness q.greediness).toList.length) nodes
      (piece q) := by
  obtain ⟨f, hchooses, rfl, rfl⟩ := h.chooses
  have hsigns : ∀ x ∈ [' ', ')', '|'], x ≠ '+' ∧ x ≠ '*' := List.all_iff_forall_prop.mp (by decide)
  obtain ⟨below, hfound, hbelow⟩ := quantifier_found hbase q.greediness hleft
    fun c hc => hsigns c (hrest c hc)
  have hunnamed : Reads text captureEntries i none := by
    obtain ⟨x, cs, hx, rfl⟩ := hbase.begins
    have hheads : ∀ x ∈ signs, nameHead.contains .standard x = false :=
      List.all_iff_forall_prop.mp (by decide)
    exact h.unnamed (Text.only_at hleft.get (hheads x hx))
  refine ⟨_, h.bare, h.opens, hunnamed, ?_, item_step hchooses hfound, ?_,
    h.readPieces_quantified rfl fun _ => readQuantifier_some hbelow hleft rfl hbounds rfl hzero⟩
  · have hlt := h.lt
    omega
  · exact .node (AllNodes.append_iff.mpr ⟨h.sound, sound_quantifier _ _ _ _ hbelow⟩) (by decide)

/-- An element and its quantifier are an item. -/
theorem item (h : ElementIn vocabulary text i j nodes piece) (hq : q.IsWritable)
    (hleft : text.LeftAt j (q.display.toList ++ rest)) (hrest : Closes rest) :
    ∃ nodes, ItemIn vocabulary text i (j + q.display.toList.length) nodes (piece q.reread) := by
  unfold Quantifier.display at hleft ⊢
  unfold Quantifier.reread
  split
  · next hone =>
    rw [if_pos hone] at hleft
    exact h.once hleft hrest
  · next hone =>
    rw [if_neg hone, String.toList_append, List.append_assoc] at hleft
    rw [String.toList_append, List.length_append, ← Nat.add_assoc]
    obtain ⟨hbase, hbounds⟩ := bareQuantifier_displayBounds hq.lower hq.upper
    exact h.quantified hbase hbounds hq.zero hleft hrest

end ElementIn

end Pattern

end TextGrammar
