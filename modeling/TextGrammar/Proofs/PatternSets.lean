/-
Character sets of patterns. A set looks past its end in one place: a hyphen at
the very end of the text might begin a range with what follows. A set that ends
there is not closed, so those that are move to the outer text of an inlay.
-/
import TextGrammar.Proofs.PatternEscapes

namespace TextGrammar.Pattern

variable {vocabulary : Vocabulary} {text : Text}

/-! ## Reading items and parts -/

theorem readMembers_append {nodes later : List Node} {sets : List CharSet}
    (h : readMembers vocabulary text (nodes ++ later) = .ok sets) :
    (∃ sets, readMembers vocabulary text nodes = .ok sets) ∧
      ∃ sets, readMembers vocabulary text later = .ok sets := by
  induction nodes generalizing sets with
  | nil => exact ⟨⟨[], rfl⟩, sets, h⟩
  | cons node nodes ih =>
    obtain ⟨name, typeName, param, start, stop, children⟩ := node
    rw [List.cons_append, readMembers] at h
    rw [readMembers]
    split at h
    · next htype =>
      obtain ⟨item, hitem, h⟩ := ok_of_bind h
      obtain ⟨items, hitems, -⟩ := ok_of_bind h
      obtain ⟨⟨sets, hsets⟩, hlater⟩ := ih hitems
      refine ⟨⟨item :: sets, ?_⟩, hlater⟩
      rw [if_pos htype]
      dsimp only
      rw [hitem, hsets]
      rfl
    · next htype =>
      rw [if_neg htype]
      exact ih h

theorem readParts_append {nodes later : List Node} {sets : List CharSet}
    (h : readParts vocabulary text (nodes ++ later) = .ok sets) :
    (∃ sets, readParts vocabulary text nodes = .ok sets) ∧
      ∃ sets, readParts vocabulary text later = .ok sets := by
  induction nodes generalizing sets with
  | nil => exact ⟨⟨[], rfl⟩, sets, h⟩
  | cons node nodes ih =>
    obtain ⟨name, typeName, param, start, stop, children⟩ := node
    rw [List.cons_append, readParts] at h
    rw [readParts]
    split at h
    · next hname =>
      obtain ⟨members, hmembers, h⟩ := ok_of_bind h
      obtain ⟨parts, hparts, -⟩ := ok_of_bind h
      obtain ⟨⟨sets, hsets⟩, hlater⟩ := ih hparts
      refine ⟨⟨.unionOf members :: sets, ?_⟩, hlater⟩
      rw [if_pos hname, hmembers, hsets]
      rfl
    · next hname =>
      rw [if_neg hname]
      exact ih h

namespace Inlay

variable {l : Inlay} {i : Nat}

/-! ## Characters of sets -/

/-- The node of a character of a set, under some name. -/
def setCharNode (name : Option String) (i stop : Nat) (children : List Node) : Node :=
  ⟨name, some "setChar", none, i, stop, children⟩

/-- A character of a set can be read only if its escape can. -/
theorem CharacterAt.clean {f : Found} (h : CharacterAt i f) (hsound : Sound f.nodes)
    {name : Option String} {index : Nat} {escaped : Escaped} (hread : readSetChar l.vocabulary
      ⟨l.inner, setCharNode name i f.stop f.nodes, index⟩ = .ok escaped) : l.Clean f.nodes := by
  rcases h.form with ⟨children, hf, huntyped⟩ | rfl
  · rw [hf] at hsound hread ⊢
    intro node hnode
    rcases List.mem_cons.mp hnode with rfl | hnode
    · exact ⟨(by decide : some "escape" ≠ some "fatalError"), fun _ => ⟨escaped, hread⟩⟩
    · exact (huntyped hsound.children).clean node hnode
  · exact .nil

/-- Where a set may end so that more text after it makes no difference to its items. -/
def SetEnd (l : Inlay) (k : Nat) : Prop :=
  k < l.inner.size ∧ (l.inner[k]? = some '-' → k + 1 < l.inner.size)

theorem SetEnd.mono {j k : Nat} (hjk : j ≤ k) (h : l.SetEnd k) : l.SetEnd j := by
  rcases Nat.lt_or_ge j k with hlt | hge
  · exact ⟨Nat.lt_trans hlt h.1, fun _ => Nat.lt_of_le_of_lt hlt h.1⟩
  · obtain rfl : j = k := Nat.le_antisymm hjk hge
    exact h

theorem SetEnd.agrees {k : Nat} (h : l.SetEnd k) : l.Agrees k := .of_lt h.1

/-! ## Items of sets -/

/-- What a set comes to: it moves, begins with its bracket, and is clean if it can be read. -/
structure SetFound (l : Inlay) (i : Nat) (found : Option Match) : Prop where
  moves : l.Moves (Attempts l.outer (category "charSet") (i + l.shift)) found
  opens : found = none ↔ l.inner[i]? ≠ some '['
  clean : ∀ m ∈ found, i < m.stop ∧ ∃ children,
    m.nodes = [categoryNode "charSet" i m.stop children] ∧ (Sound children → ∀ set,
      readSet l.vocabulary l.inner (categoryNode "charSet" i m.stop children) = .ok set →
        l.Clean children)

/-- The set an item stands for. -/
def readItemNode (l : Inlay) (i stop : Nat) (children : List Node) : Except GrammarError CharSet :=
  readNestedSet l.vocabulary l.inner
    (readPlainItem l.vocabulary (inText l.inner (categoryNode "setItem" i stop children))) children

/-- What an item of a set comes to. -/
structure ItemFound (l : Inlay) (i : Nat) (found : Option Found) : Prop where
  moves : ∀ f ∈ found, l.SetEnd f.stop → l.Clean f.nodes →
    Chooses l.outer setItem (i + l.shift) (some (f.shift l.shift))
  stops : found = none → l.Agrees i → Chooses l.outer setItem (i + l.shift) none
  clean : ∀ f ∈ found, i < f.stop ∧ (Sound f.nodes → ∀ set,
    readItemNode l i f.stop f.nodes = .ok set → l.Clean f.nodes)

/-- An item is the longest of its forms. -/
theorem choose_item {text : Text} {f f' f'' : Option Found}
    (h : Chooses text (.sequence [category "charSet"]) i f)
    (h' : Chooses text (.sequence
      [(category "setChar").named "from", char '-', (category "setChar").named "to"]) i f')
    (h'' : Chooses text (.sequence [category "setChar"]) i f'') :
    Chooses text setItem i (longer (longer f'' f') f) :=
  .one_of (((Among.only .nil h'').cons h').cons h)

/-- A character of a set as an entry of a name. -/
theorem setChar_repeats {text : Text} {entry : Entry} {found : Option Found}
    (hentry : entry.MatchedBy patternTypes (some ⟨Builtin.constant "setChar" setChar, none⟩)
      setChar) (hflat : entry.isFlat = false) (hlower : entry.quantifier.lower = 1)
    (hupper : entry.quantifier.upper = some 1) (h : Chooses text setChar i found) :
    Repeats text entry 0 i
      (found.map fun f => ⟨f.stop, [setCharNode entry.name? i f.stop f.nodes]⟩) := by
  have hone : entry.quantifier.lower ≠ 0 := hlower ▸ Nat.one_ne_zero
  have honce := Repeats.once hupper (Attempts.at_once hentry rfl h)
  rw [if_neg hone] at honce
  have hnodes (f : Found) : entry.nodesOf i f (some ⟨Builtin.constant "setChar" setChar, none⟩) =
      [setCharNode entry.name? i f.stop f.nodes] := by
    simp only [Entry.nodesOf, hflat]
    rfl
  simpa only [hnodes] using honce

theorem single_found {text : Text} {found : Option Found} (h : Chooses text setChar i found) :
    Chooses text (.sequence [category "setChar"]) i
      (found.map fun f => ⟨f.stop, [setCharNode none i f.stop f.nodes], true⟩) := by
  have hread := Reads.last (setChar_repeats (category_matched rfl) rfl rfl rfl h)
  cases found <;> exact .sequence hread

/-- The entries of a range. -/
def rangeEntries : List Entry :=
  [(category "setChar").named "from", char '-', (category "setChar").named "to"]

theorem range_none {text : Text} (h : Chooses text setChar i none) :
    Chooses text (.sequence rangeEntries) i none :=
  .stuck (.stuck (setChar_repeats ((category_matched rfl).named "from") rfl rfl rfl h))

theorem range_no_hyphen {text : Text} {f : Found} (h : Chooses text setChar i (some f))
    (hhyphen : text[f.stop]? ≠ some '-') : Chooses text (.sequence rangeEntries) i none :=
  .stuck (.cons (setChar_repeats ((category_matched rfl).named "from") rfl rfl rfl h)
    (.stuck (not_char hhyphen)))

theorem range_found {text : Text} {f : Found} {found : Option Found}
    (h : Chooses text setChar i (some f)) (hhyphen : text[f.stop]? = some '-')
    (hto : Chooses text setChar (f.stop + 1) found) :
    Chooses text (.sequence rangeEntries) i (found.map fun g => ⟨g.stop,
      [setCharNode (some "from") i f.stop f.nodes, .leaf f.stop (f.stop + 1),
        setCharNode (some "to") (f.stop + 1) g.stop g.nodes], true⟩) := by
  have hfrom := setChar_repeats ((category_matched rfl).named "from") rfl rfl rfl h
  have hread := Reads.cons hfrom (.cons (read_char hhyphen) (.last
    (setChar_repeats ((category_matched rfl).named "to") rfl rfl rfl hto)))
  cases found <;> exact .sequence hread

/-- A character or a range can be read only if its characters can. -/
theorem read_single {stop : Nat} {children : List Node} {set : CharSet}
    (h : readItemNode l i stop [setCharNode none i stop children] = .ok set) :
    ∃ escaped, readSetChar l.vocabulary ⟨l.inner, setCharNode none i stop children, 0⟩ =
      .ok escaped := by
  have hread : readItemNode l i stop [setCharNode none i stop children] =
      (readSetChar l.vocabulary ⟨l.inner, setCharNode none i stop children, 0⟩ >>= _) := rfl
  obtain ⟨escaped, hescaped, -⟩ := ok_of_bind (hread.symm.trans h)
  exact ⟨escaped, hescaped⟩

theorem read_range {stop stop' : Nat} {children children' : List Node} {set : CharSet}
    (h : readItemNode l i stop' [setCharNode (some "from") i stop children, .leaf stop (stop + 1),
      setCharNode (some "to") (stop + 1) stop' children'] = .ok set) :
    (∃ escaped, readSetChar l.vocabulary
      ⟨l.inner, setCharNode (some "from") i stop children, 0⟩ = .ok escaped) ∧
    ∃ escaped, readSetChar l.vocabulary
      ⟨l.inner, setCharNode (some "to") (stop + 1) stop' children', 2⟩ = .ok escaped := by
  have hread : readItemNode l i stop' [setCharNode (some "from") i stop children,
      .leaf stop (stop + 1), setCharNode (some "to") (stop + 1) stop' children'] =
        (readSetChar l.vocabulary ⟨l.inner, setCharNode (some "from") i stop children, 0⟩ >>=
          fun _ => readSetChar l.vocabulary
            ⟨l.inner, setCharNode (some "to") (stop + 1) stop' children', 2⟩ >>= _) := rfl
  obtain ⟨lo, hlo, hrest⟩ := ok_of_bind (hread.symm.trans h)
  obtain ⟨hi, hhi, -⟩ := ok_of_bind hrest
  exact ⟨⟨lo, hlo⟩, hi, hhi⟩

theorem setItem_picks (hi : i ≤ l.inner.size)
    (hset : l.Yields (Attempts l.inner (category "charSet") i) (l.SetFound i) i) :
    l.Picks (Chooses l.inner setItem i) (l.ItemFound i) i := by
  have hbracket : ∀ x, x = '\\' ∨ (CharSet.complement (.ofString "]\\[&")).contains .standard x =
      true → x ≠ '[' := by
    rintro x hx rfl
    rcases hx with h | h <;> cases h
  have hcharacter (j : Nat) (hj : j ≤ l.inner.size) := character_picks (l := l)
    (show (CharSet.complement (.ofString "]\\[&")).contains .standard '\\' = false from rfl) hj
  obtain ⟨found, hR, hin, hfound⟩ := hset
  have hnested {text : Text} {i : Nat} {found : Option Match}
      (h : Attempts text (category "charSet") i found) :
      Chooses text (.sequence [category "charSet"]) i (found.map Match.found) :=
    .sequence (.last (by cases found <;> exact .once rfl h))
  obtain ⟨first, hfirst, hfirstIn, hfirstPasses, hfirstAt⟩ := hcharacter i hi
  cases first with
  | none =>
    have hlonger : longer (longer (none : Option Found) none) (found.map Match.found) =
        found.map Match.found := by
      cases found <;> rfl
    have hitem := choose_item (hnested hR) (range_none hfirst) (single_found hfirst)
    rw [Option.map_none, hlonger] at hitem
    refine ⟨_, hitem, fun f hf => ?_, fun f hf _ hclean => ?_, fun hnone hagree => ?_,
      fun f hf => ?_⟩
    · obtain ⟨m, hm, rfl⟩ := Option.map_eq_some_iff.mp hf
      exact hin m hm
    · obtain ⟨m, rfl, rfl⟩ := Option.map_eq_some_iff.mp hf
      have hlt := Nat.lt_of_lt_of_le (hfound.clean m rfl).1 (hin m rfl).2
      have hfirstOuter := hfirstPasses (.of_lt hlt) (by rintro f ⟨⟩)
      have hmoved := hfound.moves (by rintro _ ⟨⟩; exact hclean)
      exact choose_item (hnested hmoved) (range_none hfirstOuter) (single_found hfirstOuter)
    · obtain rfl := Option.map_eq_none_iff.mp hnone
      have hfirstOuter := hfirstPasses hagree (by rintro f ⟨⟩)
      have hmoved := hfound.moves (by rintro _ ⟨⟩)
      exact choose_item (hnested hmoved) (range_none hfirstOuter) (single_found hfirstOuter)
    · obtain ⟨m, rfl, rfl⟩ := Option.map_eq_some_iff.mp hf
      obtain ⟨hlt, children, hnodes, hread⟩ := hfound.clean m rfl
      refine ⟨hlt, fun hsound set hset => ?_⟩
      simp only [Match.found, hnodes] at hsound hset ⊢
      refine .typed (hread hsound.children set ?_) (by decide) (by decide)
      exact hset
  | some f =>
    obtain ⟨⟨hlt, hform⟩, x, hx, hset⟩ := hfirstAt f rfl
    obtain rfl : found = none := hfound.opens.mpr fun hget =>
      hbracket x hset (Option.some.inj (hx.symm.trans hget))
    have hfirstAt := (hfirstAt f rfl).1
    obtain ⟨hle, hsize⟩ := hfirstIn f rfl
    have hnestedOuter := hnested (hfound.moves (by rintro _ ⟨⟩))
    have hfirstOuter (hclean : l.Clean f.nodes) :
        Chooses l.outer setChar (i + l.shift) (some (f.shift l.shift)) :=
      hfirstPasses (.of_get hx) (by rintro _ ⟨⟩; exact hclean)
    have hsingle (hrange : Chooses l.inner (.sequence rangeEntries) i none)
        (hrangeOuter : l.SetEnd f.stop → l.Clean f.nodes →
          Chooses l.outer (.sequence rangeEntries) (i + l.shift) none) :
        l.Picks (Chooses l.inner setItem i) (l.ItemFound i) i := by
      refine ⟨_, choose_item (hnested hR) hrange (single_found hfirst), ?_, ?_, by rintro ⟨⟩, ?_⟩
      · rintro _ ⟨⟩
        exact ⟨hle, hsize⟩
      · rintro _ ⟨⟩ hend hclean
        exact choose_item hnestedOuter (hrangeOuter hend hclean.children)
          (single_found (hfirstOuter hclean.children))
      · rintro _ ⟨⟩
        refine ⟨hlt, fun hsound set hset => ?_⟩
        obtain ⟨escaped, hescaped⟩ := read_single hset
        exact .typed (hfirstAt.clean hsound.children hescaped) (by decide) (by decide)
    by_cases hhyphen : l.inner[f.stop]? = some '-'
    · have hlt' : f.stop < l.inner.size := (Array.getElem?_eq_some_iff.mp hhyphen).1
      have hhyphenOuter := (l.same _ hlt').trans hhyphen
      obtain ⟨second, hsecond, hsecondIn, hsecondPasses, hsecondAt⟩ := hcharacter (f.stop + 1) hlt'
      rw [Nat.add_right_comm] at hsecondPasses
      have hrange := range_found hfirst hhyphen hsecond
      have hrangeOuter (hclean : l.Clean f.nodes)
          (h : Chooses l.outer setChar (f.stop + l.shift + 1) (second.map (.shift l.shift))) :=
        range_found (hfirstOuter hclean) hhyphenOuter h
      cases second with
      | none => exact hsingle hrange fun hend hclean =>
          hrangeOuter hclean (hsecondPasses (.of_lt (hend.2 hhyphen)) (by rintro _ ⟨⟩))
      | some g =>
        have hsecondAt := (hsecondAt g rfl).1
        have hgreater : f.stop < g.stop := Nat.lt_trans (Nat.lt_succ_self _) hsecondAt.lt
        have hlonger (s r : Found) (hlt : s.stop < r.stop) :
            longer (longer (some s) (some r)) none = some r := by
          simp only [longer, further, hlt, if_true]
        have hitem := choose_item (hnested hR) hrange (single_found hfirst)
        rw [Option.map_some, Option.map_some, Option.map_none,
          hlonger _ _ (by exact hgreater)] at hitem
        refine ⟨_, hitem, ?_, ?_, by rintro ⟨⟩, ?_⟩
        · rintro _ ⟨⟩
          exact ⟨Nat.le_of_lt (Nat.lt_trans hlt hgreater), (hsecondIn g rfl).2⟩
        · rintro _ ⟨⟩ - hclean
          have hfrom : l.Clean f.nodes := (AllNodes.cons_iff.mp hclean).1.children
          have hto : l.Clean g.nodes :=
            (AllNodes.cons_iff.mp (AllNodes.cons_iff.mp hclean).2).2.children
          have hwithin := Nat.lt_of_lt_of_le hsecondAt.lt (hsecondIn g rfl).2
          have hsecondOuter := hsecondPasses (.of_lt hwithin) (by rintro _ ⟨⟩; exact hto)
          have houter := choose_item hnestedOuter (hrangeOuter hfrom hsecondOuter)
            (single_found (hfirstOuter hfrom))
          rw [Option.map_some, Option.map_some, Option.map_some, Option.map_none, Option.map_none,
            hlonger _ _ (by exact Nat.add_lt_add_right hgreater l.shift)] at houter
          simpa only [Found.shift, Node.shiftAll, Node.shift, setCharNode, Node.leaf,
            Nat.add_right_comm f.stop 1 l.shift] using houter
        · rintro _ ⟨⟩
          refine ⟨Nat.lt_trans hlt hgreater, fun hsound set hset => ?_⟩
          obtain ⟨⟨lo, hlo⟩, hi, hhi⟩ := read_range hset
          have hfrom : Sound f.nodes := (AllNodes.cons_iff.mp hsound).1.children
          have hto : Sound g.nodes :=
            (AllNodes.cons_iff.mp (AllNodes.cons_iff.mp hsound).2).2.children
          refine AllNodes.cons_iff.mpr ⟨?_, AllNodes.cons_iff.mpr ⟨?_, ?_⟩⟩
          · exact Clean.typed (hfirstAt.clean hfrom hlo) (by decide) (by decide)
          · exact (Untyped.leaf _ _).clean
          · exact Clean.typed (hsecondAt.clean hto hhi) (by decide) (by decide)
    · refine hsingle (range_no_hyphen hfirst hhyphen) fun hend hclean =>
        range_no_hyphen (hfirstOuter hclean) ?_
      exact fun hget => hhyphen ((l.same _ hend.1).symm.trans hget)

/-! ## Parts and sets -/

variable (l) in
/-- Nodes without errors are clean if they can be read. -/
def ReadClean {α : Type} (read : List Node → Except GrammarError α) (nodes : List Node) : Prop :=
  Sound nodes → ∀ result, read nodes = .ok result → l.Clean nodes

theorem ReadClean.append {α : Type} {read : List Node → Except GrammarError α}
    {nodes later : List Node} (hread : ∀ result, read (nodes ++ later) = .ok result →
      (∃ result, read nodes = .ok result) ∧ ∃ result, read later = .ok result)
    (h : l.ReadClean read nodes) (h' : l.ReadClean read later) :
    l.ReadClean read (nodes ++ later) := by
  intro hsound result hresult
  obtain ⟨⟨_, hhere⟩, _, hlater⟩ := hread result hresult
  obtain ⟨hsoundHere, hsoundLater⟩ := AllNodes.append_iff.mp hsound
  exact AllNodes.append_iff.mpr ⟨h hsoundHere _ hhere, h' hsoundLater _ hlater⟩

section

variable (hset : ∀ j, i ≤ j → j ≤ l.inner.size →
  l.Yields (Attempts l.inner (category "charSet") j) (l.SetFound j) j)

include hset

theorem items_yield (hi : i ≤ l.inner.size) :
    l.Yields (Repeats l.inner (many (category "setItem")) 0 i) (fun found => ∃ m, found = some m ∧
      l.MovesIf l.SetEnd (Repeats l.outer (many (category "setItem")) 0 (i + l.shift)) (some m) ∧
      l.ReadClean (readMembers l.vocabulary l.inner) m.nodes) i := by
  have hentry : (many (category "setItem")).MatchedBy patternTypes
      (some ⟨Builtin.constant "setItem" setItem, none⟩) setItem :=
    (category_matched rfl).quantified rfl
  have hone (j : Nat) (hij : i ≤ j) (hj : j ≤ l.inner.size) : l.Yields
      (Attempts l.inner (many (category "setItem")) j) (fun found =>
        (∀ m ∈ found, l.SetEnd m.stop → l.Clean m.nodes → Steps l.outer
          (many (category "setItem")) (j + l.shift) (m.shift l.shift)) ∧
        (found = none → l.Agrees j →
          Attempts l.outer (many (category "setItem")) (j + l.shift) none) ∧
        ∀ m ∈ found, j < m.stop ∧ l.ReadClean (readMembers l.vocabulary l.inner) m.nodes) j := by
    refine (setItem_picks hj (hset j hij hj)).attempts hentry rfl fun found h =>
      ⟨fun m hm hend hclean => ?_, fun hnone hagree => ?_, fun m hm => ?_⟩
    · obtain ⟨f, hf, rfl⟩ := Option.map_eq_some_iff.mp hm
      have hmoved := h.moves f hf hend hclean.children
      have houter : Chooses l.outer setItem (j + l.shift) ((some f).map (.shift l.shift)) := hmoved
      exact attempts_shift hentry rfl houter
    · have hfound := h.stops (Option.map_eq_none_iff.mp hnone) hagree
      exact Attempts.at_once hentry rfl hfound
    · obtain ⟨f, hf, rfl⟩ := Option.map_eq_some_iff.mp hm
      obtain ⟨hlt, hclean⟩ := h.clean f hf
      refine ⟨hlt, fun hsound sets hsets => ?_⟩
      have hitem : ∃ set, readItemNode l j f.stop f.nodes = .ok set := by
        have hread : readMembers l.vocabulary l.inner [categoryNode "setItem" j f.stop f.nodes] =
          (readItemNode l j f.stop f.nodes >>= _) := rfl
        obtain ⟨set, hset, -⟩ := ok_of_bind (hread.symm.trans hsets)
        exact ⟨set, hset⟩
      obtain ⟨set, hitem⟩ := hitem
      exact .typed (hclean hsound.children set hitem) (by decide) (by decide)
  refine (many_yields rfl rfl hone (fun j m hm => (hm.2.2 m rfl).1) hi 0).mono fun found _ h => ?_
  obtain ⟨j, nodes, rfl, hnone, hchain⟩ := h
  refine ⟨_, rfl, ?_, ?_⟩
  · rintro m ⟨⟩ hend hclean
    have houter := chain_moves (T := Steps l.outer (many (category "setItem"))) hchain
      (fun _ _ => SetEnd.mono) (fun j m hm _ hend hclean => hm.1.1 m rfl hend hclean) hend hclean
    exact Repeats.chain rfl rfl houter (hnone.2.1 rfl hend.agrees) 0
  · exact hchain.nodes_all (fun _ _ _ => .nil)
      (fun _ _ => .append fun _ => readMembers_append) fun j m hm _ => (hm.1.2.2 m rfl).2

/-- The node of a part. -/
def partNode (i stop : Nat) (children : List Node) : Node :=
  ⟨some "part", none, none, i, stop, children⟩

theorem part_yields (hi : i ≤ l.inner.size) :
    l.Yields (Repeats l.inner ((group [many (category "setItem")]).named "part") 0 i)
      (fun found => ∃ m, found = some m ∧
        l.MovesIf l.SetEnd (Repeats l.outer ((group [many (category "setItem")]).named "part") 0
          (i + l.shift)) (some m) ∧
        (∃ children, m.nodes = [partNode i m.stop children]) ∧
        l.ReadClean (readParts l.vocabulary l.inner) m.nodes) i := by
  refine (walked_yields hi ((Entry.MatchedBy.ofChecker _).named "part") rfl rfl rfl
    (last_yields (items_yield hset hi))).mono fun found _ h => ?_
  obtain ⟨m, rfl, hmoves, m', hclean, hstop, hnodes⟩ := h
  have hnode : m.nodes = [partNode i m.stop m'.nodes] := by
    rw [hnodes, hstop]
    rfl
  refine ⟨m, rfl, hmoves, ⟨m'.nodes, hnode⟩, ?_⟩
  rw [hnode]
  intro hsound sets hsets
  have hread : readParts l.vocabulary l.inner [partNode i m.stop m'.nodes] =
    (readMembers l.vocabulary l.inner m'.nodes >>= _) := rfl
  obtain ⟨members, hmembers, -⟩ := ok_of_bind (hread.symm.trans hsets)
  exact .typed (hclean hsound.children members hmembers) (by decide) (by decide)

/-- The parts of a set after the first one. -/
theorem parts_yield (hi : i ≤ l.inner.size) :
    l.Yields (Repeats l.inner (many (group [literal "&&",
        (group [many (category "setItem")]).named "part"])) 0 i) (fun found => ∃ m,
      found = some m ∧
      l.MovesIf l.SetEnd (Repeats l.outer (many (group [literal "&&",
        (group [many (category "setItem")]).named "part"])) 0 (i + l.shift)) (some m) ∧
      l.ReadClean (readParts l.vocabulary l.inner) m.nodes) i := by
  have hentry : (many (group [literal "&&", (group [many (category "setItem")]).named
      "part"])).MatchedBy patternTypes none (.sequence [literal "&&",
        (group [many (category "setItem")]).named "part"]) :=
    (Entry.MatchedBy.ofChecker _).quantified rfl
  have hone (j : Nat) (hij : i ≤ j) (hj : j ≤ l.inner.size) : l.Yields (Reads l.inner [literal "&&",
        (group [many (category "setItem")]).named "part"] j) (fun found =>
      l.MovesIf l.SetEnd (Reads l.outer [literal "&&",
        (group [many (category "setItem")]).named "part"] (j + l.shift)) found ∧
      (found = none → Reads l.outer [literal "&&",
        (group [many (category "setItem")]).named "part"] (j + l.shift) none) ∧
      ∀ m ∈ found, j < m.stop ∧ l.ReadClean (readParts l.vocabulary l.inner) m.nodes) j := by
    refine .cons (word_yields (w := ⟨'&', ['&']⟩) (by decide) hj) (fun m hle hsize hm => ?_)
      fun hnone => ⟨.none, fun _ => .stuck hnone.1, by rintro m ⟨⟩⟩
    obtain ⟨halike, hsome, -⟩ := hm
    obtain ⟨rfl, -⟩ := hsome m rfl
    refine (last_yields (part_yields (fun k hk hsize => hset k (by omega) hsize)
      hsize)).mono fun found hin h => ?_
    obtain ⟨m, rfl, hmoves, -, hclean⟩ := h
    refine ⟨MovesIf.cons (S := fun _ => True) (halike.moves.matches _) hmoves fun _ _ _ => trivial,
      by rintro ⟨⟩, ?_⟩
    rintro both ⟨⟩
    have hle : j + 2 ≤ m.stop := (hin m rfl).1
    refine ⟨show j < m.stop by omega, ?_⟩
    exact ReadClean.append (fun _ => readParts_append)
      (fun _ _ _ => (Untyped.leaf _ _).clean) hclean
  have hattempt (j : Nat) (hij : i ≤ j) (hj : j ≤ l.inner.size) : l.Yields
      (Attempts l.inner (many (group [literal "&&",
        (group [many (category "setItem")]).named "part"])) j) (fun found =>
      l.MovesIf l.SetEnd (Attempts l.outer (many (group [literal "&&",
        (group [many (category "setItem")]).named "part"])) (j + l.shift)) found ∧
      (found = none → Attempts l.outer (many (group [literal "&&",
        (group [many (category "setItem")]).named "part"])) (j + l.shift) none) ∧
      ∀ m ∈ found, j < m.stop ∧ l.ReadClean (readParts l.vocabulary l.inner) m.nodes) j := by
    obtain ⟨found, hR, hin, hmoves, hnone, hparts⟩ := hone j hij hj
    exact ⟨found, .group hentry rfl hR, hin,
      fun m hm hend hclean => .group hentry rfl (hmoves m hm hend hclean),
      fun hfound => .group hentry rfl (hnone hfound), hparts⟩
  refine (many_yields rfl rfl hattempt (fun j m hm => (hm.2.2 m rfl).1) hi 0).mono
    fun found _ h => ?_
  obtain ⟨j, nodes, rfl, hnone, hchain⟩ := h
  refine ⟨_, rfl, ?_, ?_⟩
  · rintro m ⟨⟩ hend hclean
    have houter := chain_moves (T := Steps l.outer (many (group [literal "&&",
        (group [many (category "setItem")]).named "part"]))) hchain
      (fun _ _ => SetEnd.mono) (fun j m hm _ hend hclean => hm.1.1 m rfl hend hclean) hend hclean
    exact Repeats.chain rfl rfl houter (hnone.2.1 rfl) 0
  · exact hchain.nodes_all (fun _ _ _ => .nil)
      (fun _ _ => .append fun _ => readParts_append) fun j m hm _ => (hm.1.2.2 m rfl).2

/-- All the parts of a set. -/
theorem setItems_yields (hi : i ≤ l.inner.size) :
    l.Yields (Repeats l.inner (category "setItems") 0 i) (fun found => ∃ m, found = some m ∧
      l.MovesIf l.SetEnd (Repeats l.outer (category "setItems") 0 (i + l.shift)) (some m) ∧
      ∃ children, m.nodes = [categoryNode "setItems" i m.stop children] ∧
        l.ReadClean (readParts l.vocabulary l.inner) children) i := by
  have hread : l.Yields (Reads l.inner [(group [many (category "setItem")]).named "part",
      many (group [literal "&&", (group [many (category "setItem")]).named "part"])] i)
      (fun found => ∃ m, found = some m ∧
        l.MovesIf l.SetEnd (Reads l.outer [(group [many (category "setItem")]).named "part",
          many (group [literal "&&", (group [many (category "setItem")]).named "part"])]
          (i + l.shift)) (some m) ∧ l.ReadClean (readParts l.vocabulary l.inner) m.nodes) i := by
    refine .cons (part_yields hset hi) (fun m hle hsize hm => ?_) (by rintro ⟨m, ⟨⟩, -⟩)
    obtain ⟨_, ⟨⟩, hmoves, -, hclean⟩ := hm
    refine (last_yields (parts_yield (fun k hk hsize => hset k (by omega) hsize)
      hsize)).mono fun found hin h => ?_
    obtain ⟨last, rfl, hlastMoves, hlastClean⟩ := h
    refine ⟨_, rfl, hmoves.cons hlastMoves fun last' hlast hend => ?_, hclean.append
      (fun _ => readParts_append) hlastClean⟩
    obtain rfl := Option.some.inj hlast
    exact hend.mono (hin _ rfl).1
  refine (walked_yields hi (category_matched (by rfl)) rfl rfl rfl hread).mono fun found _ h => ?_
  obtain ⟨m, rfl, hmoves, m', hclean, hstop, hnodes⟩ := h
  refine ⟨m, rfl, hmoves, m'.nodes, ?_, hclean⟩
  rw [hnodes, hstop]
  rfl

end

/-- Nodes without a type hold no items. -/
theorem readItems_untyped {nodes later : List Node} (h : Untyped nodes) :
    readItems l.vocabulary l.inner (nodes ++ later) = readItems l.vocabulary l.inner later := by
  induction nodes with
  | nil => rfl
  | cons node nodes ih =>
    have htype : node.typeName = none := h.head
    obtain ⟨name, typeName, param, start, stop, children⟩ := node
    obtain rfl : typeName = none := htype
    exact ih (AllNodes.cons_iff.mp h).2

/-- What follows the bracket of a set. -/
theorem set_content_yields (hset : ∀ j, i ≤ j → j ≤ l.inner.size →
      l.Yields (Attempts l.inner (category "charSet") j) (l.SetFound j) j)
    (hi : i ≤ l.inner.size) :
    l.Yields (Reads l.inner [optional ((char '^').named "negate"), .ofChecker (orFatal (.sequence
        [category "setItems", char ']']) "Malformed character set")] i) (fun found =>
      ∃ m, found = some m ∧
        l.Moves (Reads l.outer [optional ((char '^').named "negate"), .ofChecker (orFatal (.sequence
          [category "setItems", char ']']) "Malformed character set")] (i + l.shift)) (some m) ∧
        (Sound m.nodes → ∀ parts, readItems l.vocabulary l.inner m.nodes = .ok parts →
          l.Clean m.nodes)) i := by
  have hnegate : (optional ((char '^').named "negate")).MatchedBy patternTypes none
      (.char (.single '^')) := ((Entry.MatchedBy.ofChecker _).named _).quantified rfl
  have hend : ∀ j, l.inner[j]? = some ']' → l.SetEnd j := by
    intro j hget
    refine ⟨(Array.getElem?_eq_some_iff.mp hget).1, fun hhyphen => ?_⟩
    rw [hget] at hhyphen
    cases hhyphen
  refine .cons (optional_char_yields _ hnegate rfl rfl (by decide) hi) (fun m hle hsize hm => ?_)
    (by rintro ⟨-, m, ⟨⟩, -⟩)
  obtain ⟨hsteady, -⟩ := hm
  have hitems := setItems_yields (fun k hk hsize => hset k (by omega) hsize) hsize
  refine (or_fatal_yields "Malformed character set" hsize
    (closed_yields (by decide) hend hitems)).last.mono fun found _ h => ?_
  obtain ⟨last, rfl, hmoves, hP⟩ := h
  have hlastMoves : l.Moves (Reads l.outer [.ofChecker (orFatal (.sequence
      [category "setItems", char ']']) "Malformed character set")] (m.stop + l.shift))
      (some last) := fun hclean => .last (hmoves (hclean _ rfl))
  refine ⟨_, rfl, .cons_alike hsteady.alike hlastMoves, fun hsound parts hparts => ?_⟩
  have huntyped := hsteady.untyped m rfl
  have hlast := (AllNodes.append_iff.mp hsound).2
  obtain ⟨m', rfl, ⟨children, hnodes, hread⟩, -⟩ := hP hlast
  rw [Match.after, readItems_untyped huntyped, hnodes] at hparts
  simp only [hnodes] at hlast
  have hchildren : l.Clean children := hread (AllNodes.append_iff.mp hlast).1.children parts hparts
  refine AllNodes.append_iff.mpr ⟨huntyped.clean, ?_⟩
  simp only [hnodes]
  exact AllNodes.append_iff.mpr
    ⟨Clean.typed hchildren (by decide) (by decide), (Untyped.leaf _ _).clean⟩

theorem charSet_yields (hi : i ≤ l.inner.size) :
    l.Yields (Attempts l.inner (category "charSet") i) (l.SetFound i) i := by
  -- Sets inside of a set begin after its bracket.
  suffices hleft : ∀ left i, i ≤ l.inner.size → l.inner.size < i + left →
      l.Yields (Attempts l.inner (category "charSet") i) (l.SetFound i) i from
    hleft (l.inner.size + 1) i hi (by omega)
  intro left
  induction left with
  | zero => intro i hi hlt; omega
  | succ left ih =>
  intro i hi hlt
  have hset (j : Nat) (hij : i + 1 ≤ j) (hj : j ≤ l.inner.size) := ih j hj (by omega)
  have hentry : (category "charSet").MatchedBy patternTypes
      (some ⟨Builtin.constant "charSet" charSet, none⟩) charSet := category_matched (by rfl)
  have hread : l.Yields (Reads l.inner [char '[', optional ((char '^').named "negate"),
      .ofChecker (orFatal (.sequence [category "setItems", char ']']) "Malformed character set")] i)
      (fun found =>
        l.Moves (Reads l.outer [char '[', optional ((char '^').named "negate"), .ofChecker (orFatal
          (.sequence [category "setItems", char ']']) "Malformed character set")] (i + l.shift))
          found ∧
        (found = none ↔ l.inner[i]? ≠ some '[') ∧
        ∀ m ∈ found, i < m.stop ∧ (Sound m.nodes → ∀ parts,
          readItems l.vocabulary l.inner m.nodes = .ok parts → l.Clean m.nodes)) i := by
    refine .cons (single_yields (by decide) hi) (fun m hle hsize hm => ?_) fun hnone => ?_
    · obtain ⟨halike, hhere, -⟩ := hm
      obtain ⟨rfl, hget⟩ := hhere m rfl
      refine (set_content_yields hset hsize).mono fun found hin hfound => ?_
      obtain ⟨m, rfl, hmoves, hclean⟩ := hfound
      refine ⟨.cons_alike halike hmoves, iff_of_false (by rintro ⟨⟩) (not_not.mpr hget), ?_⟩
      rintro both ⟨⟩
      refine ⟨(hin m rfl).1, fun hsound parts hparts => ?_⟩
      exact AllNodes.append_iff.mpr ⟨(Untyped.leaf _ _).clean,
        hclean (AllNodes.append_iff.mp hsound).2 parts hparts⟩
    · exact ⟨fun _ => .stuck hnone.1, iff_of_true rfl (hnone.2.2 rfl), by rintro m ⟨⟩⟩
  refine Yields.attempts hentry hread fun found h =>
    ⟨h.1.grammar rfl hentry, Option.map_eq_none_iff.trans h.2.1, fun both hboth => ?_⟩
  obtain ⟨m, hm, rfl⟩ := Option.map_eq_some_iff.mp hboth
  obtain ⟨hlt, hclean⟩ := h.2.2 m hm
  refine ⟨hlt, m.nodes, rfl, fun hsound set hset => ?_⟩
  obtain ⟨parts, hparts, -⟩ := ok_of_bind hset
  exact hclean hsound parts hparts

end Inlay

end TextGrammar.Pattern
