/-
References back to captured text. A reference reads what it refers to in the
middle of a search, from the nodes completed so far, some of which are dropped
or take another place before the search ends. In the tree it ends with, what a
reference has matched is still the text of the last node of that name to its
left.
-/
import Mathlib
import TextGrammar.Proofs.PlacedSearch
import TextGrammar.Proofs.Texts
import TextGrammar.Proofs.Registrations

namespace TextGrammar

/-! ## The built-in types -/

namespace Builtin

theorem caseInsensitive_every (chars : List Char) :
    (caseInsensitive chars).Every Entry.HasChecker fun _ => False := by
  have heach (cs : List Char) : Entry.EveryOf Entry.HasChecker (fun _ => False)
      (cs.map fun c => .ofChecker (.char (anyCase c))) := by
    induction cs with
    | nil => trivial
    | cons c cs ih => exact ⟨⟨⟨_, rfl⟩, trivial, trivial⟩, ih⟩
  match chars with
  | [] | [_] => trivial
  | c :: d :: cs => exact heach (c :: d :: cs)

theorem literal_every (chars : List Char) :
    (Checker.literal chars).Every Entry.HasChecker fun _ => False := by
  cases chars <;> trivial

theorem identifierChecker_every :
    identifierChecker.Every Entry.HasChecker fun _ => False :=
  ⟨⟨⟨_, rfl⟩, trivial, trivial⟩, ⟨⟨_, rfl⟩, trivial, trivial⟩, trivial⟩

theorem stringLiteralChecker_every :
    stringLiteralChecker.Every Entry.HasChecker fun _ => False := by
  have hquote : (singleEntry '"').Every Entry.HasChecker fun _ => False :=
    ⟨⟨_, rfl⟩, trivial, trivial⟩
  have hescaped : Entry.EveryOf Entry.HasChecker (fun _ => False)
      [singleEntry '\\', .ofChecker (.anyOf 1)] :=
    ⟨⟨⟨_, rfl⟩, trivial, trivial⟩, ⟨⟨_, rfl⟩, trivial, trivial⟩, trivial⟩
  exact ⟨hquote, ⟨⟨_, rfl⟩, ⟨⟨hescaped, trivial, trivial⟩, trivial⟩, trivial⟩, hquote, trivial⟩

/-- The built-in types give checkers that need neither types nor columns. -/
theorem every_of_mem_all {type : ParserType} (h : type ∈ all) :
    type.Every Entry.HasChecker fun _ => False := by
  have hbackref (name : String) (given : List Char → Checker)
      (hgiven : ∀ chars, (given chars).Every Entry.HasChecker fun _ => False) :
      (backrefWith name given).Every Entry.HasChecker fun _ => False := by
    intro vocabulary host param
    cases param with
    | none => trivial
    | some capture =>
      simp only
      cases host.lastNamed? capture with
      | none => exact ⟨trivial, trivial⟩
      | some found => exact hgiven _
  simp only [all, List.mem_cons, List.not_mem_nil, or_false] at h
  rcases h with rfl | rfl | rfl | rfl | rfl | rfl | rfl | rfl
  · exact fun _ _ _ => identifierChecker_every
  · exact fun _ _ _ => stringLiteralChecker_every
  · intro vocabulary host param
    cases param with
    | none => trivial
    | some text => exact caseInsensitive_every _
  · exact fun _ _ _ => identifierChecker_every
  · exact hbackref "backref" .literal literal_every
  · exact hbackref "backrefCI" caseInsensitive caseInsensitive_every
  · exact fun _ _ _ => trivial
  · exact fun _ _ _ => trivial

theorem eq_backref_of_name {type : ParserType} (h : type ∈ all) (hname : type.name = "backref") :
    type = backref := by
  simp only [all, List.mem_cons, List.not_mem_nil, or_false] at h
  rcases h with rfl | rfl | rfl | rfl | rfl | rfl | rfl | rfl
  case inr.inr.inr.inr.inl => rfl
  all_goals exact absurd hname (by decide)

end Builtin

namespace TypeRegistry

theorem standard_find {name : String} {type : ParserType}
    (h : standard.env.find? name = some type) : type ∈ Builtin.all ∧ type.name = name := by
  have hkeeps := (withClasses_keeps .standard).offer Builtin.all
  have h : Builtin.all.find? (·.name == name) = some type := hkeeps.find?_eq.symm.trans h
  exact ⟨List.mem_of_find?_eq_some h, by simpa using List.find?_some h⟩

theorem standard_built : standard.env.Built where
  found name type h := by
    have hevery := Builtin.every_of_mem_all (standard_find h).1
    exact ParserType.Every.combine (fun _ _ _ => trivial) (fun _ hc _ => hc.elim) hevery hevery
  compiled _ _ h := nomatch h

end TypeRegistry

/-! ## Nodes of references -/

/-- A node of a reference back has a parameter, there is a node of that name to its left, and both
have the same text. -/
def Node.RefersBack (text : Text) (left : List Node) (node : Node) : Prop :=
  node.typeName = some "backref" →
    ∃ name found, node.param = some name ∧ left.find? (·.name == some name) = some found ∧
      text.slice node.start node.stop = text.slice found.start found.stop

/-- The entry matches with a checker of its own or with a type it refers to by name. -/
def Entry.HasNoHeldType (entry : Entry) : Prop := entry.Refers fun _ => True

variable {L : Type} [FailureLog L] {setting : Setting} {offset stop : Nat} {text : Text}

/-- What a literal matches is its text. -/
theorem Checker.literal_reaches {chars : List Char} (hoffset : offset ≤ setting.text.size)
    (h : (Checker.literal chars).Reaches L setting offset stop) :
    stop ≤ setting.text.size ∧ setting.text.slice offset stop = chars.toArray := by
  cases chars with
  | nil =>
    obtain ⟨run, found, failures, hfound, rfl⟩ := h
    cases hfound
    have hslice : setting.text.slice offset offset = #[] := by
      apply Array.toList_inj.mp
      rw [Text.toList_slice, Nat.sub_self, List.take_zero]
    exact ⟨hoffset, hslice⟩
  | cons c cs =>
    obtain ⟨run, found, failures, hfound, rfl⟩ := h
    have hword : (Checker.word ⟨c, cs⟩).foundAt run setting offset =
        .ok (.of ((Word.lengthAt ⟨c, cs⟩ setting.text offset).map
          fun n => ⟨offset + n, [], false⟩)) := rfl
    have hfound : (Checker.word ⟨c, cs⟩).foundAt run setting offset = .ok ⟨some found, failures⟩ :=
      hfound
    rw [hword] at hfound
    obtain ⟨n, hlength, rfl⟩ := Option.map_eq_some_iff.mp
      (congrArg Seen.value (Except.ok.inj hfound))
    refine ⟨Word.lengthAt_within hoffset hlength, ?_⟩
    simp only [Word.lengthAt] at hlength
    split at hlength
    · next hhas =>
      obtain rfl := Option.some.inj hlength
      exact Text.slice_of_hasAt hhas
    · cases hlength

/-- Nothing is found where there is no choice. -/
theorem Checker.never_reaches (h : Checker.never.Reaches L setting offset stop) : False := by
  obtain ⟨run, found, failures, hfound, _⟩ := h
  cases hfound

/-- **A reference matches what it refers to**: the text of the last node of that name to its
left. -/
theorem Builtin.backref_reaches {types : TypeEnv} (within : setting.Within types text offset)
    {param : Option String} {c : Checker}
    (hsupply : types.supply ⟨setting.text, offset, setting.outer⟩ param Builtin.backref =
      .ok (.ok c))
    (hreaches : c.Reaches L setting offset stop) :
    ∃ name found, param = some name ∧
      (Trail.leftOf setting.outer).find? (·.name == some name) = some found ∧
        text.slice offset stop = text.slice found.start found.stop := by
  cases param with
  | none => cases hsupply
  | some name =>
    have hfind := Host.lastNamed?_eq_find? ⟨setting.text, offset, setting.outer⟩ name
    simp only [Builtin.backref, Builtin.backrefWith, TypeEnv.supply] at hsupply
    cases hlast : Host.lastNamed? ⟨setting.text, offset, setting.outer⟩ name with
    | none =>
      rw [hlast] at hsupply
      cases hsupply
      exact (Checker.never_reaches hreaches).elim
    | some ref =>
      rw [hlast] at hsupply hfind
      cases hsupply
      obtain ⟨found, hfound, heq⟩ := Option.map_eq_some_iff.mp hfind.symm
      obtain ⟨htext, rfl⟩ := Prod.mk.inj heq
      obtain ⟨hstop, hslice⟩ := Checker.literal_reaches within.start hreaches
      refine ⟨name, ref.node, rfl, hfound, ?_⟩
      -- What is referred to lies before the reference, so both lie in the beginning of the text.
      obtain ⟨_, hbefore⟩ := within.left_within ref.node (List.mem_of_find?_eq_some hfound)
      have hwhole {a b : Nat} (hb : b ≤ setting.text.size) :
          setting.text.slice a b = text.slice a b := by
        rw [within.beginning, Text.slice_beginning hb]
      have htext : setting.text = ref.text := htext
      rw [← hwhole hstop, hslice, ← hwhole (Nat.le_trans hbefore within.start), htext]
      rfl

theorem TypeRegistry.standard_places (text : Text) :
    standard.env.Places L text (fun _ => True) (Node.RefersBack text) where
  untyped left node hnone htyped := by
    rw [hnone] at htyped
    cases htyped
  named name type h := (standard_find h).2
  supplied use huse host c hsupply := by
    obtain ⟨name, _, hfind⟩ := huse
    have hevery := Builtin.every_of_mem_all (standard_find hfind).1
    obtain ⟨type, param⟩ := use
    cases type with
    | pattern name text cell => cases hsupply
    | computed name hostDependent supply accepts evaluate =>
      have hgiven := hevery standard.env.vocabulary host param
      have hsupply : supply standard.env.vocabulary host param = .ok c := Except.ok.inj hsupply
      rw [hsupply] at hgiven
      exact Checker.Every.combine (fun _ he _ => he.refers _) (fun _ hc _ => hc.elim) hgiven hgiven
  typed := by
    intro use huse host c hsupply setting offset within hhost stop hreaches name children htyped
    obtain ⟨found, _, hfind⟩ := huse
    obtain ⟨type, param⟩ := use
    have hname : type.name = "backref" := Option.some.inj htyped
    obtain rfl := Builtin.eq_backref_of_name (standard_find hfind).1 hname
    rw [hhost rfl] at hsupply
    exact Builtin.backref_reaches within hsupply hreaches

/-! ## Trees -/

namespace Grammar

variable {g : Grammar} {fuel : Nat}

/-- In the tree that a grammar matches from an offset, references match what they refer to. -/
theorem matchFrom_refersBack (built : g.Built) (refs : g.Every Entry.HasNoHeldType fun _ => True)
    (fits : text.size < maxCount) {mode : Mode} {start : Nat} (hstart : start ≤ text.size)
    {tree : MatchTree}
    (h : g.matchFrom fuel TypeRegistry.standard.env text mode start = .ok tree) :
    Node.Placed (Node.RefersBack text) [] tree.root := by
  have hevery : g.Every (Entry.Refers fun _ => True) Region.AreColumns := built.both refs
  have hfits := TypeRegistry.standard_built.setting_fits fits hstart
  have within : Setting.Within TypeRegistry.standard.env text
      (TypeRegistry.standard.env.setting text) start :=
    ⟨hfits, rfl, Array.extract_size.symm⟩
  have hrun := Machine.run_placed (L := Option Failure) (TypeRegistry.standard_places text) fuel
    within mode (Machine.tidy_start built hstart) (Machine.placed_start hevery)
  simp only [Grammar.matchFrom] at h
  split at h
  · cases h
  · next m failures hsearch =>
    cases h
    exact ⟨fun htyped => (nomatch htyped), hrun _ hsearch m rfl⟩
  · cases h

/-- **References back see only what stays.** Whatever a search has tried on its way, in the tree of
a successful match, whether of a beginning of the text, of all of it or of the first place that
matches, each node of a reference back has the text of the last node of that name to its left, and
there is one. -/
theorem references_see_what_stays (built : g.Built)
    (refs : g.Every Entry.HasNoHeldType fun _ => True) (fits : text.size < maxCount)
    {tree : MatchTree}
    (h : g.parse fuel TypeRegistry.standard.env text = .ok tree ∨
      g.matchWhole fuel TypeRegistry.standard.env text = .ok tree ∨
      g.find fuel TypeRegistry.standard.env text = .ok tree) :
    Node.Placed (Node.RefersBack text) [] tree.root := by
  rcases h with h | h | h
  · exact matchFrom_refersBack built refs fits (Nat.zero_le _) h
  · exact matchFrom_refersBack built refs fits (Nat.zero_le _) h
  · have hfrom : ∀ (count start : Nat) (furthest : Option Unmatched),
        start + count = text.size + 1 →
          findFrom fuel TypeRegistry.standard.env text g count start furthest = .ok tree →
            Node.Placed (Node.RefersBack text) [] tree.root := by
      intro count
      induction count with
      | zero => exact fun _ _ _ h => nomatch h
      | succ count ih =>
        intro start furthest hcount h
        simp only [findFrom] at h
        split at h
        · exact ih (start + 1) _ (by omega) h
        · exact matchFrom_refersBack built refs fits (by omega) h
    exact hfrom (text.size + 1) 0 none (Nat.zero_add _) h

/-- Some `a` under a name, the same again, and a `b`. -/
def twice : Grammar :=
  ⟨[(Entry.ofChecker (.sequence
      [(Entry.ofChecker (.single 'a')).quantified ⟨1, none, .maximum⟩])).named "as",
    .ref "backref" (some "as"),
    .ofChecker (.single 'b')]⟩

/-- What it matches in `aab`, once it has given back the second `a` that was captured first. -/
def twiceTree : MatchTree :=
  .ofNodes #['a', 'a', 'b'] 0 3
    [{ name := some "as", start := 0, stop := 1, children := [.leaf 0 1] },
      { typeName := some "backref", param := some "as", start := 1, stop := 2 },
      .leaf 2 3]

theorem twice_parse :
    twice.Built ∧ twice.Every Entry.HasNoHeldType (fun _ => True) ∧
      twice.parse 20 TypeRegistry.standard.env #['a', 'a', 'b'] = .ok twiceTree ∧
      Node.Placed (Node.RefersBack #['a', 'a', 'b']) [] twiceTree.root := by
  have built : twice.Built :=
    ⟨⟨trivial, ⟨⟨trivial, trivial, trivial⟩, trivial⟩, trivial⟩, ⟨trivial, trivial, trivial⟩,
      ⟨trivial, trivial, trivial⟩, trivial⟩
  have refs : twice.Every Entry.HasNoHeldType fun _ => True :=
    ⟨⟨trivial, ⟨⟨trivial, trivial, trivial⟩, trivial⟩, trivial⟩, ⟨trivial, trivial, trivial⟩,
      ⟨trivial, trivial, trivial⟩, trivial⟩
  have fits : #['a', 'a', 'b'].size < maxCount := by decide
  have parses : twice.parse 20 TypeRegistry.standard.env #['a', 'a', 'b'] = .ok twiceTree := by cbv
  exact ⟨built, refs, parses, references_see_what_stays built refs fits (.inl parses)⟩

end Grammar

end TextGrammar
