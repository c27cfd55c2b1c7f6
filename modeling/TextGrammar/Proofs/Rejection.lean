/-
Repeats that a secondary grammar rejects. Where the target is matched at once, a
rejected repeat is one that does not match. Where the target is walked it is
not: by the time its match is rejected, a possessive entry has already closed
the way to do without the repeat, and the whole search fails. For an optional
entry the two ways differ exactly when the entries after it match.
-/
import TextGrammar.Proofs.Refinement

open Filter (atTop)

namespace TextGrammar

/-- A nested grammar of which every match is read again, and all of it, by a second grammar. -/
def Entry.readTwice (g second : Grammar) (q : Quantifier) : Entry :=
  ((Entry.ofChecker (.grammar g)).withSecondary second).quantified q

/-- Both have the same match, or both have none. -/
def SameAnswer (a b : Except Stop MatchTree) : Prop :=
  (∃ tree, a = .ok tree ∧ b = .ok tree) ∨
    ∃ u v, a = .error (.refused (.unmatched u)) ∧ b = .error (.refused (.unmatched v))

/-- The grammar does not match all of the text, however many steps it is given. -/
def Grammar.Rejects (g : Grammar) (types : TypeEnv) (text : Text) : Prop :=
  ∃ enough, ∀ fuel ≥ enough, ∃ u,
    g.matchWhole fuel types text = .error (.refused (.unmatched u))

section

variable {types : TypeEnv} {text : Text}

theorem Grammar.answer_eq_error {start : Nat} {unmatched : Unmatched} {picked : Option Match} :
    (∃ u, Grammar.answer text start unmatched picked = .error (.refused (.unmatched u))) ↔
      picked = none := by
  cases picked with
  | none => exact ⟨fun _ => rfl, fun _ => ⟨unmatched, rfl⟩⟩
  | some m => exact ⟨fun ⟨_, h⟩ => (nomatch h), fun h => (nomatch h)⟩

theorem SameAnswer.answer (text : Text) (start : Nat) (u v : Unmatched) (picked : Option Match) :
    SameAnswer (Grammar.answer text start u picked) (Grammar.answer text start v picked) := by
  cases picked with
  | none => exact .inr ⟨u, v, rfl, rfl⟩
  | some m => exact .inl ⟨_, rfl, rfl⟩

theorem SameAnswer.answer_none {start : Nat} {u v : Unmatched} {picked : Option Match} :
    SameAnswer (Grammar.answer text start u none) (Grammar.answer text start v picked) ↔
      picked = none := by
  constructor
  · rintro (⟨tree, h, -⟩ | ⟨_, w, -, h⟩)
    · cases h
    · exact Grammar.answer_eq_error.mp ⟨w, h⟩
  · rintro rfl
    exact .answer text start u v none

/-- To be rejected is to have no outcome that takes all of the text. -/
theorem Grammar.rejects_iff {g : Grammar} (untyped : g.Untyped) (built : g.Built)
    (fits : text.size < maxCount) : g.Rejects types text ↔
      (g.outcomes Strategy.standard.opens types.classes text 0).find? (·.stop == text.size) =
        none := by
  obtain ⟨unmatched, h⟩ :=
    Grammar.matchFrom_eventually untyped built types fits (Nat.zero_le _) .whole
  obtain ⟨enough, h⟩ := Filter.eventually_atTop.mp h
  constructor
  · rintro ⟨enough', hrejects⟩
    have hmatch := h (max enough enough') (Nat.le_max_left _ _)
    obtain ⟨u, hu⟩ := hrejects (max enough enough') (Nat.le_max_right _ _)
    exact Grammar.answer_eq_error.mp ⟨u, hmatch.symm.trans hu⟩
  · intro hnone
    refine ⟨enough, fun fuel hfuel => ?_⟩
    obtain ⟨u, hu⟩ := Grammar.answer_eq_error.mpr hnone
    exact ⟨u, (h fuel hfuel).trans hu⟩

variable {g second : Grammar} {q : Quantifier} {opens : Grammar → Bool} {classes : CharClasses}

/-- An optional entry all of whose repeats are rejected: it is passed over, unless its target is
walked and has matched. -/
theorem Entry.outcomes_rejected (possessive : q.greediness = .possessive) (optional : q.lower = 0)
    (rejected : ∀ m ∈ g.outcomes opens classes text 0,
      (second.outcomes opens classes (text.slice 0 m.stop) 0).find? (·.stop == m.stop) = none) :
    (Entry.readTwice g second q).outcomes opens classes text 0 =
      if q.isZero = false ∧ opens g = true ∧ g.outcomes opens classes text 0 ≠ [] then []
      else [⟨0, []⟩] := by
  have htarget : ∀ found ∈ (Target.checker (.grammar g)).outcomes opens classes text 0,
      (second.outcomes opens classes (text.slice 0 found.stop) 0).find? (·.stop == found.stop) =
        none := by
    intro found hfound
    have : found ∈ (g.outcomes opens classes text 0).map Match.found := by
      simp only [Target.outcomes] at hfound
      split at hfound
      · exact hfound
      · exact List.mem_of_mem_take hfound
    obtain ⟨m, hm, rfl⟩ := List.mem_map.mp this
    exact rejected m hm
  have honce : (Target.outcomes opens classes (.checker (.grammar g)) text 0).filterMap
      (fun found => ((Grammar.outcomes opens classes second (text.slice 0 found.stop) 0).find?
        (·.stop == found.stop)).map fun m => (⟨found.stop, Entry.untypedNodes
          (Entry.readTwice g second q) 0 ⟨found.stop, m.nodes, true⟩⟩ : Match)) = [] := by
    refine List.filterMap_eq_nil_iff.mpr fun found hfound => ?_
    rw [htarget found hfound]
    rfl
  have hentry : Entry.readTwice g second q =
      ⟨none, .checker (.grammar g), q, some second⟩ := rfl
  rw [hentry, Entry.outcomes, Quantifier.outcomes_eq]
  cases hz : q.isZero with
  | true =>
    have hplan : q.plan 0 = .stop := by simp [Quantifier.plan, hz]
    simp only [hplan, Bool.true_eq_false, false_and, if_false]
  | false =>
    have hfull : q.isFull 0 = false := by
      simp only [Quantifier.isZero, optional, beq_self_eq_true, Bool.true_and] at hz
      cases hu : q.upper with
      | none => simp only [Quantifier.isFull, hu]
      | some n =>
        have hn : n ≠ 0 := by simpa [hu] using hz
        simp only [Quantifier.isFull, hu, decide_eq_false_iff_not]
        omega
    have hplan : q.plan 0 = .goOrStop := by
      simp [Quantifier.plan, hz, hfull, optional, possessive]
    rw [hentry] at honce
    simp only [hplan, honce, List.flatMap_nil, List.isEmpty_nil, Target.isWalked, true_and]
    cases hopens : opens g with
    | true =>
      simp only [Target.outcomes, hopens, if_true, List.isEmpty_map, true_and, List.isEmpty_iff,
        ne_eq, ite_not]
    | false => simp only [Bool.false_eq_true, if_false, if_true, false_and]

/-- The entries after it go on from where the text starts, or not at all. -/
theorem Entry.allOutcomes_rejected {rest : List Entry} (possessive : q.greediness = .possessive)
    (optional : q.lower = 0)
    (rejected : ∀ m ∈ g.outcomes opens classes text 0,
      (second.outcomes opens classes (text.slice 0 m.stop) 0).find? (·.stop == m.stop) = none) :
    Entry.allOutcomes opens classes (Entry.readTwice g second q :: rest) text 0 =
      if q.isZero = false ∧ opens g = true ∧ g.outcomes opens classes text 0 ≠ [] then []
      else Entry.allOutcomes opens classes rest text 0 := by
  simp only [Entry.allOutcomes, Entry.outcomes_rejected possessive optional rejected]
  split
  · rfl
  · have hafter : Match.after [] = id := rfl
    simp only [List.flatMap_cons, List.flatMap_nil, List.append_nil, hafter, List.map_id]

/-- **What a rejected repeat counts as.** An optional possessive entry all of whose repeats are
rejected answers like the entries after it, unless its target is walked and has matched: then there
is no match at all, whatever comes after it. -/
theorem Grammar.parse_rejected_iff {rest : List Entry} (possessive : q.greediness = .possessive)
    (optional : q.lower = 0) (untyped : g.Untyped) (built : g.Built)
    (untypedSecond : second.Untyped) (builtSecond : second.Built)
    (untypedRest : (⟨rest⟩ : Grammar).Untyped) (builtRest : (⟨rest⟩ : Grammar).Built)
    (fits : text.size < maxCount)
    (rejected : ∀ m ∈ g.outcomes Strategy.standard.opens types.classes text 0,
      second.Rejects types (text.slice 0 m.stop)) :
    ∃ enough, ∀ fuel ≥ enough,
      (SameAnswer ((⟨Entry.readTwice g second q :: rest⟩ : Grammar).parse fuel types text)
          ((⟨rest⟩ : Grammar).parse fuel types text) ↔
        q.isZero = true ∨ g.isDeterministic = some true ∨
          g.outcomes Strategy.standard.opens types.classes text 0 = [] ∨
          ∃ u, (⟨rest⟩ : Grammar).parse fuel types text = .error (.refused (.unmatched u))) ∧
      (¬ SameAnswer ((⟨Entry.readTwice g second q :: rest⟩ : Grammar).parse fuel types text)
          ((⟨rest⟩ : Grammar).parse fuel types text) →
        ∃ u, (⟨Entry.readTwice g second q :: rest⟩ : Grammar).parse fuel types text =
          .error (.refused (.unmatched u))) := by
  have untypedAll : (⟨Entry.readTwice g second q :: rest⟩ : Grammar).Untyped :=
    ⟨⟨⟨_, rfl⟩, untyped, untypedSecond⟩, untypedRest⟩
  have builtAll : (⟨Entry.readTwice g second q :: rest⟩ : Grammar).Built :=
    ⟨⟨trivial, built, builtSecond⟩, builtRest⟩
  have hrejected : ∀ m ∈ g.outcomes Strategy.standard.opens types.classes text 0,
      (second.outcomes Strategy.standard.opens types.classes (text.slice 0 m.stop) 0).find?
        (·.stop == m.stop) = none := by
    intro m hm
    have within := Grammar.outcomes_within built fits (Nat.zero_le _) m hm
    have hsize := Text.size_slice_zero within.2
    have hfits : (text.slice 0 m.stop).size < maxCount := by omega
    have := (Grammar.rejects_iff untypedSecond builtSecond hfits).mp (rejected m hm)
    rwa [hsize] at this
  have hall : Entry.allOutcomes Strategy.standard.opens types.classes
      (Entry.readTwice g second q :: rest) text 0 = _ :=
    Entry.allOutcomes_rejected possessive optional hrejected
  obtain ⟨u, hparse⟩ := Grammar.matchFrom_eventually untypedAll builtAll types fits (Nat.zero_le _)
    .beginning
  obtain ⟨v, hrest⟩ := Grammar.matchFrom_eventually untypedRest builtRest types fits (Nat.zero_le _)
    .beginning
  obtain ⟨enough, h⟩ := Filter.eventually_atTop.mp (hparse.and hrest)
  refine ⟨enough, fun fuel hfuel => ?_⟩
  obtain ⟨hparse, hrest⟩ := h fuel hfuel
  have hopens : Strategy.standard.opens g = true ↔ g.isDeterministic ≠ some true := by
    simp only [Strategy.standard, bne_iff_ne]
  simp only [Grammar.parse, hparse, hrest, Grammar.outcomes, hall, Mode.pick]
  split
  · next hclosed =>
    obtain ⟨hzero, hwalked, hmatched⟩ := hclosed
    refine ⟨?_, fun _ => ⟨u, rfl⟩⟩
    simp only [hzero, hopens.mp hwalked, hmatched, Bool.false_eq_true, false_or]
    rw [Grammar.answer_eq_error]
    exact SameAnswer.answer_none
  · next hopen =>
    have same := SameAnswer.answer text 0 u v
      (Entry.allOutcomes Strategy.standard.opens types.classes rest text 0).head?
    refine ⟨⟨fun _ => ?_, fun _ => same⟩, fun h => absurd same h⟩
    by_contra hnot
    simp only [not_or, Bool.not_eq_true] at hnot
    exact hopen ⟨hnot.1, hopens.mpr hnot.2.1, hnot.2.2.1⟩

end

/-! ### A repeat that is walked and rejected -/

/-- At least one `a`, as many as there are, some of which may be given back. -/
def Grammar.someA : Grammar :=
  ⟨[(Entry.ofChecker (.single 'a')).quantified ⟨1, none, .maximum⟩]⟩

/-- One `x`. -/
def Grammar.oneX : Grammar := ⟨[.ofChecker (.single 'x')]⟩

/-- The word `aab`. -/
def Grammar.wordAAB : Grammar := ⟨[.ofChecker (.literal ['a', 'a', 'b'])]⟩

theorem Grammar.someA_untyped : Grammar.someA.Untyped := ⟨⟨⟨_, rfl⟩, trivial, trivial⟩, trivial⟩

theorem Grammar.someA_built : Grammar.someA.Built := ⟨⟨trivial, trivial, trivial⟩, trivial⟩

theorem Grammar.oneX_untyped : Grammar.oneX.Untyped := ⟨⟨⟨_, rfl⟩, trivial, trivial⟩, trivial⟩

theorem Grammar.oneX_built : Grammar.oneX.Built := ⟨⟨trivial, trivial, trivial⟩, trivial⟩

theorem Grammar.wordAAB_untyped : Grammar.wordAAB.Untyped :=
  ⟨⟨⟨_, rfl⟩, trivial, trivial⟩, trivial⟩

theorem Grammar.wordAAB_built : Grammar.wordAAB.Built := ⟨⟨trivial, trivial, trivial⟩, trivial⟩

theorem Grammar.someA_outcomes : Grammar.someA.outcomes Strategy.standard.opens
    TypeEnv.bare.classes #['a', 'a', 'b'] 0 = [⟨2, [.leaf 0 1, .leaf 1 2]⟩, ⟨1, [.leaf 0 1]⟩] := by
  cbv

/-- What is read as some `a` is never read as one `x`. -/
theorem Grammar.oneX_rejects : ∀ m ∈ Grammar.someA.outcomes Strategy.standard.opens
    TypeEnv.bare.classes #['a', 'a', 'b'] 0,
      Grammar.oneX.Rejects .bare (Text.slice #['a', 'a', 'b'] 0 m.stop) := by
  have hrejects (text : Text) (fits : text.size < maxCount)
      (h : Grammar.oneX.outcomes Strategy.standard.opens TypeEnv.bare.classes text 0 = []) :
      Grammar.oneX.Rejects .bare text := by
    refine (Grammar.rejects_iff Grammar.oneX_untyped Grammar.oneX_built fits).mpr ?_
    rw [h]
    rfl
  have hfits (stop : Nat) : (Text.slice #['a', 'a', 'b'] 0 stop).size < maxCount :=
    Nat.lt_of_le_of_lt (Text.size_slice_le _ 0 stop) (by decide)
  rw [Grammar.someA_outcomes]
  refine List.forall_mem_cons.mpr ⟨hrejects _ (hfits 2) (by cbv), ?_⟩
  exact List.forall_mem_cons.mpr ⟨hrejects _ (hfits 1) (by cbv), by simp⟩

theorem Grammar.wordAAB_parse : ∃ enough, ∀ fuel ≥ enough,
    Grammar.wordAAB.parse fuel .bare #['a', 'a', 'b'] =
      .ok (.ofNodes #['a', 'a', 'b'] 0 3 [.leaf 0 3]) := by
  have fits : #['a', 'a', 'b'].size < maxCount := by decide
  obtain ⟨u, h⟩ := Grammar.matchFrom_eventually Grammar.wordAAB_untyped Grammar.wordAAB_built .bare
    fits (Nat.zero_le _) .beginning
  have houtcomes : Grammar.wordAAB.outcomes Strategy.standard.opens TypeEnv.bare.classes
      #['a', 'a', 'b'] 0 = [⟨3, [.leaf 0 3]⟩] := by
    cbv
  rw [houtcomes] at h
  exact Filter.eventually_atTop.mp h

/-- The repeat of some `a` is walked and matches, so that its rejection ends the search. -/
theorem Grammar.parse_readTwice_someA : ∃ enough, ∀ fuel ≥ enough,
    ¬ SameAnswer
      ((⟨Entry.readTwice .someA .oneX .zeroOrMore :: Grammar.wordAAB.entries⟩ : Grammar).parse fuel
        .bare #['a', 'a', 'b'])
      (Grammar.wordAAB.parse fuel .bare #['a', 'a', 'b']) := by
  have fits : #['a', 'a', 'b'].size < maxCount := by decide
  have possessive : Quantifier.zeroOrMore.greediness = .possessive := rfl
  have optional : Quantifier.zeroOrMore.lower = 0 := rfl
  obtain ⟨enough, h⟩ := Grammar.parse_rejected_iff possessive optional Grammar.someA_untyped
    Grammar.someA_built Grammar.oneX_untyped Grammar.oneX_built Grammar.wordAAB_untyped
    Grammar.wordAAB_built fits Grammar.oneX_rejects
  obtain ⟨enough', hword⟩ := Grammar.wordAAB_parse
  refine ⟨max enough enough', fun fuel hfuel hsame => ?_⟩
  have hword : Grammar.wordAAB.parse fuel .bare #['a', 'a', 'b'] = _ := hword fuel (by omega)
  rcases (h fuel (by omega)).1.mp hsame with hzero | hd | hnone | ⟨u, hu⟩
  · cases hzero
  · cases hd
  · rw [Grammar.someA_outcomes] at hnone
    cases hnone
  · cases hword.symm.trans hu

/-- A rejected repeat does not always count as one that does not match. -/
theorem Grammar.not_forall_parse_rejected : ¬ ∀ (g second : Grammar) (rest : List Entry)
    (q : Quantifier) (types : TypeEnv) (text : Text), q.greediness = .possessive → q.lower = 0 →
    g.Untyped → g.Built → second.Untyped → second.Built → (⟨rest⟩ : Grammar).Untyped →
    (⟨rest⟩ : Grammar).Built → text.size < maxCount →
    (∀ m ∈ g.outcomes Strategy.standard.opens types.classes text 0,
      second.Rejects types (text.slice 0 m.stop)) →
    ∃ enough, ∀ fuel ≥ enough, SameAnswer
      ((⟨Entry.readTwice g second q :: rest⟩ : Grammar).parse fuel types text)
      ((⟨rest⟩ : Grammar).parse fuel types text) := by
  intro hclaim
  have fits : #['a', 'a', 'b'].size < maxCount := by decide
  obtain ⟨enough, hsame⟩ := hclaim .someA .oneX Grammar.wordAAB.entries .zeroOrMore .bare
    #['a', 'a', 'b'] rfl rfl Grammar.someA_untyped Grammar.someA_built Grammar.oneX_untyped
    Grammar.oneX_built Grammar.wordAAB_untyped Grammar.wordAAB_built fits Grammar.oneX_rejects
  obtain ⟨enough', hword⟩ := Grammar.wordAAB_parse
  have untyped : (⟨Entry.readTwice .someA .oneX .zeroOrMore :: Grammar.wordAAB.entries⟩ :
      Grammar).Untyped :=
    ⟨⟨⟨_, rfl⟩, Grammar.someA_untyped, Grammar.oneX_untyped⟩, Grammar.wordAAB_untyped⟩
  have built : (⟨Entry.readTwice .someA .oneX .zeroOrMore :: Grammar.wordAAB.entries⟩ :
      Grammar).Built :=
    ⟨⟨trivial, Grammar.someA_built, Grammar.oneX_built⟩, Grammar.wordAAB_built⟩
  have houtcomes : (⟨Entry.readTwice .someA .oneX .zeroOrMore :: Grammar.wordAAB.entries⟩ :
      Grammar).outcomes Strategy.standard.opens TypeEnv.bare.classes #['a', 'a', 'b'] 0 = [] := by
    cbv
  obtain ⟨u, h⟩ := Grammar.matchFrom_eventually untyped built .bare fits (Nat.zero_le _) .beginning
  rw [houtcomes] at h
  obtain ⟨enough'', hparse⟩ := Filter.eventually_atTop.mp h
  let fuel := max enough (max enough' enough'')
  have hsame := hsame fuel (by omega)
  have hword : (⟨Grammar.wordAAB.entries⟩ : Grammar).parse fuel .bare #['a', 'a', 'b'] = _ :=
    hword fuel (by omega)
  have hparse : (⟨Entry.readTwice .someA .oneX .zeroOrMore :: Grammar.wordAAB.entries⟩ :
    Grammar).parse fuel .bare #['a', 'a', 'b'] = _ := hparse fuel (by omega)
  rw [hparse, hword] at hsame
  obtain ⟨tree, htree, -⟩ | ⟨_, v, -, hv⟩ := hsame
  · cases htree
  · cases hv

end TextGrammar
