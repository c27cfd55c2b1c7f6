/-
Matching the beginning of a text and matching the whole of it. The two searches
are one search up to the first match of the outermost grammar: only there does
a search look at how much of the text it has to take. So they come to the same,
an error and the failure it reports included, unless that match is short of the
end of the text; and then it is the search of the whole text that goes on.
-/
import TextGrammar.Types.Registry

namespace TextGrammar

variable {L : Type} [FailureLog L] {setting : Setting}

/-- What comes of the whole of a text is what comes of its beginning, or that is short. -/
def AgreesUnless {ε α : Type} (short : α → Prop) (beginning whole : Except ε α) : Prop :=
  whole = beginning ∨ ∃ a, beginning = .ok a ∧ short a

namespace AgreesUnless

variable {ε α β : Type} {short : α → Prop} {short' : β → Prop} {beginning whole : Except ε α}

/-- An error is the same error in both. -/
theorem of_error (h : AgreesUnless short beginning whole) {e : ε} (he : beginning = .error e) :
    whole = .error e := by
  rcases h with h | ⟨a, ha, -⟩
  · exact h.trans he
  · cases ha.symm.trans he

/-- An answer that is not short is the same in both. -/
theorem of_ok (h : AgreesUnless short beginning whole) {a : α} (ha : beginning = .ok a)
    (hlong : ¬ short a) : whole = .ok a := by
  rcases h with h | ⟨b, hb, hshort⟩
  · exact h.trans ha
  · cases ha.symm.trans hb
    exact absurd hshort hlong

/-- An answer for the whole comes with an answer for the beginning. -/
theorem ok_of_ok (h : AgreesUnless short beginning whole) {a : α} (ha : whole = .ok a) :
    ∃ b, beginning = .ok b := by
  rcases h with h | ⟨b, hb, -⟩
  · exact ⟨a, h.symm.trans ha⟩
  · exact ⟨b, hb⟩

end AgreesUnless

/-! ## The search -/

/-- A match that leaves characters of the text over. -/
def Match.IsShort (text : Text) (found : Match) : Prop := found.stop ≠ text.size

/-- The end of a search at a match that leaves characters over. -/
def Step.IsShort (text : Text) : Step L → Prop
  | .next _ => False
  | .done result _ => ∃ found, result = some found ∧ found.IsShort text

/-- How much of the text has to be taken matters at the end of the outermost grammar only. -/
theorem Machine.step_agrees_unless (run : Runner L) (m : Machine L) :
    AgreesUnless (Step.IsShort setting.text) (m.step run setting .beginning)
      (m.step run setting .whole) := by
  by_cases hstop : m.offset = setting.text.size
  · left
    simp only [Machine.step, bne, hstop, beq_self_eq_true, Bool.not_true, Bool.and_false,
      Bool.false_eq_true, if_false]
  · cases hm : m.sessions with
    | nil => exact .inl (by simp only [Machine.step, hm])
    | cons top below =>
      cases hrest : top.rest with
      | cons entry rest => exact .inl (by simp only [Machine.step, hm, hrest])
      | nil =>
        cases below with
        | cons parent below => exact .inl (by simp only [Machine.step, hm, hrest])
        | nil =>
          -- the outermost grammar is at its end before the end of the text
          refine .inr ⟨.done (some ⟨m.offset, top.nodes.toList⟩) m.failures, ?_, _, rfl, hstop⟩
          simp only [Machine.step, hm, hrest]
          rfl

/-- The two searches go through the same states up to the first match. -/
theorem Machine.run_agrees_unless (fuel : Nat) (m : Machine L) :
    AgreesUnless (fun seen : Seen L (Option Match) =>
        ∃ found, seen.value = some found ∧ found.IsShort setting.text)
      (Machine.run fuel setting .beginning m) (Machine.run fuel setting .whole m) := by
  induction fuel generalizing m with
  | zero => exact .inl rfl
  | succ fuel ih =>
    simp only [Machine.run]
    have hstep : AgreesUnless (Step.IsShort setting.text) (m.step _ setting .beginning)
        (m.step _ setting .whole) :=
      Machine.step_agrees_unless (fun s md g offset => Machine.run fuel s md (.start g offset)) m
    rcases hstep with hsame | ⟨s, hs, hshort⟩
    · rw [hsame]
      cases m.step (fun s md g offset => Machine.run fuel s md (.start g offset)) setting
        .beginning with
      | error stop => exact .inl rfl
      | ok s =>
        cases s with
        | done result failures => exact .inl rfl
        | next m' => exact ih m'
    · rw [hs]
      cases s with
      | next m' => exact hshort.elim
      | done result failures => exact .inr ⟨_, rfl, hshort⟩

/-! ## Trees -/

/-- A tree that leaves characters of the text over. -/
def MatchTree.IsShort (text : Text) (tree : MatchTree) : Prop := tree.root.stop ≠ text.size

theorem Grammar.matchFrom_agrees_unless (fuel : Nat) (types : TypeEnv) (text : Text) (start : Nat)
    (g : Grammar) :
    AgreesUnless (MatchTree.IsShort text) (g.matchFrom fuel types text .beginning start)
      (g.matchFrom fuel types text .whole start) := by
  have hrun : AgreesUnless _ (searchWithin fuel (types.setting text) .beginning g start)
      (searchWithin fuel (types.setting text) .whole g start) :=
    Machine.run_agrees_unless fuel (.start g start)
  simp only [Grammar.matchFrom]
  rcases hrun with hsame | ⟨⟨value, failures⟩, hseen, found, rfl, hshort⟩
  · exact .inl (by rw [hsame])
  · rw [hseen]
    exact .inr ⟨_, rfl, hshort⟩

/-! ## Types that are compiled on the way -/

namespace TypeRegistry

/-- Both questions need the same types compiled, in the same order. -/
theorem supplying_agrees_unless {α : Type} {short : α → Prop}
    {beginning whole : TypeEnv → Except Stop α}
    (h : ∀ types, AgreesUnless short (beginning types) (whole types)) (rounds : Nat)
    (registry : TypeRegistry) :
    registry.supplying whole rounds = registry.supplying beginning rounds ∨
      ∃ a, (registry.supplying beginning rounds).1 = .ok a ∧ short a := by
  induction rounds generalizing registry with
  | zero => exact .inl rfl
  | succ rounds ih =>
    simp only [supplying]
    rcases h registry.env with hsame | ⟨a, ha, hshort⟩
    · rw [hsame]
      split
      · exact ih _
      · exact .inl rfl
    · rw [ha]
      exact .inr ⟨a, rfl, hshort⟩

/-- **A whole match agrees with a match of the beginning.** When no beginning of the text matches,
matching the whole text is the same error; when the beginning that matches is all of the text, it is
the same tree; and a text that matches as a whole has a beginning that matches. So it is however
many steps a search may take and however many types may be compiled for it; `parse` and `matchWhole`
allow `searchFuel` of both. -/
theorem matchWhole_agrees_parse (registry : TypeRegistry) (g : Grammar) (text : Text)
    (fuel rounds : Nat) :
    let begun := (registry.supplying (fun types => g.parse fuel types text) rounds).1
    let whole := (registry.supplying (fun types => g.matchWhole fuel types text) rounds).1
    (∀ stop, begun = .error stop → whole = .error stop) ∧
      (∀ tree, begun = .ok tree → tree.root.stop = text.size → whole = .ok tree) ∧
      ∀ tree, whole = .ok tree → ∃ tree', begun = .ok tree' := by
  intro begun whole
  have h : AgreesUnless (MatchTree.IsShort text) begun whole :=
    (supplying_agrees_unless (fun types => g.matchFrom_agrees_unless fuel types text 0) rounds
      registry).imp (congrArg Prod.fst) id
  exact ⟨fun _ he => h.of_error he, fun _ ht hstop => h.of_ok ht (not_not_intro hstop),
    fun _ ht => h.ok_of_ok ht⟩

/-- An `a`, and as few more as possible. -/
def fewest : Grammar := ⟨[(Entry.ofChecker (.single 'a')).quantified ⟨1, none, .minimum⟩]⟩

theorem fewest_matchWhole :
    ((standard.parse fewest #['b']).1 = .error (.refused (.unmatched ⟨0, "a", 0⟩)) ∧
        (standard.matchWhole fewest #['b']).1 = .error (.refused (.unmatched ⟨0, "a", 0⟩))) ∧
      ((standard.parse fewest #['a']).1 = .ok (.ofNodes #['a'] 0 1 [.leaf 0 1]) ∧
        (standard.matchWhole fewest #['a']).1 = .ok (.ofNodes #['a'] 0 1 [.leaf 0 1])) ∧
      (standard.matchWhole fewest #['a', 'a']).1 =
        .ok (.ofNodes #['a', 'a'] 0 2 [.leaf 0 1, .leaf 1 2]) ∧
      ∃ tree, (standard.parse fewest #['a', 'a']).1 = .ok tree := by
  have fails : (standard.parse fewest #['b']).1 = .error (.refused (.unmatched ⟨0, "a", 0⟩)) := rfl
  have parses : (standard.parse fewest #['a']).1 = .ok (.ofNodes #['a'] 0 1 [.leaf 0 1]) := rfl
  have whole : (standard.matchWhole fewest #['a', 'a']).1 =
      .ok (.ofNodes #['a', 'a'] 0 2 [.leaf 0 1, .leaf 1 2]) := rfl
  have agrees (text : Text) := matchWhole_agrees_parse standard fewest text searchFuel searchFuel
  exact ⟨⟨fails, (agrees _).1 _ fails⟩, ⟨parses, (agrees _).2.1 _ parses rfl⟩,
    whole, (agrees _).2.2 _ whole⟩

end TypeRegistry

end TextGrammar
