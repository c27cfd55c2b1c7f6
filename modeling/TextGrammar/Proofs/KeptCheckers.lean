/-
Checkers that a search keeps. The checker of a type that does not look at the
match in progress is asked for once and kept under the name of the type and the
parameter. As long as types of one name give the same checkers, a search that
keeps them comes to the same as one that asks every type anew each time. Nothing
but the name tells types apart, though: of two types held by a grammar under one
name, the second is matched with the checker of the first.
-/
import TextGrammar.Proofs.CompiledTypes
import TextGrammar.Proofs.Questions

namespace TextGrammar

/-! ## Searches that ask every time -/

/-- A search in which every attempt asks its type for the checker. -/
def TypeEnv.asking (types : TypeEnv) (text : Text) : Setting :=
  { types.setting text with strategy := { Strategy.standard with keepsCheckers := false } }

/-- The answer found by asking every time. -/
def Question.askAnew (fuel : Nat) (types : TypeEnv) (text : Text) (g : Grammar)
    (question : Question) : Except Stop MatchTree :=
  question.answer text g fun mode start => searchWithin fuel (types.asking text) mode g start

/-! ## What is kept -/

/-- What types give under a name and a parameter. -/
abbrev Giving := TypeEnv → String → Option String → Except Fault (Except GrammarError Checker)

/-- Unless it says that its checkers vary, the type gives what is given under its name, whatever the
match in progress. -/
def ParserType.GivesAs (given : Giving) (type : ParserType) : Prop :=
  type.hostDependent = false → ∀ types host param,
    types.supply host param type = given types type.name param

/-- Unless it says that its checkers vary, the type gives one checker for each parameter, whatever
the match in progress. -/
def ParserType.IsSteady (type : ParserType) : Prop :=
  type.hostDependent = false → ∀ (types : TypeEnv) (param : Option String) (host host' : Host),
    types.supply host param type = types.supply host' param type

variable {given : Giving}

/-- A search that keeps checkers, and one that asks every time. -/
def askingPair (given : Giving) (types : TypeEnv) : Pairing where
  types
  types' := types
  strategy := .standard
  strategy' := { Strategy.standard with keepsCheckers := false }
  early _ := False
  common _ := True
  late n := n = 0
  around := SameAround
  kept kept kept' := kept' = [] ∧ ∀ key c, kept.lookup key = some c →
    given types key.1 key.2 = .ok (.ok c) ∧
      c.Every (Entry.Asks types (·.type.GivesAs given)) fun _ => True
  useOk use := use.type.GivesAs given

theorem askingPair_shared {types : TypeEnv} (h : types.HoldsOnly (ParserType.GivesAs given)) :
    (askingPair given types).Shared where
  zero := rfl
  nothing := SameAround.nothing
  levels := SameAround.levels
  outOfFuel := trivial
  outOfRange := trivial
  classes := rfl
  find := rfl
  found name type hfind := h.type_asks (h.found name type hfind)
  opens := rfl
  accepts := by
    rintro n use rfl - text tail offset outer outer' node htext hout
    exact accepts_at_zero use.type htext hout offset node

/-- A kept checker is the one that its type would give again. -/
theorem askingPair_lawful {types : TypeEnv} (h : types.HoldsOnly (ParserType.GivesAs given)) :
    (askingPair given types).Lawful where
  toShared := askingPair_shared h
  start := ⟨rfl, fun _ _ hlookup => nomatch hlookup⟩
  asks := by
    intro n setting setting' m m' use hs hbeside huse
    obtain rfl : n = 0 := hs.late
    have hinner := hbeside.inner (askingPair_shared h) hs
    have hhost : (⟨setting.text, m.offset, (m.inner setting).outer⟩ : Host) =
        ⟨setting'.text, m'.offset, (m'.inner setting').outer⟩ := by
      rw [hs.text.eq_of_zero, hbeside.offset, SameAround.eq_of_zero hinner.outer, Nat.add_zero]
    obtain ⟨kept, rfl, holds⟩ := hbeside
    obtain ⟨hnone, hright⟩ := holds.checkers
    have htypes : setting.types = types := hs.types
    have htypes' : setting'.types = types := hs.types'
    have hkeeps : setting.strategy.keepsCheckers = true := by rw [hs.strategy]; rfl
    have hkeeps' : setting'.strategy.keepsCheckers = false := by rw [hs.strategy']; rfl
    simp only [Machine.checkerOf, htypes, htypes', hkeeps, hkeeps', hhost, Bool.true_and,
      Bool.false_and, Bool.false_eq_true, if_false, Machine.shift_checkers]
    generalize (⟨setting'.text, m'.offset, (m'.inner setting').outer⟩ : Host) = host
    cases hdependent : use.type.hostDependent with
    | true =>
      simp only [Bool.not_true, Bool.false_eq_true, if_false]
      cases hsupply : types.supply host use.param use.type with
      | error f => exact .error (.fault _ trivial)
      | ok given' =>
        cases given' with
        | error e => exact .error (.refused _)
        | ok c => exact .ok ⟨⟨kept, rfl, holds⟩, rfl, h.supplied_asks huse hsupply⟩
    | false =>
      have hgives := huse.1 hdependent types host use.param
      simp only [Bool.not_false, if_true, hgives]
      cases hlookup : kept.lookup (use.type.name, use.param) with
      | some c =>
        obtain ⟨hgiven, hc⟩ := hright _ c hlookup
        rw [hgiven]
        exact .ok ⟨⟨kept, rfl, holds⟩, rfl, hc⟩
      | none =>
        cases hgiven : given types use.type.name use.param with
        | error f => exact .error (.fault _ trivial)
        | ok given' =>
          cases given' with
          | error e => exact .error (.refused _)
          | ok c =>
            have hc := h.supplied_asks huse (hgives.trans hgiven)
            refine .ok ⟨⟨_, rfl, ⟨holds.saved, hnone, fun key other hother => ?_⟩, holds.sessions⟩,
              rfl, hc⟩
            rw [List.lookup_cons] at hother
            split at hother
            · next heq =>
              obtain rfl := Option.some.inj hother
              rw [beq_iff_eq.mp heq]
              exact ⟨hgiven, hc⟩
            · exact hright key other hother

/-- A search that keeps checkers comes to the same as one that asks every time. -/
theorem searchWithin_asking {types : TypeEnv} (h : types.HoldsOnly (ParserType.GivesAs given))
    {g : Grammar} (hg : g.HoldsOnly (ParserType.GivesAs given)) (fuel : Nat) (text : Text)
    (mode : Mode) (start : Nat) :
    searchWithin fuel (types.setting text) mode g start =
      searchWithin fuel (types.asking text) mode g start := by
  have hs : (askingPair given types).Apart 0 (types.setting text) (types.asking text) :=
    ⟨rfl, rfl, rfl, rfl, rfl, .refl text, rfl⟩
  have hsame := (Pairing.searchWithin_follows (askingPair_lawful h) (.same fuel) 0 _ _
    mode g start hs (h.grammar_asks hg)).eq_of_zero
  rcases hsame.or with ⟨f, hfalse, _⟩ | ⟨heq, _⟩
  · exact hfalse.elim
  · exact heq

theorem Question.ask_eq_askAnew {types : TypeEnv} (h : types.HoldsOnly (ParserType.GivesAs given))
    {g : Grammar} (hg : g.HoldsOnly (ParserType.GivesAs given)) (fuel : Nat) (text : Text)
    (question : Question) :
    question.ask fuel types text g = question.askAnew fuel types text g := by
  rw [ask_eq_answer, askAnew]
  congr 1
  funext mode start
  exact searchWithin_asking h hg fuel text mode start

namespace TypeRegistry

variable {registry : TypeRegistry}

/-- **Keeping checkers changes nothing** as long as types of one name, unless they say that their
checkers vary, give the same checkers. -/
theorem keeping_checkers_changes_nothing (hregistry : registry.HoldsOnly (ParserType.GivesAs given))
    {g : Grammar} (hg : g.HoldsOnly (ParserType.GivesAs given)) (fuel rounds : Nat) (text : Text)
    (question : Question) :
    registry.supplying (fun types => question.ask fuel types text g) rounds =
      registry.supplying (fun types => question.askAnew fuel types text g) rounds :=
  supplying_congr (fun _ htypes => question.ask_eq_askAnew htypes hg fuel text) hregistry rounds

/-- An `a` by a type that a registry has and the grammar holds. -/
def letterA : ParserType := Builtin.constant "letter" (.single 'a')

/-- A letter held by the grammar, and one found under its name. -/
def twoRoutes : Grammar := ⟨[.typed letterA, .ref "letter" none]⟩

theorem twoRoutes_kept :
    (empty.extended letterA).HoldsOnly (ParserType.GivesAs fun _ _ _ => .ok (.ok (.single 'a'))) ∧
      twoRoutes.HoldsOnly (ParserType.GivesAs fun _ _ _ => .ok (.ok (.single 'a'))) ∧
      (empty.extended letterA).supplying
          (fun types => Question.matchWhole.ask 5 types #['a', 'a'] twoRoutes) 1 =
        (empty.extended letterA).supplying
          (fun types => Question.matchWhole.askAnew 5 types #['a', 'a'] twoRoutes) 1 ∧
      ((empty.extended letterA).supplying
        (fun types => Question.matchWhole.askAnew 5 types #['a', 'a'] twoRoutes) 1).1 =
          .ok (.ofNodes #['a', 'a'] 0 2
            [{ typeName := some "letter", start := 0, stop := 1 },
              { typeName := some "letter", start := 1, stop := 2 }]) := by
  have letter : letterA.HoldsOnly (ParserType.GivesAs fun _ _ _ => .ok (.ok (.single 'a'))) :=
    ⟨fun _ _ _ _ => rfl, fun _ _ _ => trivial⟩
  have registry : (empty.extended letterA).HoldsOnly
      (ParserType.GivesAs fun _ _ _ => .ok (.ok (.single 'a'))) := by
    refine ⟨fun type htype => ?_, fun _ hkept => nomatch hkept⟩
    obtain rfl := List.mem_singleton.mp htype
    exact letter
  have holds : twoRoutes.HoldsOnly (ParserType.GivesAs fun _ _ _ => .ok (.ok (.single 'a'))) := by
    refine ⟨⟨fun t ht => ?_, letter.2, trivial⟩,
      ⟨fun _ ht => (nomatch ht), trivial, trivial⟩, trivial⟩
    obtain rfl := Target.type.inj ht
    exact letter.1
  exact ⟨registry, holds,
    keeping_checkers_changes_nothing registry holds 5 1 #['a', 'a'] .matchWhole, rfl⟩

/-! ### Two types of one name -/

/-- An `a` and a `b` by types that are held under one name. -/
def twoLetters : Grammar := ⟨[.typed letterA, .typed (Builtin.constant "letter" (.single 'b'))]⟩

/-- Keeping checkers changes what two types of one name match, even where the checker of each is
always the same: the second one is matched with the checker of the first. -/
theorem not_forall_keeping_changes_nothing : ¬ ∀ (registry : TypeRegistry) (g : Grammar)
    (fuel rounds : Nat) (text : Text) (question : Question),
    registry.HoldsOnly ParserType.IsSteady → g.HoldsOnly ParserType.IsSteady →
      registry.supplying (fun types => question.ask fuel types text g) rounds =
        registry.supplying (fun types => question.askAnew fuel types text g) rounds := by
  intro hclaim
  have registry : empty.HoldsOnly ParserType.IsSteady :=
    ⟨fun _ htype => (nomatch htype), fun _ hkept => nomatch hkept⟩
  have holds : twoLetters.HoldsOnly ParserType.IsSteady := by
    refine ⟨⟨fun t ht => ?_, fun _ _ _ => trivial, trivial⟩,
      ⟨fun t ht => ?_, fun _ _ _ => trivial, trivial⟩, trivial⟩
    · obtain rfl := Target.type.inj ht
      exact fun _ _ _ _ _ => rfl
    · obtain rfl := Target.type.inj ht
      exact fun _ _ _ _ _ => rfl
  have hsame := hclaim empty twoLetters 5 1 #['a', 'b'] .parse registry holds
  have hkept : (empty.supplying
      (fun types => Question.parse.ask 5 types #['a', 'b'] twoLetters) 1).1 =
        .error (.refused (.unmatched ⟨1, "!letter!", 0⟩)) := rfl
  have hasked : (empty.supplying
      (fun types => Question.parse.askAnew 5 types #['a', 'b'] twoLetters) 1).1 =
        .ok (.ofNodes #['a', 'b'] 0 2
          [{ typeName := some "letter", start := 0, stop := 1 },
            { typeName := some "letter", start := 1, stop := 2 }]) := rfl
  cases hkept.symm.trans ((congrArg Prod.fst hsame).trans hasked)

end TypeRegistry

end TextGrammar
