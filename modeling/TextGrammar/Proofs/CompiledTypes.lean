/-
What a registry compiles for a search. A question about types is asked again
whenever it needs a pattern type that is not compiled, so what holds of the types
registered has to be kept by one more compiled pattern: conditions on the types
that grammars hold are, since compiled patterns hold none.
-/
import TextGrammar.Proofs.Registrations
import TextGrammar.Proofs.WiderVocabularies

namespace TextGrammar.TypeRegistry

/-- The types registered, and what has been compiled of them, hold only such types. -/
structure HoldsOnly (typeOk : ParserType → Prop) (registry : TypeRegistry) : Prop where
  types : ∀ type ∈ registry.types, type.HoldsOnly typeOk
  compiled : ∀ kept ∈ registry.compiled, ∀ c, kept.2 = .ok c → c.HoldsOnly typeOk

variable {typeOk : ParserType → Prop} {registry : TypeRegistry}

/-- A compiled pattern holds no types. -/
theorem compile_holdsOnly {pattern : String} {g : Grammar} (hg : registry.compile pattern = .ok g) :
    g.HoldsOnly typeOk := by
  have hwidens : Pattern.Widens registry.vocabulary.knows (Grammar.HoldsOnly typeOk)
      (registry.compile pattern) (registry.compile pattern) :=
    Pattern.compile_widens (fun _ h => h) pattern
  exact hwidens.post hg

/-- What is compiled of a pattern, as it is kept. -/
def compileChecker (registry : TypeRegistry) (pattern : String) : Except GrammarError Checker :=
  (registry.compile pattern).map Checker.grammar

theorem compileChecker_holdsOnly {pattern : String} {c : Checker}
    (hc : registry.compileChecker pattern = .ok c) : c.HoldsOnly typeOk := by
  rw [compileChecker] at hc
  cases hcompile : registry.compile pattern with
  | error e =>
    rw [hcompile] at hc
    cases hc
  | ok g =>
    rw [hcompile] at hc
    obtain rfl := Except.ok.inj hc
    exact compile_holdsOnly hcompile

namespace HoldsOnly

theorem env (h : registry.HoldsOnly typeOk) : registry.env.HoldsOnly typeOk where
  found _ type htype := h.types type (mem_of_find? htype)
  compiled cell c hc := by
    obtain ⟨l₁, l₂, hl, _⟩ := List.lookup_eq_some_iff.mp hc
    exact h.compiled _ (hl ▸ List.mem_append_right l₁ List.mem_cons_self) c rfl

theorem compileCell (h : registry.HoldsOnly typeOk) (cell : Nat) (pattern : String) :
    (registry.compileCell cell pattern).HoldsOnly typeOk where
  types := h.types
  compiled := List.forall_mem_cons.mpr ⟨fun _ hc => compileChecker_holdsOnly hc, h.compiled⟩

end HoldsOnly

/-- Questions with the same answers need the same types compiled. -/
theorem supplying_congr {α : Type} {query query' : TypeEnv → Except Stop α}
    (hquery : ∀ types, types.HoldsOnly typeOk → query types = query' types)
    (h : registry.HoldsOnly typeOk) (rounds : Nat) :
    registry.supplying query rounds = registry.supplying query' rounds := by
  induction rounds generalizing registry with
  | zero => rfl
  | succ rounds ih =>
    simp only [supplying, hquery registry.env h.env]
    split
    · exact ih (h.compileCell _ _)
    · rfl

end TextGrammar.TypeRegistry
