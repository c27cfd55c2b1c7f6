/-
Checkers without grammars: characters, words, alternatives, negations and
records of unchecked regions. They search for nothing, so that their length is
always given and the same whichever way grammars are matched; simplification
leaves it as it is at every offset of every text.
-/
import TextGrammar.Proofs.SimplifiedCheckers
import TextGrammar.Search.Tree

namespace TextGrammar

namespace Checker

/-- Nothing in the checker itself has to be searched for. -/
def IsSearchFree : Checker → Prop
  | .fixed regions => ∀ region ∈ regions, region.grammar = none
  | .grammar _ => False
  | _ => True

abbrev SearchFree (c : Checker) : Prop := c.Throughout IsSearchFree (fun _ => False)

/-- Without grammars, double negations and intersections of nothing, however deep. -/
def Elementary (c : Checker) : Prop :=
  c.Throughout (fun c => c.IsRegular ∧ c.IsSearchFree) (fun _ => False)

theorem Elementary.searchFree {c : Checker} (h : c.Elementary) : c.SearchFree :=
  h.mono (fun _ hc => hc.2) fun _ he => he

theorem Elementary.regular {c : Checker} (h : c.Elementary) (types : String → ParserType) :
    c.Throughout IsRegular (Entry.Simplifies types true) :=
  h.mono (fun _ hc => hc.1) fun _ he => he.elim

/-! ## Lengths without searches -/

theorem IsSearchFree.simplifyAll {regions : List Region}
    (h : (Checker.fixed regions).IsSearchFree) :
    (Checker.fixed (Region.simplifyAll regions)).IsSearchFree := by
  induction regions with
  | nil => exact h
  | cons region regions ih =>
    obtain ⟨name, width, g⟩ := region
    obtain ⟨hg, hrest⟩ := List.forall_mem_cons.mp h
    obtain rfl : g = none := hg
    exact List.forall_mem_cons.mpr ⟨rfl, ih hrest⟩

/-- Double negations may come up, but nothing to search for. -/
theorem searchFree_simplify : SimplifyKeeps IsSearchFree (fun _ => False) where
  char _ := trivial
  oneOf _ _ := trivial
  not _ := trivial
  fixed _ h := h.simplifyAll
  grammar _ h := h
  entry _ h := h

end Checker

section

variable {setting : Setting} {offset : Nat}

theorem Region.spansFrom_searchFree {regions : List Region}
    (h : (Checker.fixed regions).IsSearchFree) (start : Nat) :
    ∃ spans, ∀ {L : Type} (run : Runner L),
      Region.spansFrom run setting start regions = .ok spans := by
  induction regions generalizing start with
  | nil => exact ⟨some [], fun _ => rfl⟩
  | cons region regions ih =>
    obtain ⟨name, width, g⟩ := region
    obtain ⟨hg, hrest⟩ := List.forall_mem_cons.mp h
    obtain rfl : g = none := hg
    cases width with
    | none =>
      obtain ⟨spans, hspans⟩ := ih hrest setting.text.size
      exact ⟨_, fun run => by simp only [Region.spansFrom, hspans run]; rfl⟩
    | some width =>
      obtain ⟨spans, hspans⟩ := ih hrest (start + width)
      exact ⟨_, fun run => by simp only [Region.spansFrom, hspans run]; rfl⟩

theorem Region.spansAt_searchFree {regions : List Region}
    (h : (Checker.fixed regions).IsSearchFree) :
    ∃ spans, ∀ {L : Type} (run : Runner L),
      Region.spansAt run setting offset regions = .ok spans := by
  unfold Region.spansAt
  split
  · exact Region.spansFrom_searchFree h offset
  · exact ⟨none, fun _ => rfl⟩

mutual

/-- **A checker without grammars has a length**, or none, that no search decides. -/
theorem Checker.lengthAt_searchFree : ∀ {c : Checker}, c.SearchFree →
    ∃ length, ∀ {L : Type} (run : Runner L), c.lengthAt run setting offset = .ok length
  | .char _, _ | .word _, _ | .any _, _ => ⟨_, fun _ => rfl⟩
  | .oneOf cs fallback, h => by
    obtain ⟨longest, hlongest⟩ := Checker.longestAt_searchFree h.2.1
    obtain ⟨other, hother⟩ := Checker.fallbackLengthAt_searchFree h.2.2
    refine ⟨longest.or other, fun run => ?_⟩
    rw [Checker.lengthAt, hlongest run]
    cases longest with
    | none => exact hother run
    | some n => rfl
  | .not item, h => by
    obtain ⟨length, hlength⟩ := Checker.lengthAt_searchFree (c := item) h.2
    by_cases hend : setting.text.size ≤ offset
    · exact ⟨some 0, fun run => by rw [Checker.lengthAt, if_pos hend]⟩
    · refine ⟨if length.isSome then none else some 1, fun run => ?_⟩
      rw [Checker.lengthAt, if_neg hend, hlength run]
      cases length <;> rfl
  | .fixed regions, h => by
    obtain ⟨spans, hspans⟩ := Region.spansAt_searchFree h.1
    exact ⟨_, fun run => by rw [Checker.lengthAt, hspans run]; rfl⟩
  | .grammar _, h => h.1.elim

theorem Checker.longestAt_searchFree : ∀ {cs : List Checker},
    Checker.ThroughoutAll IsSearchFree (fun _ => False) cs →
      ∃ length, ∀ {L : Type} (run : Runner L), Checker.longestAt run setting offset cs = .ok length
  | [], _ => ⟨none, fun _ => rfl⟩
  | _ :: _, h => by
    obtain ⟨here, hhere⟩ := Checker.lengthAt_searchFree h.1
    obtain ⟨later, hlater⟩ := Checker.longestAt_searchFree h.2
    refine ⟨longerLength later here, fun run => ?_⟩
    rw [Checker.longestAt, hlater run, hhere run]
    rfl

theorem Checker.fallbackLengthAt_searchFree : ∀ {c : Option Checker},
    Checker.ThroughoutOption IsSearchFree (fun _ => False) c →
      ∃ length, ∀ {L : Type} (run : Runner L),
        Checker.fallbackLengthAt run setting offset c = .ok length
  | none, _ => ⟨none, fun _ => rfl⟩
  | some c, h => Checker.lengthAt_searchFree (c := c) h

end

end

/-! ## Simplified lengths -/

/-- A way to match no grammar at all. -/
def Runner.idle : Runner Unit := fun _ _ _ _ => .error (.fault .outOfFuel)

namespace Checker

/-- **A simplified checker matches as many characters**, at any offset of any text, if it holds no
grammar, no double negation and no intersection of nothing. -/
theorem matchAt_simplify {c : Checker} (h : c.Elementary) (fuel : Nat) (types : TypeEnv)
    (text : Text) (offset : Nat) :
    ∃ length, c.matchAt fuel types text offset = .ok length ∧
      c.simplify.matchAt fuel types text offset = .ok length := by
  obtain ⟨length, hplain⟩ := @lengthAt_searchFree (types.setting text) offset c h.searchFree
  obtain ⟨simple, hsimple⟩ := @lengthAt_searchFree (types.setting text) offset c.simplify
    (h.searchFree.simplify searchFree_simplify)
  -- What the two come to is compared where no grammar is ever matched.
  have hidle : Runner.idle.Simplifies (fun name => .pattern name "" 0) true :=
    fun _ _ _ _ _ _ _ _ => rfl
  have hsame : c.simplify.lengthAt Runner.idle (types.setting text) offset = _ :=
    lengthAt_simplify hidle rfl (h.regular _)
  rw [hplain, hsimple] at hsame
  obtain rfl := Except.ok.inj hsame
  exact ⟨simple, hplain _, hsimple _⟩

/-- Repeated choices, an alternative of one choice, one with nothing but its fallback, a negated
alternative and a record, in alternatives of one another. -/
theorem nestedChoices_matchAt :
    let digit := char (.inter [.range '0' '9', .compl (.union [])])
    let rest := fixed [⟨"key", some 2, none⟩, ⟨"value", none, none⟩]
    let c := alternativeOr [alternative [digit, .word ⟨'-', []⟩, digit], alternativeOr [] (anyOf 0),
      alternative [.not (alternative [.word ⟨'#', []⟩])]] rest
    c.Elementary ∧ ∀ fuel types text offset, ∃ length,
      c.matchAt fuel types text offset = .ok length ∧
        c.simplify.matchAt fuel types text offset = .ok length := by
  intro digit rest c
  have h : c.Elementary := by
    simp [c, digit, rest, Elementary, Throughout, ThroughoutAll, ThroughoutOption, alternative,
      alternativeOr, choiceParts, anyOf, IsRegular, IsSearchFree, CharSet.NoEmptyInter,
      CharSet.NoEmptyInterAll, Region.ThroughoutAll, Region.Throughout, Grammar.ThroughoutOption]
  exact ⟨h, matchAt_simplify h⟩

end Checker

end TextGrammar
