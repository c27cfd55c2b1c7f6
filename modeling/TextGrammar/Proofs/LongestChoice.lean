/-
Alternatives take the longest choice. Among equally long matches the one of the
choice given last is taken, and with it its nodes; the fallback only counts
where no choice matches. The length of an alternative and the match that a
search finds for it are worked out apart from each other, and agree.
-/
import TextGrammar.Proofs.Refinement
import TextGrammar.Proofs.SimplifiedCheckers

open Filter (atTop eventually_atTop)

namespace TextGrammar

namespace Checker

/-! ## The last of the longest matches -/

/-- The alternative built of these choices, with the fallback if there is one. -/
def ofChoices (cs : List Checker) : Option Checker → Checker
  | none => alternative cs
  | some d => alternativeOr cs d

/-- The last choice with a longest match has this one: matches of the choices before it are no
longer, and those of the choices after it are shorter. -/
def LastLongest (found : Checker → Option Found) (cs : List Checker) (best : Found) : Prop :=
  ∃ before c after, cs = before ++ c :: after ∧ found c = some best ∧
    (∀ d ∈ before, ∀ other, found d = some other → other.stop ≤ best.stop) ∧
    ∀ d ∈ after, ∀ other, found d = some other → other.stop < best.stop

/-- What is taken of the matches of choices and of a fallback. -/
inductive TakesLongest (found : Checker → Option Found) (cs : List Checker)
    (fallback : Option Checker) : Option Found → Prop
  | choice {best : Found} (h : LastLongest found cs best) :
    TakesLongest found cs fallback (some best)
  | fallback (h : ∀ c ∈ cs, found c = none) : TakesLongest found cs fallback (fallback.bind found)

section

variable {found : Checker → Option Found} {cs : List Checker} {best : Found}

theorem LastLongest.mem (h : LastLongest found cs best) : ∃ c ∈ cs, found c = some best := by
  obtain ⟨before, c, after, rfl, hc, -, -⟩ := h
  exact ⟨c, by simp, hc⟩

theorem LastLongest.le (h : LastLongest found cs best) {c : Checker} (hc : c ∈ cs) {other : Found}
    (hother : found c = some other) : other.stop ≤ best.stop := by
  obtain ⟨before, d, after, rfl, hd, hbefore, hafter⟩ := h
  rcases List.mem_append.mp hc with hc | hc
  · exact hbefore c hc other hother
  · rcases List.mem_cons.mp hc with rfl | hc
    · rw [hd] at hother
      obtain rfl := Option.some.inj hother
      exact Nat.le_refl _
    · exact Nat.le_of_lt (hafter c hc other hother)

theorem LastLongest.head {c : Checker} (hc : found c = some best)
    (hafter : ∀ d ∈ cs, ∀ other, found d = some other → other.stop < best.stop) :
    LastLongest found (c :: cs) best :=
  ⟨[], c, cs, rfl, hc, List.forall_mem_nil _, hafter⟩

theorem LastLongest.cons (h : LastLongest found cs best) {c : Checker}
    (hc : ∀ other, found c = some other → other.stop ≤ best.stop) :
    LastLongest found (c :: cs) best := by
  obtain ⟨before, d, after, rfl, hd, hbefore, hafter⟩ := h
  exact ⟨c :: before, d, after, rfl, hd, List.forall_mem_cons.mpr ⟨hc, hbefore⟩, hafter⟩

/-- The length of the match that is taken is the greatest of the choices, or that of the fallback
where none of them matches. -/
theorem TakesLongest.length {fallback : Option Checker} {taken : Option Found}
    (h : TakesLongest found cs fallback taken) (offset : Nat) :
    taken.map (·.stop - offset) =
      (cs.filterMap fun c => (found c).map (·.stop - offset)).max?.or
        (fallback.bind fun c => (found c).map (·.stop - offset)) := by
  cases h with
  | @choice best h =>
    have hmax : (cs.filterMap fun c => (found c).map (·.stop - offset)).max? =
        some (best.stop - offset) := by
      refine List.max?_eq_some_iff.mpr ⟨?_, fun length hlength => ?_⟩
      · obtain ⟨c, hc, hbest⟩ := h.mem
        exact List.mem_filterMap.mpr ⟨c, hc, by rw [hbest]; rfl⟩
      · obtain ⟨c, hc, hlength⟩ := List.mem_filterMap.mp hlength
        obtain ⟨other, hother, rfl⟩ := Option.map_eq_some_iff.mp hlength
        have := h.le hc hother
        omega
    rw [hmax]
    rfl
  | fallback h =>
    have hnil : (cs.filterMap fun c => (found c).map (·.stop - offset)) = [] := by
      refine List.filterMap_eq_nil_iff.mpr fun c hc => ?_
      rw [h c hc]
      rfl
    rw [hnil]
    cases fallback <;> rfl

end

/-! ## What an alternative finds -/

section

variable {opens : Grammar → Bool} {classes : CharClasses} {text : Text} {offset : Nat}

/-- Without a longest match there is none; else it is the last of the longest ones. -/
theorem longestFound_cases (cs : List Checker) :
    match longestFound opens classes cs text offset with
    | some best => LastLongest (found opens classes · text offset) cs best
    | none => ∀ c ∈ cs, found opens classes c text offset = none := by
  induction cs with
  | nil =>
    rw [longestFound]
    exact List.forall_mem_nil _
  | cons c cs ih =>
    rw [longestFound]
    cases hlater : longestFound opens classes cs text offset with
    | none =>
      rw [hlater] at ih
      cases hc : found opens classes c text offset with
      | none => exact List.forall_mem_cons.mpr ⟨hc, ih⟩
      | some here =>
        refine .head hc fun d hd other hother => ?_
        rw [ih d hd] at hother
        cases hother
    | some later =>
      rw [hlater] at ih
      have ih : LastLongest (found opens classes · text offset) cs later := ih
      cases hc : found opens classes c text offset with
      | none =>
        refine ih.cons fun other hother => ?_
        rw [hc] at hother
        cases hother
      | some here =>
        simp only [longer, further]
        by_cases hlonger : later.stop < here.stop
        · rw [if_pos hlonger]
          exact .head hc fun d hd other hother => Nat.lt_of_le_of_lt (ih.le hd hother) hlonger
        · rw [if_neg hlonger]
          refine ih.cons fun other hother => ?_
          rw [hc] at hother
          obtain rfl := Option.some.inj hother
          exact Nat.le_of_not_lt hlonger

theorem best_found (cs : List Checker) :
    best (fun c => (.ok (found opens classes c text offset) : Except Stop _)) longer cs =
      .ok (longestFound opens classes cs text offset) := by
  induction cs with
  | nil => rw [best, longestFound]
  | cons c cs ih =>
    rw [best, ih, longestFound]
    rfl

/-- Merging alternatives into the choices changes nothing. -/
theorem longestFound_flatMap_choiceParts (cs : List Checker) :
    longestFound opens classes (cs.flatMap choiceParts) text offset =
      longestFound opens classes cs text offset := by
  let one (c : Checker) : Except Stop (Option Found) := .ok (found opens classes c text offset)
  have hone (ds : List Checker) : one (.oneOf ds none) = best one longer ds := by
    simp only [one, best_found, found]
    cases longestFound opens classes ds text offset <;> simp only [fallbackFound]
  have hflat : best one longer (cs.flatMap choiceParts) = best one longer cs :=
    best_flatMap_choiceParts longer_prefers hone cs
  rw [best_found, best_found] at hflat
  exact Except.ok.inj hflat

/-- An alternative takes the longest of the matches of the choices it was built of. -/
theorem takesLongest_found_ofChoices (cs : List Checker) (fallback : Option Checker) :
    TakesLongest (found opens classes · text offset) cs fallback
      (found opens classes (ofChoices cs fallback) text offset) := by
  have hshape : ofChoices cs fallback = .oneOf (cs.flatMap choiceParts) fallback := by
    cases fallback <;> rfl
  have hcases := @longestFound_cases opens classes text offset cs
  rw [hshape, found, longestFound_flatMap_choiceParts]
  cases hlongest : longestFound opens classes cs text offset with
  | some best =>
    rw [hlongest] at hcases
    exact .choice hcases
  | none =>
    rw [hlongest] at hcases
    have hfallback : fallbackFound opens classes fallback text offset =
        fallback.bind (found opens classes · text offset) := by
      cases fallback <;> simp only [fallbackFound, Option.bind]
    rw [hfallback]
    exact .fallback hcases

end

/-! ## What searches come to -/

/-- The checker matches without types, and its records are built by their constructor. -/
abbrev Plain (c : Checker) : Prop := c.Every Entry.HasChecker Region.AreColumns

theorem Plain.ofChoices {cs : List Checker} {fallback : Option Checker}
    (plain : ∀ c, c ∈ cs ∨ c ∈ fallback → c.Plain) : (Checker.ofChoices cs fallback).Plain := by
  have hcs := everyOf_flatMap_choiceParts fun c hc => plain c (.inl hc)
  cases fallback with
  | none => exact ⟨hcs, trivial⟩
  | some d => exact ⟨hcs, plain d (.inr rfl)⟩

section

variable {c : Checker} (plain : c.Plain) (types : TypeEnv) {text : Text}
  (fits : text.size < maxCount) {offset : Nat} (hoff : offset ≤ text.size)
include plain fits hoff

theorem Plain.matchAt_eventually : ∀ᶠ fuel in atTop, c.matchAt fuel types text offset =
    .ok ((c.found Strategy.standard.opens types.classes text offset).map (·.stop - offset)) := by
  have hknown : c.Known (Option Failure) := known plain
  exact hknown.measured (types.setting text) offset fits hoff

theorem Plain.chosenAt_eventually (outer : List Trail) : ∀ᶠ fuel in atTop,
    c.chosenAt (searchWithin fuel) ⟨types, .standard, text, outer⟩ offset =
      .ok (c.found Strategy.standard.opens types.classes text offset) := by
  have hknown : c.Known (Option Failure) := known plain
  filter_upwards [hknown.chosen ⟨types, .standard, text, outer⟩ offset fits hoff] with fuel hchosen
  refine (congrArg (Except.map Seen.value) hchosen).trans ?_
  rw [Except.map, value_tried]

end

/-- What holds of each of finitely many checkers from some number of steps on, holds of all of them
from some number on. -/
theorem eventually_forall_choices {cs : List Checker} {fallback : Option Checker}
    {p : Checker → Nat → Prop} (h : ∀ c, c ∈ cs ∨ c ∈ fallback → ∀ᶠ fuel in atTop, p c fuel) :
    ∀ᶠ fuel in atTop, ∀ c, c ∈ cs ∨ c ∈ fallback → p c fuel := by
  induction cs with
  | nil =>
    cases fallback with
    | none => exact Filter.Eventually.of_forall fun fuel c hc => by simp at hc
    | some d =>
      filter_upwards [h d (.inr rfl)] with fuel hd c hc
      obtain rfl : d = c := by simpa using hc
      exact hd
  | cons c cs ih =>
    filter_upwards [h c (.inl List.mem_cons_self),
      ih fun d hd => h d (hd.imp_left (List.mem_cons_of_mem c))] with fuel hc hcs d hd
    rcases hd with hd | hd
    · rcases List.mem_cons.mp hd with rfl | hd
      · exact hc
      · exact hcs d (.inl hd)
    · exact hcs d (.inr hd)

/-- **An alternative takes its longest choice**, whether its length is asked for or a search tries
it. From some number of steps on, the choices it was built of and its fallback have lengths and
matches; the length of the alternative is the greatest of the choices, or else that of the fallback,
and the search takes the match of the last choice among the longest, which has this length. -/
theorem ofChoices_takes_longest {cs : List Checker} {fallback : Option Checker}
    (plain : ∀ c, c ∈ cs ∨ c ∈ fallback → c.Plain) (types : TypeEnv) {text : Text}
    (fits : text.size < maxCount) {offset : Nat} (hoff : offset ≤ text.size) (outer : List Trail) :
    let alternative := ofChoices cs fallback
    let found (c : Checker) := c.found Strategy.standard.opens types.classes text offset
    let length (c : Checker) := (found c).map (·.stop - offset)
    TakesLongest found cs fallback (found alternative) ∧
    length alternative = (cs.filterMap length).max?.or (fallback.bind length) ∧
    ∃ enough, ∀ fuel ≥ enough, ∀ c, c ∈ cs ∨ c ∈ fallback ∨ c = alternative →
      c.matchAt fuel types text offset = .ok (length c) ∧
      c.chosenAt (searchWithin fuel) ⟨types, .standard, text, outer⟩ offset = .ok (found c) := by
  intro alternative found length
  have htaken : TakesLongest found cs fallback (found alternative) :=
    takesLongest_found_ofChoices cs fallback
  have heach (c : Checker) (hc : c.Plain) : ∀ᶠ fuel in atTop,
      c.matchAt fuel types text offset = .ok (length c) ∧
      c.chosenAt (searchWithin fuel) ⟨types, .standard, text, outer⟩ offset = .ok (found c) :=
    (hc.matchAt_eventually types fits hoff).and (hc.chosenAt_eventually types fits hoff outer)
  have hparts := eventually_forall_choices fun c hc => heach c (plain c hc)
  obtain ⟨enough, h⟩ := eventually_atTop.mp (hparts.and (heach alternative (.ofChoices plain)))
  refine ⟨htaken, htaken.length offset, enough, fun fuel hfuel c hc => ?_⟩
  obtain ⟨hparts, hwhole⟩ := h fuel hfuel
  rcases hc with hc | hc | rfl
  · exact hparts c (.inl hc)
  · exact hparts c (.inr hc)
  · exact hwhole

/-- Two `a` as a literal, as two entries of a grammar, or as the longer choice of an alternative
that has a fallback of its own. -/
def pairsOfA : List Checker :=
  [literal ['a', 'a'], sequence [.ofChecker (single 'a'), .ofChecker (single 'a')],
    alternativeOr [alternative [single 'a', single 'b']] (anyOf 3)]

/-- The grammar comes after the literal, and its nodes are taken. -/
theorem pairsOfA_taken : ∃ enough, ∀ fuel ≥ enough,
    (ofChoices pairsOfA (some rest)).matchAt fuel .bare #['a', 'a', 'b'] 0 = .ok (some 2) ∧
    (ofChoices pairsOfA (some rest)).chosenAt (searchWithin fuel)
      ⟨.bare, .standard, #['a', 'a', 'b'], []⟩ 0 =
        .ok (some ⟨2, [.leaf 0 1, .leaf 1 2], true⟩) := by
  have plain : ∀ c, c ∈ pairsOfA ∨ c ∈ some rest → c.Plain := by
    have hentry : (Entry.ofChecker (single 'a')).Every Entry.HasChecker Region.AreColumns :=
      ⟨⟨_, rfl⟩, trivial, trivial⟩
    have hpairs : EveryOf Entry.HasChecker Region.AreColumns pairsOfA :=
      ⟨trivial, ⟨hentry, hentry, trivial⟩, ⟨⟨trivial, trivial, trivial⟩, trivial⟩, trivial⟩
    intro c hc
    rcases hc with hc | hc
    · exact everyOf_iff.mp hpairs c hc
    · obtain rfl := Option.some.inj hc
      trivial
  have fits : #['a', 'a', 'b'].size < maxCount := by decide
  obtain ⟨-, -, enough, h⟩ := ofChoices_takes_longest plain .bare fits (Nat.zero_le _) []
  refine ⟨enough, fun fuel hfuel => ?_⟩
  obtain ⟨hlength, hchosen⟩ := h fuel hfuel _ (.inr (.inr rfl))
  have hfound : (ofChoices pairsOfA (some rest)).found Strategy.standard.opens
      TypeEnv.bare.classes #['a', 'a', 'b'] 0 = some ⟨2, [.leaf 0 1, .leaf 1 2], true⟩ := by
    cbv
  exact ⟨hlength.trans (congrArg (fun m => Except.ok (m.map Found.stop)) hfound),
    hchosen.trans (congrArg Except.ok hfound)⟩

end Checker

end TextGrammar
