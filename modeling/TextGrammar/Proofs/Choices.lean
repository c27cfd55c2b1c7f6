/-
The best of several choices. What an alternative comes to is decided in the same
way for lengths and for matches: the choices are tried from the last to the
first, and one is preferred to what the later ones came to. Which of equal
choices is kept, and whether choices stand in an alternative of their own, makes
no difference to it.
-/
import TextGrammar.Proofs.Throughout

namespace TextGrammar

variable {ε α : Type} {one : Checker → Except ε (Option α)}
  {better : Option α → Option α → Option α}

/-- A preference between two results: the first of them, unless the second is better. -/
structure Prefers (better : Option α → Option α → Option α) : Prop where
  none_left : ∀ a, better none a = a
  none_right : ∀ a, better a none = a
  assoc : ∀ a b c, better (better a b) c = better a (better b c)
  twice : ∀ a b, better (better a b) b = better a b
  keeps : ∀ a b c, better a c = a → better (better a b) c = better a b

namespace Checker

/-- What depends on the first choice and on what the others come to, and for which a choice that is
among the others makes no difference, can be read off the choices that are kept. -/
theorem keepLast_induction {β : Type} (f : List Checker → β)
    (cons : ∀ c cs cs', f cs = f cs' → f (c :: cs) = f (c :: cs'))
    (mem : ∀ (c : Checker) (cs : List Checker), c ∈ cs → f (c :: cs) = f cs) {cs : List Checker}
    (hsame : ∀ a ∈ cs, ∀ b ∈ cs, Checker.same a b = true → a = b) :
    f (keepLast cs) = f cs := by
  induction cs with
  | nil => rfl
  | cons c cs ih =>
    have ih := ih fun a ha b hb => hsame a (List.mem_cons_of_mem c ha) b (List.mem_cons_of_mem c hb)
    rw [keepLast]
    split
    · next hany =>
      obtain ⟨d, hd, heq⟩ := List.any_eq_true.mp hany
      obtain rfl := hsame c List.mem_cons_self d (List.mem_cons_of_mem c hd) heq
      rw [ih, mem c cs hd]
    · exact cons c _ _ ih

/-- The best of what the choices come to. The last choice is tried first. -/
def best (one : Checker → Except ε (Option α)) (better : Option α → Option α → Option α) :
    List Checker → Except ε (Option α)
  | [] => .ok none
  | c :: cs => do
    let later ← best one better cs
    let here ← one c
    pure (better later here)

/-- What the fallback comes to. -/
def orElse (one : Checker → Except ε (Option α)) : Option Checker → Except ε (Option α)
  | none => .ok none
  | some c => one c

/-- The best of the choices, or the fallback where there is none. -/
def bestOr (one : Checker → Except ε (Option α)) (better : Option α → Option α → Option α)
    (choices : List Checker) (fallback : Option Checker) : Except ε (Option α) := do
  match ← best one better choices with
  | some a => pure (some a)
  | none => orElse one fallback

theorem bestOr_none {cs : List Checker} : bestOr one better cs none = best one better cs := by
  rw [bestOr]
  cases best one better cs with
  | error e => rfl
  | ok value => cases value <;> rfl

section

variable (prefers : Prefers better)
include prefers

theorem best_singleton (c : Checker) : best one better [c] = one c := by
  rw [best, best]
  cases one c with
  | error e => rfl
  | ok value => exact congrArg Except.ok (prefers.none_left value)

theorem best_append (cs ds : List Checker) : best one better (cs ++ ds) = (do
    let later ← best one better ds
    let here ← best one better cs
    pure (better later here)) := by
  induction cs with
  | nil =>
    rw [List.nil_append, best]
    cases best one better ds with
    | error e => rfl
    | ok value => exact congrArg Except.ok (prefers.none_right value).symm
  | cons c cs ih =>
    rw [List.cons_append, best, ih, best]
    cases best one better ds with
    | error e => rfl
    | ok last =>
      cases best one better cs with
      | error e => rfl
      | ok later =>
        cases one c with
        | error e => rfl
        | ok here => exact congrArg Except.ok (prefers.assoc last later here)

/-- Choices may stand in an alternative of their own. -/
theorem best_flatMap_choiceParts (hone : ∀ cs, one (.oneOf cs none) = best one better cs)
    (cs : List Checker) : best one better (cs.flatMap choiceParts) = best one better cs := by
  have hparts (c : Checker) : best one better c.choiceParts = one c := by
    cases c with
    | oneOf cs fallback =>
      cases fallback with
      | none => exact (hone cs).symm
      | some d => exact best_singleton prefers _
    | _ => exact best_singleton prefers _
  induction cs with
  | nil => rfl
  | cons c cs ih => rw [List.flatMap_cons, best_append prefers, ih, hparts, best]

/-- A choice that is among those tried already changes nothing. -/
theorem better_of_mem {cs : List Checker} {c : Checker} (hmem : c ∈ cs) {value : Option α}
    (h : best one better cs = .ok value) :
    ∃ here, one c = .ok here ∧ better value here = value := by
  induction cs generalizing value with
  | nil => cases hmem
  | cons d ds ih =>
    rw [best] at h
    cases hlater : best one better ds with
    | error e =>
      rw [hlater] at h
      cases h
    | ok later =>
      cases hd : one d with
      | error e =>
        rw [hlater, hd] at h
        cases h
      | ok other =>
        rw [hlater, hd] at h
        obtain rfl : better later other = value := Except.ok.inj h
        rcases List.mem_cons.mp hmem with rfl | hmem
        · exact ⟨other, hd, prefers.twice later other⟩
        · obtain ⟨here, hhere, hkept⟩ := ih hmem hlater
          exact ⟨here, hhere, prefers.keeps later other here hkept⟩

theorem best_cons_of_mem {cs : List Checker} {c : Checker} (hmem : c ∈ cs) :
    best one better (c :: cs) = best one better cs := by
  rw [best]
  cases h : best one better cs with
  | error e => rfl
  | ok value =>
    obtain ⟨here, hhere, hkept⟩ := better_of_mem prefers hmem h
    rw [hhere]
    exact congrArg Except.ok hkept

/-- Of choices that are the same only the last one matters. -/
theorem best_keepLast {cs : List Checker}
    (hsame : ∀ a ∈ cs, ∀ b ∈ cs, Checker.same a b = true → a = b) :
    best one better (keepLast cs) = best one better cs := by
  refine keepLast_induction _ (fun c ds es heq => ?_) (fun _ _ => best_cons_of_mem prefers) hsame
  rw [best, heq, best]

/-- **Simplified choices come to the same** as the choices: with repeated ones dropped, alternatives
merged in, and a sole one in the place of its alternative. -/
theorem one_chooseSimple
    (hone : ∀ cs fallback, one (.oneOf cs fallback) = bestOr one better cs fallback)
    {cs : List Checker} (hsame : ∀ a ∈ cs, ∀ b ∈ cs, Checker.same a b = true → a = b)
    (fallback : Option Checker) :
    one (chooseSimple cs fallback) = bestOr one better cs fallback := by
  have hmerged (ds : List Checker) (hds : best one better ds = best one better cs) :
      bestOr one better (ds.flatMap choiceParts) fallback = bestOr one better cs fallback := by
    have hflat := best_flatMap_choiceParts prefers (fun es => (hone es none).trans bestOr_none) ds
    rw [bestOr, hflat, hds, ← bestOr]
  have hkept : best one better (keepLast cs) = _ := best_keepLast prefers hsame
  unfold chooseSimple
  split
  · next c hkeep =>
    rw [bestOr_none, ← hkept, hkeep, best_singleton prefers]
  · next d hkeep =>
    rw [bestOr, ← hkept, hkeep]
    rfl
  · next ds hds _ => exact (hone _ _).trans (hmerged _ hkept)
  · next ds d hds => exact (hone _ _).trans (hmerged _ hkept)

end

/-- Choices come to the same where each of them does when it is simplified. -/
theorem best_simplifyAll {one' : Checker → Except ε (Option α)} {cs : List Checker}
    (h : ∀ c ∈ cs, one' c.simplify = one c) :
    best one' better (simplifyAll cs) = best one better cs := by
  induction cs with
  | nil => rfl
  | cons c cs ih =>
    obtain ⟨hc, hcs⟩ := List.forall_mem_cons.mp h
    rw [simplifyAll, best, ih hcs, hc, best]

/-! ## Results read off results -/

section

variable {β : Type} {f : α → β} {better' : Option β → Option β → Option β}

theorem best_map (hbetter : ∀ a b, better' (a.map f) (b.map f) = (better a b).map f)
    (cs : List Checker) : (best one better cs).map (Option.map f) =
      best (fun c => (one c).map (Option.map f)) better' cs := by
  induction cs with
  | nil => rfl
  | cons c cs ih =>
    rw [best, best, ← ih]
    cases best one better cs with
    | error e => rfl
    | ok later =>
      cases one c with
      | error e => simp only [bind, Except.bind, Except.map]
      | ok here =>
        simp only [bind, Except.bind, Except.map, hbetter]
        rfl

theorem bestOr_map (hbetter : ∀ a b, better' (a.map f) (b.map f) = (better a b).map f)
    (cs : List Checker) (fallback : Option Checker) :
    (bestOr one better cs fallback).map (Option.map f) =
      bestOr (fun c => (one c).map (Option.map f)) better' cs fallback := by
  rw [bestOr, bestOr, ← best_map hbetter]
  cases best one better cs with
  | error e => rfl
  | ok value =>
    cases value with
    | some a => rfl
    | none => cases fallback <;> rfl

end

end Checker

end TextGrammar
