/-
What is asked of a grammar and a text: a match of the beginning, of the whole
text, or the first one anywhere in it. The answer only depends on what the
searches from the offsets of the text come to, so searches that come to the same
give the same answer.
-/
import TextGrammar.Proofs.FollowingSearch

namespace TextGrammar

/-! ## Searches from an offset -/

/-- What a search for the grammar from an offset says of the text. -/
def Grammar.verdict (text : Text) (start : Nat) (g : Grammar) :
    Except Stop (Seen (Option Failure) (Option Match)) → Except Stop MatchTree
  | .error stop => .error stop
  | .ok ⟨some m, _⟩ => .ok (.ofNodes text start m.stop m.nodes)
  | .ok ⟨none, furthest⟩ =>
    .error (.refused (.unmatched (furthest.getD ⟨start, .grammar g, 0⟩).unmatched))

theorem Grammar.matchFrom_eq_verdict (fuel : Nat) (types : TypeEnv) (text : Text) (mode : Mode)
    (start : Nat) (g : Grammar) :
    g.matchFrom fuel types text mode start =
      g.verdict text start (searchWithin fuel (types.setting text) mode g start) := by
  cases h : searchWithin fuel (types.setting text) mode g start with
  | error stop => simp only [Grammar.matchFrom, Grammar.verdict, h]
  | ok seen =>
    obtain ⟨_ | m, furthest⟩ := seen <;> simp only [Grammar.matchFrom, Grammar.verdict, h]

/-- The first match from one of so many starts, or the failure that got furthest. -/
def firstMatch (shown : String) (matchAt : Nat → Except Stop MatchTree) :
    (count start : Nat) → Option Unmatched → Except Stop MatchTree
  | 0, _, furthest => .error (.refused (.unmatched (furthest.getD ⟨0, shown, 0⟩)))
  | count + 1, start, furthest =>
    match matchAt start with
    | .error (.refused (.unmatched u)) =>
      firstMatch shown matchAt count (start + 1) (some (Grammar.furthestUnmatched furthest u))
    | result => result

theorem Grammar.findFrom_eq_firstMatch (fuel : Nat) (types : TypeEnv) (text : Text) (g : Grammar)
    (count start : Nat) (furthest : Option Unmatched) :
    g.findFrom fuel types text count start furthest =
      firstMatch g.display (g.matchFrom fuel types text .beginning) count start furthest := by
  induction count generalizing start furthest with
  | zero => rfl
  | succ count ih =>
    cases h : g.matchFrom fuel types text .beginning start with
    | ok tree => simp only [Grammar.findFrom, firstMatch, h]
    | error stop =>
      obtain (_ | _ | _) | f := stop <;> simp only [Grammar.findFrom, firstMatch, h, ih]

/-! ## Questions -/

/-- What is asked of a grammar and a text. -/
inductive Question where
  /-- A match of a beginning of the text. -/
  | parse
  /-- A match of the whole text. -/
  | matchWhole
  /-- A match of a part of the text. -/
  | find

namespace Question

def ask (fuel : Nat) (types : TypeEnv) (text : Text) (g : Grammar) :
    Question → Except Stop MatchTree
  | .parse => g.parse fuel types text
  | .matchWhole => g.matchWhole fuel types text
  | .find => g.find fuel types text

/-- The answer, given a way to search from each offset. -/
def answer (text : Text) (g : Grammar)
    (search : Mode → Nat → Except Stop (Seen (Option Failure) (Option Match))) :
    Question → Except Stop MatchTree
  | .parse => g.verdict text 0 (search .beginning 0)
  | .matchWhole => g.verdict text 0 (search .whole 0)
  | .find =>
    firstMatch g.display (fun start => g.verdict text start (search .beginning start))
      (text.size + 1) 0 none

theorem ask_eq_answer (fuel : Nat) (types : TypeEnv) (text : Text) (g : Grammar)
    (question : Question) :
    question.ask fuel types text g = question.answer text g fun mode start =>
      searchWithin fuel (types.setting text) mode g start := by
  cases question with
  | parse => exact g.matchFrom_eq_verdict ..
  | matchWhole => exact g.matchFrom_eq_verdict ..
  | find =>
    refine (g.findFrom_eq_firstMatch ..).trans ?_
    exact congrArg (firstMatch g.display · _ 0 none) (funext fun _ => g.matchFrom_eq_verdict ..)

end Question

/-! ## Faults -/

variable {early common : Fault → Prop}

theorem Grammar.verdict_sameUnless {x y : Except Stop (Seen (Option Failure) (Option Match))}
    (h : SameUnless early common x y) (text : Text) (start : Nat) (g : Grammar) :
    SameUnless early common (g.verdict text start x) (g.verdict text start y) := by
  cases h with
  | early f hf => exact .early f hf
  | same hcommon =>
    refine .same fun f hf => ?_
    rcases x with stop | ⟨_ | m, furthest⟩
    · exact hcommon f (by cases hf; rfl)
    · cases hf
    · cases hf

theorem firstMatch_sameUnless {matchAt matchAt' : Nat → Except Stop MatchTree}
    (h : ∀ start, SameUnless early common (matchAt start) (matchAt' start)) (shown : String)
    (count start : Nat) (furthest : Option Unmatched) :
    SameUnless early common (firstMatch shown matchAt count start furthest)
      (firstMatch shown matchAt' count start furthest) := by
  induction count generalizing start furthest with
  | zero => exact .same fun f hf => nomatch hf
  | succ count ih =>
    have hstart := h start
    simp only [firstMatch]
    generalize matchAt start = x at hstart ⊢
    generalize matchAt' start = y at hstart ⊢
    cases hstart with
    | early f hf => exact .early f hf
    | same hcommon =>
      split
      · exact ih _ _
      · exact .same hcommon

/-- Searches that come to the same give the same answer. -/
theorem Question.answer_sameUnless
    {search search' : Mode → Nat → Except Stop (Seen (Option Failure) (Option Match))}
    (h : ∀ mode start, SameUnless early common (search mode start) (search' mode start))
    (text : Text) (g : Grammar) (question : Question) :
    SameUnless early common (question.answer text g search) (question.answer text g search') := by
  cases question with
  | parse => exact Grammar.verdict_sameUnless (h _ _) ..
  | matchWhole => exact Grammar.verdict_sameUnless (h _ _) ..
  | find => exact firstMatch_sameUnless (fun _ => Grammar.verdict_sameUnless (h _ _) ..) ..

end TextGrammar
