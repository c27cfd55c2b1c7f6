/-
What a search meets in a grammar without types: the outcomes of
`TextGrammar.Proofs.Outcomes` in the same order (`Grammar.values_trace`), and
between them the failures that a search records on the way.
-/
import Mathlib.Data.List.Basic
import TextGrammar.Proofs.Outcomes
import TextGrammar.Proofs.Trace

namespace TextGrammar

section

variable {L : Type} [FailureLog L]

/-- What an entry meets that is matched `repeats` times up to `offset`. Where one repeat more is
required, a failure to match it counts as `missed`. -/
def Quantifier.trace (q : Quantifier) (size : Nat) (once : (repeats offset : Nat) → Trace L Match)
    (missed : (repeats offset : Nat) → L) (stuck : (repeats offset : Nat) → Bool)
    (repeats offset : Nat) : Trace L Match :=
  let stop : Trace L Match := .one ⟨offset, []⟩
  let more := (once repeats offset).bind fun m =>
    if offset < m.stop ∧ m.stop ≤ size then
      (q.trace size once missed stuck (repeats + 1) m.stop).map (.after m.nodes)
    else .one m
  let required := more ++ .done (missed repeats offset)
  match q.plan repeats with
  | .stop => stop
  | .go => required
  | .stopThenGo => stop ++ required
  | .goThenStop => more ++ stop
  | .goOrStop => if stuck repeats offset then more ++ stop else more
termination_by size - offset

/-- What follows one repeat more. -/
def Match.goOnTrace (size offset : Nat) (next : Nat → Trace L Match) (m : Match) : Trace L Match :=
  if offset < m.stop ∧ m.stop ≤ size then (next m.stop).map (.after m.nodes) else .one m

theorem Quantifier.trace_eq (q : Quantifier) (size : Nat)
    (once : (repeats offset : Nat) → Trace L Match) (missed : (repeats offset : Nat) → L)
    (stuck : (repeats offset : Nat) → Bool) (repeats offset : Nat) :
    q.trace size once missed stuck repeats offset =
      let more := (once repeats offset).bind
        (Match.goOnTrace size offset (q.trace size once missed stuck (repeats + 1)))
      match q.plan repeats with
      | .stop => .one ⟨offset, []⟩
      | .go => more ++ .done (missed repeats offset)
      | .stopThenGo => .one ⟨offset, []⟩ ++ (more ++ .done (missed repeats offset))
      | .goThenStop => more ++ .one ⟨offset, []⟩
      | .goOrStop => if stuck repeats offset then more ++ .one ⟨offset, []⟩ else more := by
  rw [Quantifier.trace]
  rfl

/-- What completing a match of an entry comes to. A match that is rejected after it was walked is a
failure of its own. -/
def Entry.completed (entry : Entry) (walked : Bool) (reread : Found → Seen L (Option Found))
    (repeats offset : Nat) (found : Found) : Trace L Match :=
  let seen := reread found
  match seen.value with
  | some kept => .once seen.failures ⟨found.stop, entry.untypedNodes offset kept⟩
  | none =>
    .done (if walked then
      FailureLog.merge seen.failures (FailureLog.of ⟨offset, .entry entry, repeats⟩)
    else seen.failures)

/-- What an entry meets whose target meets `raw`. -/
def Entry.traceOf (entry : Entry) (walked : Bool) (size : Nat) (raw : Nat → Trace L Found)
    (reread : Nat → Found → Seen L (Option Found)) (offset : Nat) : Trace L Match :=
  let once (repeats offset : Nat) : Trace L Match :=
    (raw offset).bind (entry.completed walked (reread offset) repeats offset)
  let missed (repeats offset : Nat) : L :=
    if walked || !(once repeats offset).values.isEmpty then FailureLog.empty
    else FailureLog.of ⟨offset, .target entry.target, repeats⟩
  let stuck (repeats offset : Nat) : Bool :=
    if walked then (raw offset).values.isEmpty else (once repeats offset).values.isEmpty
  entry.quantifier.trace size once missed stuck 0 offset

/-- A match of a grammar as a match of a checker. -/
def Seen.found (seen : Seen L (Option Match)) : Seen L (Option Found) :=
  ⟨seen.value.map Match.found, seen.failures⟩

variable (opens : Grammar → Bool) (classes : CharClasses)

mutual

/-- What a search meets in a grammar from an offset on. -/
def Grammar.trace : Grammar → Text → Nat → Trace L Match
  | ⟨entries⟩, text, offset => Entry.allTrace entries text offset

def Entry.allTrace : List Entry → Text → Nat → Trace L Match
  | [], _, offset => .one ⟨offset, []⟩
  | entry :: entries, text, offset =>
    (Entry.trace entry text offset).bind fun m =>
      (Entry.allTrace entries text m.stop).map (.after m.nodes)

def Entry.trace : Entry → Text → Nat → Trace L Match
  | ⟨capture, target, q, second⟩, text, offset =>
    Entry.traceOf ⟨capture, target, q, second⟩ (target.isWalked opens) text.size
      (fun offset => Target.trace target text offset)
      (fun offset found => Grammar.reread second text offset found) offset

/-- What one repeat meets, before the secondary grammar has a say. -/
def Target.trace : Target → Text → Nat → Trace L Found
  | .checker (.grammar g), text, offset =>
    let all : Trace L Match := Grammar.trace g text offset
    if opens g then all.map Match.found else .ofSeen (all.settle .beginning text.size).found
  | .checker (.fixed regions), text, offset =>
    if offset + Region.declaredWidth regions ≤ text.size
        && Region.accept opens classes regions text offset then
      let spans := Region.layout text.size offset regions
      .one ⟨lastStop offset spans, Region.nodes regions spans, false⟩
    else .nothing
  | .checker c, text, offset => .ofSeen (Checker.tried c text offset)
  | .ref _, _, _ | .type _, _, _ => .nothing

/-- The one match of a checker on its own. Only grammars record failures. -/
def Checker.tried : Checker → Text → Nat → Seen L (Option Found)
  | .grammar g, text, offset =>
    ((Grammar.trace g text offset).settle .beginning text.size).found
  | .oneOf choices fallback, text, offset =>
    let chosen := Checker.triedAmong choices text offset
    match chosen.value with
    | some _ => chosen
    | none =>
      let other := Checker.triedFallback fallback text offset
      ⟨other.value, FailureLog.merge chosen.failures other.failures⟩
  | c, text, offset => .of (c.found opens classes text offset)

def Checker.triedAmong : List Checker → Text → Nat → Seen L (Option Found)
  | [], _, _ => .of none
  | c :: cs, text, offset =>
    let later := Checker.triedAmong cs text offset
    let here := Checker.tried c text offset
    ⟨longer later.value here.value, FailureLog.merge later.failures here.failures⟩

def Checker.triedFallback : Option Checker → Text → Nat → Seen L (Option Found)
  | none, _, _ => .of none
  | some c, text, offset => Checker.tried c text offset

/-- A match re-read by the secondary grammar of its entry, if there is one. -/
def Grammar.reread : Option Grammar → Text → Nat → Found → Seen L (Option Found)
  | none, _, _, found => .of (some found)
  | some g, text, offset, found =>
    let seen : Seen L (Option Match) :=
      (Grammar.trace g (text.slice 0 found.stop) offset).settle .whole found.stop
    ⟨seen.value.map fun m => ⟨found.stop, m.nodes, true⟩, seen.failures⟩

end

end

/-! ## The outcomes of a trace are those of the grammar -/

section

variable {L : Type} [FailureLog L] {opens : Grammar → Bool} {classes : CharClasses}

theorem Quantifier.values_trace {q : Quantifier} {size : Nat}
    {once : (repeats offset : Nat) → Trace L Match} {missed : (repeats offset : Nat) → L}
    {stuck : (repeats offset : Nat) → Bool} {once' : Nat → List Match} {stuck' : Nat → Bool}
    (honce : ∀ r o, (once r o).values = once' o) (hstuck : ∀ r o, stuck r o = stuck' o)
    (hstop : ∀ o, stuck' o = true → once' o = []) (repeats offset : Nat) :
    (q.trace size once missed stuck repeats offset).values =
      q.outcomes size once' stuck' repeats offset := by
  induction repeats, offset using Quantifier.room_induction size with
  | step repeats offset ih =>
  have more : ((once repeats offset).bind
      (Match.goOnTrace size offset (q.trace size once missed stuck (repeats + 1)))).values =
        (once' offset).flatMap
          (Match.goOn size offset (q.outcomes size once' stuck' (repeats + 1))) := by
    rw [Trace.values_bind, honce]
    congr 1
    funext m
    simp only [Match.goOnTrace, Match.goOn]
    split
    · next hgo => rw [Trace.values_map, ih _ _ hgo.1 hgo.2]
    · rfl
  rw [Quantifier.trace_eq, Quantifier.outcomes_eq]
  cases q.plan repeats
  case stop => rfl
  case go => simp only [Trace.values_append, Trace.values_done, List.append_nil, more]
  case stopThenGo =>
    simp only [Trace.values_append, Trace.values_done, Trace.values_one, List.append_nil, more,
      List.singleton_append]
  case goThenStop => simp only [Trace.values_append, Trace.values_one, more]
  case goOrStop =>
    simp only [hstuck]
    split
    · next h =>
      simp only [Trace.values_append, Trace.values_one, more, hstop offset h, List.flatMap_nil,
        List.nil_append]
    · exact more

theorem Entry.values_completed (entry : Entry) (walked : Bool)
    (reread : Found → Seen L (Option Found)) (repeats offset : Nat) (found : Found) :
    (entry.completed walked reread repeats offset found).values =
      ((reread found).value.map fun kept =>
        (⟨found.stop, entry.untypedNodes offset kept⟩ : Match)).toList := by
  simp only [Entry.completed]
  cases (reread found).value <;> rfl

theorem Entry.values_traceOf (entry : Entry) (walked : Bool) (size : Nat)
    (raw : Nat → Trace L Found) (reread : Nat → Found → Seen L (Option Found)) (offset : Nat) :
    let once (offset : Nat) : List Match := (raw offset).values.filterMap fun found =>
      (reread offset found).value.map fun kept => ⟨found.stop, entry.untypedNodes offset kept⟩
    (entry.traceOf walked size raw reread offset).values =
      entry.quantifier.outcomes size once (fun offset =>
        if walked then (raw offset).values.isEmpty else (once offset).isEmpty) 0 offset := by
  intro once
  have honce (r o : Nat) :
      ((raw o).bind (entry.completed walked (reread o) r o)).values = once o := by
    simp only [Trace.values_bind, Entry.values_completed, once, List.filterMap_eq_flatMap_toList]
  refine Quantifier.values_trace honce (fun r o => ?_) (fun o h => ?_) 0 offset
  · simp only [honce]
  · cases walked
    · simpa using h
    · simp only [if_true, List.isEmpty_iff] at h
      simp only [once, h, List.filterMap_nil]

mutual

/-- **The outcomes of the trace** of a grammar are the outcomes of the grammar, in order. -/
theorem Grammar.values_trace : ∀ (g : Grammar) (text : Text) (offset : Nat),
    (g.trace opens classes text offset : Trace L Match).values = g.outcomes opens classes text offset
  | ⟨entries⟩, text, offset => by
    simp only [Grammar.trace, Grammar.outcomes]
    exact Entry.values_allTrace entries text offset

theorem Entry.values_allTrace : ∀ (es : List Entry) (text : Text) (offset : Nat),
    (Entry.allTrace opens classes es text offset : Trace L Match).values =
      Entry.allOutcomes opens classes es text offset
  | [], _, _ => by simp only [Entry.allTrace, Entry.allOutcomes, Trace.values_one]
  | entry :: entries, text, offset => by
    simp only [Entry.allTrace, Entry.allOutcomes, Trace.values_bind, Trace.values_map,
      Entry.values_trace entry text offset]
    congr 1
    funext m
    rw [Entry.values_allTrace entries text m.stop]

theorem Entry.values_trace : ∀ (e : Entry) (text : Text) (offset : Nat),
    (e.trace opens classes text offset : Trace L Match).values = e.outcomes opens classes text offset
  | ⟨capture, target, q, none⟩, text, offset => by
    rw [Entry.trace, Entry.values_traceOf, Entry.outcomes]
    have once (f : Found → Match) (fs : List Found) :
        fs.filterMap (fun found => some (f found)) = fs.map f := congrFun List.filterMap_eq_map' fs
    simp only [Target.values_trace target text, Grammar.reread, Seen.of, Option.map_some, once,
      List.isEmpty_map, ite_self]
  | ⟨capture, target, q, some second⟩, text, offset => by
    rw [Entry.trace, Entry.values_traceOf, Entry.outcomes]
    simp only [Target.values_trace target text, Grammar.reread, Trace.settle_whole,
      Grammar.values_trace second, Option.map_map, Function.comp_def]

theorem Target.values_trace : ∀ (t : Target) (text : Text) (offset : Nat),
    (t.trace opens classes text offset : Trace L Found).values = t.outcomes opens classes text offset
  | .checker c, text, offset => by
    cases c with
    | grammar g =>
      simp only [Target.trace, Target.outcomes]
      split
      · rw [Trace.values_map, Grammar.values_trace g]
      · simp only [Trace.values_ofSeen, Seen.found, Trace.settle_beginning, Grammar.values_trace g]
        cases g.outcomes opens classes text offset <;> rfl
    | fixed regions =>
      simp only [Target.trace, Target.outcomes]
      split <;> rfl
    | _ => simp only [Target.trace, Target.outcomes, Trace.values_ofSeen, Checker.value_tried]
  | .ref _, _, _ | .type _, _, _ => by
    simp only [Target.trace, Target.outcomes, Trace.values_nothing]

theorem Checker.value_tried : ∀ (c : Checker) (text : Text) (offset : Nat),
    (c.tried opens classes text offset : Seen L (Option Found)).value =
      c.found opens classes text offset
  | .grammar g, text, offset => by
    simp only [Checker.tried, Checker.found, Seen.found, Trace.settle_beginning,
      Grammar.values_trace g]
  | .oneOf choices fallback, text, offset => by
    have among := Checker.value_triedAmong choices text offset
    have other := Checker.value_triedFallback fallback text offset
    simp only [Checker.tried, Checker.found, ← among, ← other]
    cases h : (Checker.triedAmong opens classes choices text offset : Seen L (Option Found)).value
      with
    | some found => simp only [h]
    | none => simp only
  | .char _, _, _ | .word _, _, _ | .any _, _, _ | .not _, _, _ | .fixed _, _, _ => by
    simp only [Checker.tried, Seen.of]

theorem Checker.value_triedAmong : ∀ (cs : List Checker) (text : Text) (offset : Nat),
    (Checker.triedAmong opens classes cs text offset : Seen L (Option Found)).value =
      Checker.longestFound opens classes cs text offset
  | [], _, _ => by simp only [Checker.triedAmong, Checker.longestFound, Seen.of]
  | c :: cs, text, offset => by
    simp only [Checker.triedAmong, Checker.longestFound, Checker.value_tried c text offset,
      Checker.value_triedAmong cs text offset]

theorem Checker.value_triedFallback : ∀ (c : Option Checker) (text : Text) (offset : Nat),
    (Checker.triedFallback opens classes c text offset : Seen L (Option Found)).value =
      Checker.fallbackFound opens classes c text offset
  | none, _, _ => by simp only [Checker.triedFallback, Checker.fallbackFound, Seen.of]
  | some c, text, offset => by
    simp only [Checker.triedFallback, Checker.fallbackFound, Checker.value_tried c text offset]

end

end

end TextGrammar
