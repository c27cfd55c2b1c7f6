/-
What simplification leaves as it is: the length a checker matches, the match it
finds as a choice, and whether it has at most one outcome — as far as searches
for the grammars inside it come to the same. Double negations are not among it,
since a negation takes one character where what it negates may take any number,
and neither are intersections of nothing. A record that takes the place of an
alternative adds nodes for its columns: with types these may be looked at, and
without types only where matches end is left as it is.
-/
import TextGrammar.Proofs.Choices
import TextGrammar.Proofs.RecordLayout
import TextGrammar.Proofs.SetMembership
import TextGrammar.Proofs.TiledAttempts

namespace TextGrammar

/-! ## What is asked of a grammar -/

/-- No double negation and no intersection of nothing. -/
def Checker.IsRegular : Checker → Prop
  | .char set => set.NoEmptyInter
  | .not (.not _) => False
  | _ => True

/-- An entry that is matched at once still is when its checker is simplified: an alternative becomes
no grammar that is walked. Where nodes are compared, it becomes no record either, whose columns
would be nodes. -/
def Entry.StaysWhole (deep : Bool) (entry : Entry) : Prop :=
  match entry.target with
  | .checker (.oneOf choices fallback) =>
    match Checker.simplify (.oneOf choices fallback) with
    | .fixed _ => deep = false
    | .grammar g => g.isDeterministic = some true
    | _ => True
  | _ => True

/-- Such an entry, which holds no other type than the one that goes by its name. Nodes have to be
compared if there are types, which may look at them. -/
structure Entry.Simplifies (types : String → ParserType) (deep : Bool) (entry : Entry) : Prop where
  whole : entry.StaysWhole deep
  named : entry.HoldsByName types
  untyped : deep = false → entry.HasChecker

variable {types : String → ParserType} {deep : Bool}

theorem Checker.simplify_not {item : Checker} (h : (Checker.not item).IsRegular) :
    Checker.simplify (.not item) = .not item.simplify := by
  cases item
  case not => exact absurd h id
  all_goals rfl

/-- Among simplified choices equal ones are the same. -/
theorem Checker.eq_of_same_simplifyAll {cs : List Checker}
    (h : ThroughoutAll Checker.IsRegular (Entry.Simplifies types deep) cs) :
    ∀ a ∈ simplifyAll cs, ∀ b ∈ simplifyAll cs, Checker.same a b = true → a = b := by
  have hnamed : ThroughoutAll (fun _ => True) (Entry.HoldsByName types) cs :=
    ThroughoutAll.mono (fun _ _ => trivial) (fun _ he => he.named) h
  have hsimple := throughoutAll_iff.mp (hnamed.simplify Entry.holdsByName_simplify)
  exact fun a ha b hb => eq_of_same (hsimple a ha) (hsimple b hb)

/-! ## Determinism -/

theorem bothDeterministic_true (a : Option Bool) :
    bothDeterministic a (fun _ => some true) = a := by
  rcases a with _ | _ | _ <;> rfl

theorem bothDeterministic_assoc (a b c : Option Bool) :
    bothDeterministic (bothDeterministic a fun _ => b) (fun _ => c) =
      bothDeterministic a fun _ => bothDeterministic b fun _ => c := by
  rcases a with _ | _ | _ <;> rcases b with _ | _ | _ <;> rcases c with _ | _ | _ <;> rfl

theorem bothDeterministic_left_comm (a b c : Option Bool) :
    bothDeterministic a (fun _ => bothDeterministic b fun _ => c) =
      bothDeterministic b fun _ => bothDeterministic a fun _ => c := by
  rcases a with _ | _ | _ <;> rcases b with _ | _ | _ <;> rcases c with _ | _ | _ <;> rfl

theorem bothDeterministic_twice (a b : Option Bool) :
    bothDeterministic a (fun _ => bothDeterministic a fun _ => b) =
      bothDeterministic a fun _ => b := by
  rcases a with _ | _ | _ <;> rcases b with _ | _ | _ <;> rfl

namespace Checker

theorem allDeterministic_append (cs ds : List Checker) :
    allDeterministic (cs ++ ds) =
      bothDeterministic (allDeterministic cs) fun _ => allDeterministic ds := by
  induction cs with
  | nil => rfl
  | cons c cs ih =>
    rw [List.cons_append, allDeterministic, ih, allDeterministic, bothDeterministic_assoc]

theorem allDeterministic_flatMap_choiceParts (cs : List Checker) :
    allDeterministic (cs.flatMap choiceParts) = allDeterministic cs := by
  have hparts (c : Checker) : allDeterministic c.choiceParts = c.isDeterministic := by
    unfold choiceParts
    split
    · exact (bothDeterministic_true _).symm
    · exact bothDeterministic_true _
  induction cs with
  | nil => rfl
  | cons c cs ih =>
    rw [List.flatMap_cons, allDeterministic_append, ih, hparts, allDeterministic]

theorem allDeterministic_cons_of_mem {c : Checker} {cs : List Checker} (hmem : c ∈ cs) :
    allDeterministic (c :: cs) = allDeterministic cs := by
  induction cs with
  | nil => cases hmem
  | cons d ds ih =>
    simp only [allDeterministic] at ih ⊢
    rcases List.mem_cons.mp hmem with rfl | hmem
    · exact bothDeterministic_twice _ _
    · rw [bothDeterministic_left_comm, ih hmem]

theorem allDeterministic_keepLast {cs : List Checker}
    (hsame : ∀ a ∈ cs, ∀ b ∈ cs, Checker.same a b = true → a = b) :
    allDeterministic (keepLast cs) = allDeterministic cs := by
  refine keepLast_induction _ (fun c ds es heq => ?_)
    (fun _ _ => allDeterministic_cons_of_mem) hsame
  rw [allDeterministic, heq, allDeterministic]

theorem isDeterministic_chooseSimple {cs : List Checker}
    (hsame : ∀ a ∈ cs, ∀ b ∈ cs, Checker.same a b = true → a = b) (fallback : Option Checker) :
    (chooseSimple cs fallback).isDeterministic =
      bothDeterministic (allDeterministic cs) fun _ => optionDeterministic fallback := by
  rw [← allDeterministic_keepLast hsame]
  unfold chooseSimple
  split
  · next c hkeep =>
    rw [hkeep, allDeterministic, bothDeterministic_assoc]
    exact (bothDeterministic_true _).symm
  · next d hkeep =>
    rw [hkeep]
    rfl
  · rw [alternative, isDeterministic, allDeterministic_flatMap_choiceParts]
  · rw [alternativeOr, isDeterministic, allDeterministic_flatMap_choiceParts]

end Checker

mutual

/-- Simplification changes nothing about the number of outcomes. -/
theorem Checker.isDeterministic_simplify : ∀ {c : Checker},
    c.Throughout Checker.IsRegular (Entry.Simplifies types deep) →
      c.simplify.isDeterministic = c.isDeterministic
  | .char _, _ | .word ⟨_, []⟩, _ | .word ⟨_, _ :: _⟩, _ | .any _, _ => rfl
  | .oneOf _ _, h => by
    rw [Checker.simplify,
      Checker.isDeterministic_chooseSimple (Checker.eq_of_same_simplifyAll h.2.1),
      Checker.allDeterministic_simplifyAll h.2.1, Checker.optionDeterministic_simplifyOption h.2.2,
      Checker.isDeterministic]
  | .not item, h => by
    rw [Checker.simplify_not h.1, Checker.isDeterministic,
      Checker.isDeterministic_simplify h.2, Checker.isDeterministic]
  | .fixed _, h => Region.allDeterministic_simplifyAll h.2
  | .grammar g, h => Grammar.isDeterministic_simplify (g := g) h.2

theorem Checker.allDeterministic_simplifyAll : ∀ {cs : List Checker},
    Checker.ThroughoutAll Checker.IsRegular (Entry.Simplifies types deep) cs →
      Checker.allDeterministic (Checker.simplifyAll cs) = Checker.allDeterministic cs
  | [], _ => rfl
  | _ :: _, h => by
    rw [Checker.simplifyAll, Checker.allDeterministic, Checker.isDeterministic_simplify h.1,
      Checker.allDeterministic_simplifyAll h.2, Checker.allDeterministic]

theorem Checker.optionDeterministic_simplifyOption : ∀ {c : Option Checker},
    Checker.ThroughoutOption Checker.IsRegular (Entry.Simplifies types deep) c →
      Checker.optionDeterministic (Checker.simplifyOption c) = Checker.optionDeterministic c
  | none, _ => rfl
  | some c, h => Checker.isDeterministic_simplify (c := c) h

theorem Region.allDeterministic_simplifyAll : ∀ {rs : List Region},
    Region.ThroughoutAll Checker.IsRegular (Entry.Simplifies types deep) rs →
      Region.allDeterministic (Region.simplifyAll rs) = Region.allDeterministic rs
  | [], _ => rfl
  | ⟨_, _, _⟩ :: _, h => by
    simp only [Region.simplifyAll, Region.simplify, Region.allDeterministic, Region.isDeterministic,
      Grammar.optionDeterministic_simplifyOption h.1, Region.allDeterministic_simplifyAll h.2]

theorem Grammar.isDeterministic_simplify : ∀ {g : Grammar},
    g.Throughout Checker.IsRegular (Entry.Simplifies types deep) →
      g.simplify.isDeterministic = g.isDeterministic
  | ⟨_⟩, h => Entry.allDeterministic_simplifyAll h

theorem Grammar.optionDeterministic_simplifyOption : ∀ {g : Option Grammar},
    Grammar.ThroughoutOption Checker.IsRegular (Entry.Simplifies types deep) g →
      Grammar.optionDeterministic (Grammar.simplifyOption g) = Grammar.optionDeterministic g
  | none, _ => rfl
  | some g, h => Grammar.isDeterministic_simplify (g := g) h

theorem Entry.allDeterministic_simplifyAll : ∀ {es : List Entry},
    Entry.ThroughoutAll Checker.IsRegular (Entry.Simplifies types deep) es →
      Entry.allDeterministic (Entry.simplifyAll es) = Entry.allDeterministic es
  | [], _ => rfl
  | ⟨_, t, _, _⟩ :: _, h => by
    have htarget : t.simplify.isDeterministic = t.isDeterministic := by
      cases t with
      | checker c => exact Checker.isDeterministic_simplify (c := c) h.1.2.1
      | ref r => rfl
      | type t => rfl
    simp only [Entry.simplifyAll, Entry.simplify, Entry.allDeterministic, Entry.isDeterministic,
      htarget, Grammar.optionDeterministic_simplifyOption h.1.2.2,
      Entry.allDeterministic_simplifyAll h.2]

end

/-! ## What is compared -/

/-- A match as far as it is compared: with its nodes, or just where it ends. -/
def Match.seen (deep : Bool) (m : Match) : Match := if deep then m else ⟨m.stop, []⟩

def Found.seen (deep : Bool) (found : Found) : Found :=
  if deep then found else ⟨found.stop, [], false⟩

def Node.seen (deep : Bool) (nodes : List Node) : List Node := if deep then nodes else []

@[simp] theorem Match.seen_stop (m : Match) : (m.seen deep).stop = m.stop := by
  cases deep <;> rfl

@[simp] theorem Found.seen_stop (found : Found) : (found.seen deep).stop = found.stop := by
  cases deep <;> rfl

theorem Found.seen_true : Found.seen true = id := rfl

theorem Match.seen_found (m : Match) : (m.seen deep).found.seen deep = m.found.seen deep := by
  cases deep <;> rfl

/-- What is found, whatever failures were met, as it is seen. -/
def Seen.through {L α : Type} (view : α → α) (seen : Seen L (Option α)) : Option α :=
  seen.value.map view

/-- Two results that look the same. -/
theorem Except.eq_of_map_eq {ε α β : Type} {f : α → β} {x y : Except ε α}
    (h : x.map f = y.map f) :
    (∃ e, x = .error e ∧ y = .error e) ∨ ∃ a b, x = .ok a ∧ y = .ok b ∧ f a = f b := by
  cases x with
  | error e =>
    cases y with
    | error e' =>
      obtain rfl := Except.error.inj h
      exact .inl ⟨e, rfl, rfl⟩
    | ok b => cases h
  | ok a =>
    cases y with
    | error e => cases h
    | ok b => exact .inr ⟨a, b, rfl, rfl, Except.ok.inj h⟩

/-- The same setting up to the nodes completed around it. -/
structure Setting.SeenAs (deep : Bool) (setting setting' : Setting) : Prop where
  alone : setting'.alone = setting.alone
  same : deep = true → setting' = setting

namespace Setting.SeenAs

variable {setting setting' : Setting}

theorem refl (setting : Setting) : setting.SeenAs deep setting := ⟨rfl, fun _ => rfl⟩

theorem text (h : setting.SeenAs deep setting') : setting'.text = setting.text :=
  congrArg (·.text) h.alone

theorem strategy (h : setting.SeenAs deep setting') : setting'.strategy = setting.strategy :=
  congrArg (·.strategy) h.alone

/-- Another text in both. -/
theorem withText (h : setting.SeenAs deep setting') (text : Text) :
    Setting.SeenAs deep { setting with text } { setting' with text } := by
  refine ⟨?_, fun hdeep => by rw [h.same hdeep]⟩
  have halone : ({ setting'.alone with text } : Setting) = { setting.alone with text } := by
    rw [h.alone]
  exact halone

end Setting.SeenAs

/-! ## Lengths -/

variable {L : Type} {run : Runner L} {setting setting' : Setting} {offset : Nat}

/-- Searches come to the same for a grammar and for the simplified one. -/
def Runner.Simplifies (types : String → ParserType) (deep : Bool) (run : Runner L) : Prop :=
  ∀ (setting setting' : Setting) (mode : Mode) (g : Grammar) (offset : Nat),
    setting.SeenAs deep setting' → setting.strategy = .standard →
      g.Throughout Checker.IsRegular (Entry.Simplifies types deep) →
        (run setting' mode g.simplify offset).map (Seen.through (Match.seen deep)) =
          (run setting mode g offset).map (Seen.through (Match.seen deep))

theorem longerLength_prefers : Prefers longerLength where
  none_left _ := rfl
  none_right a := by cases a <;> rfl
  assoc a b c := by
    cases a <;> cases b <;> cases c <;> simp only [longerLength, Nat.max_assoc]
  twice a b := by
    cases a <;> cases b <;> simp only [longerLength, Nat.max_self, Nat.max_assoc]
  keeps a b c h := by
    cases a <;> cases b <;> cases c <;>
      simp only [longerLength, Option.some.injEq, reduceCtorEq] at h ⊢ <;> omega

theorem Checker.longestAt_eq_best (cs : List Checker) :
    Checker.longestAt run setting offset cs =
      best (Checker.lengthAt run setting offset) longerLength cs := by
  induction cs with
  | nil => rfl
  | cons c cs ih => rw [Checker.longestAt, ih, best]

theorem Checker.lengthAt_oneOf (cs : List Checker) (fallback : Option Checker) :
    Checker.lengthAt run setting offset (.oneOf cs fallback) =
      bestOr (Checker.lengthAt run setting offset) longerLength cs fallback := by
  have hfallback : Checker.fallbackLengthAt run setting offset fallback =
      orElse (Checker.lengthAt run setting offset) fallback := by
    cases fallback <;> rfl
  simp only [Checker.lengthAt, longestAt_eq_best, hfallback, bestOr]
  cases best (Checker.lengthAt run setting offset) longerLength cs with
  | error e => rfl
  | ok value => cases value <;> rfl

theorem Region.declaredWidth_simplifyAll (regions : List Region) :
    Region.declaredWidth (Region.simplifyAll regions) = Region.declaredWidth regions := by
  have hwidths : (Region.simplifyAll regions).filterMap Region.width =
      regions.filterMap Region.width := by
    induction regions with
    | nil => rfl
    | cons region regions ih =>
      obtain ⟨name, width, g⟩ := region
      cases width with
      | none => exact ih
      | some width => exact congrArg (width :: ·) ih
  rw [Region.declaredWidth, hwidths, ← Region.declaredWidth]

section

variable (hrun : run.Simplifies types deep) (hstrategy : setting.strategy = .standard)
include hrun hstrategy

theorem Grammar.lengthAt_simplify {g : Grammar}
    (hg : g.Throughout Checker.IsRegular (Entry.Simplifies types deep)) :
    g.simplify.lengthAt run setting offset = g.lengthAt run setting offset := by
  unfold Grammar.lengthAt
  rcases Except.eq_of_map_eq (hrun _ _ .beginning g offset (.refl setting.alone) hstrategy hg) with
    ⟨stop, hsimple, hplain⟩ | ⟨a, b, hsimple, hplain, hvalue⟩
  · rw [hsimple, hplain]
  · have hstops := congrArg (Option.map (·.stop - offset)) hvalue
    simp only [Seen.through, Option.map_map, Function.comp_def, Match.seen_stop] at hstops
    simp only [hsimple, hplain, hstops]

theorem Grammar.matchesAll_simplify {g : Grammar}
    (hg : g.Throughout Checker.IsRegular (Entry.Simplifies types deep)) (text : Text) :
    g.simplify.matchesAll run setting text = g.matchesAll run setting text := by
  unfold Grammar.matchesAll
  rcases Except.eq_of_map_eq
      (hrun _ _ .whole g 0 (.refl { setting.alone with text }) hstrategy hg) with
    ⟨stop, hsimple, hplain⟩ | ⟨a, b, hsimple, hplain, hvalue⟩
  · rw [hsimple, hplain]
  · have hsome := congrArg Option.isSome hvalue
    simp only [Seen.through, Option.isSome_map] at hsome
    simp only [hsimple, hplain, hsome]

theorem Region.spansFrom_simplify {regions : List Region}
    (h : Region.ThroughoutAll Checker.IsRegular (Entry.Simplifies types deep) regions)
    (start : Nat) : Region.spansFrom run setting start (Region.simplifyAll regions) =
      Region.spansFrom run setting start regions := by
  induction regions generalizing start with
  | nil => rfl
  | cons region regions ih =>
    obtain ⟨name, width, g⟩ := region
    cases g with
    | none => simp only [Region.simplifyAll, Region.simplify, Grammar.simplifyOption,
        Region.spansFrom, ih h.2]
    | some g =>
      have hg (text : Text) := Grammar.matchesAll_simplify hrun hstrategy (g := g) h.1 text
      simp only [Region.simplifyAll, Region.simplify, Grammar.simplifyOption, Region.spansFrom,
        ih h.2, hg]

theorem Region.spansAt_simplify {regions : List Region}
    (h : Region.ThroughoutAll Checker.IsRegular (Entry.Simplifies types deep) regions) :
    Region.spansAt run setting offset (Region.simplifyAll regions) =
      Region.spansAt run setting offset regions := by
  rw [Region.spansAt, Region.declaredWidth_simplifyAll, Region.spansFrom_simplify hrun hstrategy h,
    ← Region.spansAt]

end

/-- A character matches like the word of that character. -/
theorem Checker.lengthAt_single (c : Char) :
    (Checker.single c).lengthAt run setting offset =
      (Checker.word ⟨c, []⟩).lengthAt run setting offset := by
  simp only [Checker.single, Checker.lengthAt, CharSet.contains, Word.lengthAt, Word.chars,
    Word.length, Text.hasAt, Bool.and_true, List.length_nil, Nat.zero_add]
  cases setting.text[offset]? with
  | none => rfl
  | some d =>
    have hcomm : (some d == some c) = (c == d) := by
      rw [Bool.eq_iff_iff, beq_iff_eq, beq_iff_eq, Option.some.injEq, eq_comm]
    simp only [hcomm]
    rfl

mutual

/-- **A simplified checker matches as many characters.** -/
theorem Checker.lengthAt_simplify (hrun : run.Simplifies types deep)
    (hstrategy : setting.strategy = .standard) : ∀ {c : Checker},
    c.Throughout Checker.IsRegular (Entry.Simplifies types deep) →
      c.simplify.lengthAt run setting offset = c.lengthAt run setting offset
  | .char _, h => by
    simp only [Checker.simplify, Checker.lengthAt, CharSet.contains_simplify h]
  | .word ⟨c, []⟩, _ => Checker.lengthAt_single c
  | .word ⟨_, _ :: _⟩, _ | .any _, _ => rfl
  | .oneOf cs fallback, h => by
    rw [Checker.simplify,
      Checker.one_chooseSimple longerLength_prefers Checker.lengthAt_oneOf
        (Checker.eq_of_same_simplifyAll h.2.1), Checker.lengthAt_oneOf, Checker.bestOr,
      Checker.best_simplifyAll (Checker.lengthAt_simplifyAll hrun hstrategy h.2.1), Checker.bestOr,
      Checker.lengthAt_simplifyOption hrun hstrategy h.2.2]
  | .not item, h => by
    rw [Checker.simplify_not h.1, Checker.lengthAt, Checker.lengthAt,
      Checker.lengthAt_simplify hrun hstrategy (c := item) h.2]
  | .fixed regions, h => by
    rw [Checker.simplify, Checker.lengthAt, Checker.lengthAt,
      Region.spansAt_simplify hrun hstrategy h.2]
  | .grammar g, h => Grammar.lengthAt_simplify hrun hstrategy (g := g) h.2

theorem Checker.lengthAt_simplifyAll (hrun : run.Simplifies types deep)
    (hstrategy : setting.strategy = .standard) : ∀ {cs : List Checker},
    Checker.ThroughoutAll Checker.IsRegular (Entry.Simplifies types deep) cs →
      ∀ c ∈ cs, c.simplify.lengthAt run setting offset = c.lengthAt run setting offset
  | [], _ => fun _ h => nomatch h
  | _ :: _, h => List.forall_mem_cons.mpr ⟨Checker.lengthAt_simplify hrun hstrategy h.1,
      Checker.lengthAt_simplifyAll hrun hstrategy h.2⟩

theorem Checker.lengthAt_simplifyOption (hrun : run.Simplifies types deep)
    (hstrategy : setting.strategy = .standard) : ∀ {c : Option Checker},
    Checker.ThroughoutOption Checker.IsRegular (Entry.Simplifies types deep) c →
      Checker.orElse (Checker.lengthAt run setting offset) (Checker.simplifyOption c) =
        Checker.orElse (Checker.lengthAt run setting offset) c
  | none, _ => rfl
  | some c, h => Checker.lengthAt_simplify hrun hstrategy (c := c) h

end

/-! ### In other surroundings -/

theorem Region.spansFrom_alone {regions : List Region} (start : Nat) :
    Region.spansFrom run setting.alone start regions =
      Region.spansFrom run setting start regions := by
  induction regions generalizing start with
  | nil => rfl
  | cons region regions ih =>
    simp only [Region.spansFrom, ih]
    rfl

theorem Region.spansAt_alone {regions : List Region} :
    Region.spansAt run setting.alone offset regions =
      Region.spansAt run setting offset regions := by
  rw [Region.spansAt, Region.spansFrom_alone, Region.spansAt]
  rfl

mutual

/-- What lies around a search has no say in lengths. -/
theorem Checker.lengthAt_alone : ∀ c : Checker,
    c.lengthAt run setting.alone offset = c.lengthAt run setting offset
  | .char _ | .word _ | .any _ | .grammar _ => rfl
  | .oneOf cs fallback => by
    rw [Checker.lengthAt, Checker.longestAt_alone cs, Checker.fallbackLengthAt_alone fallback,
      Checker.lengthAt]
  | .not item => by
    rw [Checker.lengthAt, Checker.lengthAt_alone item, Checker.lengthAt]
    rfl
  | .fixed regions => by rw [Checker.lengthAt, Region.spansAt_alone, Checker.lengthAt]

theorem Checker.longestAt_alone : ∀ cs : List Checker,
    Checker.longestAt run setting.alone offset cs = Checker.longestAt run setting offset cs
  | [] => rfl
  | c :: cs => by
    rw [Checker.longestAt, Checker.longestAt_alone cs, Checker.lengthAt_alone c, Checker.longestAt]

theorem Checker.fallbackLengthAt_alone : ∀ c : Option Checker,
    Checker.fallbackLengthAt run setting.alone offset c =
      Checker.fallbackLengthAt run setting offset c
  | none => rfl
  | some c => Checker.lengthAt_alone c

end

theorem Setting.SeenAs.lengthAt (h : setting.SeenAs deep setting') (c : Checker) :
    c.lengthAt run setting' offset = c.lengthAt run setting offset := by
  rw [← Checker.lengthAt_alone, h.alone, Checker.lengthAt_alone]

theorem Setting.SeenAs.spansAt (h : setting.SeenAs deep setting') (regions : List Region) :
    Region.spansAt run setting' offset regions = Region.spansAt run setting offset regions := by
  rw [← Region.spansAt_alone, h.alone, Region.spansAt_alone]

/-! ## Matches -/

variable [FailureLog L]

theorem longer_prefers : Prefers longer where
  none_left _ := rfl
  none_right := further_none
  assoc := further_assoc
  twice a b := by
    cases a <;> cases b <;> simp only [longer, further] <;> grind
  keeps a b c h := by
    cases a <;> cases b <;> cases c <;> simp only [longer, further] at h ⊢ <;> grind

/-- What the checker finds as a choice, whatever failures were met. -/
def Checker.chosenAt (run : Runner L) (setting : Setting) (offset : Nat) (c : Checker) :
    Except Stop (Option Found) :=
  (c.choiceAt run setting offset).map Seen.value

theorem Checker.choicesAt_eq_best (cs : List Checker) :
    (Checker.choicesAt run setting offset cs).map Seen.value =
      best (Checker.chosenAt run setting offset) longer cs := by
  induction cs with
  | nil => rfl
  | cons c cs ih =>
    rw [Checker.choicesAt, best, ← ih, Checker.chosenAt]
    cases Checker.choicesAt run setting offset cs with
    | error e => rfl
    | ok later => cases Checker.choiceAt run setting offset c <;> rfl

theorem Checker.chosenAt_oneOf (cs : List Checker) (fallback : Option Checker) :
    Checker.chosenAt run setting offset (.oneOf cs fallback) =
      bestOr (Checker.chosenAt run setting offset) longer cs fallback := by
  rw [bestOr, ← choicesAt_eq_best, Checker.chosenAt, Checker.choiceAt]
  cases Checker.choicesAt run setting offset cs with
  | error e => rfl
  | ok chosen =>
    obtain ⟨value, failures⟩ := chosen
    cases value with
    | some found => rfl
    | none =>
      cases fallback with
      | none => rfl
      | some c =>
        have hmap : (do
            let other ← Checker.choiceAt run setting offset c
            pure (⟨other.value, FailureLog.merge failures other.failures⟩ : Seen L _)).map
              Seen.value = (Checker.choiceAt run setting offset c).map Seen.value := by
          cases Checker.choiceAt run setting offset c <;> rfl
        exact hmap

/-- What the checker finds as a choice, as far as it is compared. -/
def Checker.choiceSeen (deep : Bool) (run : Runner L) (setting : Setting) (offset : Nat)
    (c : Checker) : Except Stop (Option Found) :=
  (c.chosenAt run setting offset).map (Option.map (Found.seen deep))

theorem Checker.choiceSeen_oneOf (cs : List Checker) (fallback : Option Checker) :
    Checker.choiceSeen deep run setting offset (.oneOf cs fallback) =
      bestOr (Checker.choiceSeen deep run setting offset) longer cs fallback := by
  rw [Checker.choiceSeen, Checker.chosenAt_oneOf]
  exact bestOr_map (further_map fun _ _ => by simp only [Found.seen_stop]) cs fallback

/-- Checkers that are neither grammars nor alternatives are found by their length. -/
theorem Checker.choiceSeen_of_lengthAt {c c' : Checker} (hg : ∀ g, c ≠ .grammar g)
    (hc : ∀ cs fb, c ≠ .oneOf cs fb) (hg' : ∀ g, c' ≠ .grammar g) (hc' : ∀ cs fb, c' ≠ .oneOf cs fb)
    (h : c'.lengthAt run setting' offset = c.lengthAt run setting offset) :
    c'.choiceSeen deep run setting' offset = c.choiceSeen deep run setting offset := by
  rw [Checker.choiceSeen, Checker.choiceSeen, Checker.chosenAt, Checker.chosenAt,
    Checker.choiceAt_of_lengthAt hg hc, Checker.choiceAt_of_lengthAt hg' hc', h]

theorem Checker.choiceSeen_grammar_simplify (hrun : run.Simplifies types deep)
    (hstrategy : setting.strategy = .standard) (hseen : setting.SeenAs deep setting') {g : Grammar}
    (hg : g.Throughout Checker.IsRegular (Entry.Simplifies types deep)) :
    (Checker.grammar g.simplify).choiceSeen deep run setting' offset =
      (Checker.grammar g).choiceSeen deep run setting offset := by
  simp only [Checker.choiceSeen, Checker.chosenAt, Checker.choiceAt]
  rcases Except.eq_of_map_eq (hrun _ _ .beginning g offset hseen hstrategy hg) with
    ⟨stop, hsimple, hplain⟩ | ⟨a, b, hsimple, hplain, hvalue⟩
  · rw [hsimple, hplain]
  · have hfound := congrArg (Option.map fun m : Match => m.found.seen deep) hvalue
    simp only [Seen.through, Option.map_map, Function.comp_def, Match.seen_found] at hfound
    rw [hsimple, hplain]
    simp only [bind, pure, Except.bind, Except.pure, Except.map, Option.map_map, Function.comp_def,
      hfound]

mutual

/-- **A simplified checker finds the same match** as a choice. -/
theorem Checker.choiceSeen_simplify (hrun : run.Simplifies types deep)
    (hstrategy : setting.strategy = .standard) (hseen : setting.SeenAs deep setting') :
    ∀ {c : Checker},
    c.Throughout Checker.IsRegular (Entry.Simplifies types deep) →
      c.simplify.choiceSeen deep run setting' offset = c.choiceSeen deep run setting offset
  | .char set, h =>
    Checker.choiceSeen_of_lengthAt (by simp) (by simp) (by simp [Checker.simplify])
      (by simp [Checker.simplify]) ((hseen.lengthAt _).trans
        (Checker.lengthAt_simplify hrun hstrategy (c := .char set) h))
  | .word ⟨c, []⟩, h =>
    Checker.choiceSeen_of_lengthAt (by simp) (by simp) (by simp [Checker.simplify, Checker.single])
      (by simp [Checker.simplify, Checker.single])
      ((hseen.lengthAt _).trans (Checker.lengthAt_single c))
  | .word ⟨_, _ :: _⟩, _ | .any _, _ =>
    Checker.choiceSeen_of_lengthAt (by simp) (by simp) (by simp [Checker.simplify])
      (by simp [Checker.simplify]) (hseen.lengthAt _)
  | .oneOf cs fallback, h => by
    rw [Checker.simplify,
      Checker.one_chooseSimple longer_prefers Checker.choiceSeen_oneOf
        (Checker.eq_of_same_simplifyAll h.2.1), Checker.choiceSeen_oneOf, Checker.bestOr,
      Checker.best_simplifyAll (Checker.choiceSeen_simplifyAll hrun hstrategy hseen h.2.1),
      Checker.bestOr, Checker.choiceSeen_simplifyOption hrun hstrategy hseen h.2.2]
  | .not item, h => by
    have hlength : _ = Checker.lengthAt run setting offset _ :=
      (hseen.lengthAt _).trans (Checker.lengthAt_simplify hrun hstrategy h)
    rw [Checker.simplify_not h.1] at hlength ⊢
    exact Checker.choiceSeen_of_lengthAt (by simp) (by simp) (by simp) (by simp) hlength
  | .fixed regions, h =>
    Checker.choiceSeen_of_lengthAt (by simp) (by simp) (by simp [Checker.simplify])
      (by simp [Checker.simplify]) ((hseen.lengthAt _).trans
        (Checker.lengthAt_simplify hrun hstrategy (c := .fixed regions) h))
  | .grammar g, h => Checker.choiceSeen_grammar_simplify hrun hstrategy hseen (g := g) h.2

theorem Checker.choiceSeen_simplifyAll (hrun : run.Simplifies types deep)
    (hstrategy : setting.strategy = .standard) (hseen : setting.SeenAs deep setting') :
    ∀ {cs : List Checker},
    Checker.ThroughoutAll Checker.IsRegular (Entry.Simplifies types deep) cs → ∀ c ∈ cs,
      c.simplify.choiceSeen deep run setting' offset = c.choiceSeen deep run setting offset
  | [], _ => fun _ h => by cases h
  | _ :: _, h =>
    List.forall_mem_cons.mpr ⟨Checker.choiceSeen_simplify hrun hstrategy hseen h.1,
      Checker.choiceSeen_simplifyAll hrun hstrategy hseen h.2⟩

theorem Checker.choiceSeen_simplifyOption (hrun : run.Simplifies types deep)
    (hstrategy : setting.strategy = .standard) (hseen : setting.SeenAs deep setting') :
    ∀ {c : Option Checker},
    Checker.ThroughoutOption Checker.IsRegular (Entry.Simplifies types deep) c →
      Checker.orElse (Checker.choiceSeen deep run setting' offset) (Checker.simplifyOption c) =
        Checker.orElse (Checker.choiceSeen deep run setting offset) c
  | none, _ => rfl
  | some c, h => Checker.choiceSeen_simplify hrun hstrategy hseen (c := c) h

end

/-- What the checker of an entry finds, as far as it is compared. -/
def Checker.takenSeen (deep : Bool) (run : Runner L) (setting : Setting) (offset : Nat)
    (c : Checker) : Except Stop (Option Found) :=
  (c.foundAt run setting offset).map (Seen.through (Found.seen deep))

theorem Region.nodes_simplifyAll (regions : List Region) (spans : List (Nat × Nat)) :
    Region.nodes (Region.simplifyAll regions) spans = Region.nodes regions spans := by
  induction regions generalizing spans with
  | nil => rfl
  | cons region regions ih =>
    obtain ⟨name, width, g⟩ := region
    cases spans with
    | nil => rfl
    | cons span spans => exact congrArg (_ :: ·) (ih spans)

/-- A record is found where it is as a choice. -/
theorem Checker.takenSeen_fixed (regions : List Region) :
    (Checker.fixed regions).takenSeen false run setting offset =
      (Checker.fixed regions).choiceSeen false run setting offset := by
  simp only [Checker.takenSeen, Checker.foundAt, Checker.choiceSeen, Checker.chosenAt,
    Checker.choiceAt, Checker.lengthAt]
  cases hspans : Region.spansAt run setting offset regions with
  | error f => rfl
  | ok spans? =>
    cases spans? with
    | none => rfl
    | some spans =>
      have hle : offset + (lastStop offset spans - offset) = lastStop offset spans :=
        Nat.add_sub_cancel' (Region.le_lastStop hspans)
      simp [Seen.through, Seen.of, Found.seen, bind, pure, Except.bind, Except.pure, Except.map,
        hle]

theorem Checker.takenSeen_eq_choiceSeen {c : Checker}
    (h : deep = false ∨ ∀ regions, c ≠ .fixed regions) :
    c.takenSeen deep run setting offset = c.choiceSeen deep run setting offset := by
  have hplain (h : ∀ regions, c ≠ .fixed regions) :
      c.takenSeen deep run setting offset = c.choiceSeen deep run setting offset := by
    have hfound : c.foundAt run setting offset = c.choiceAt run setting offset := by
      cases c with
      | fixed regions => exact absurd rfl (h regions)
      | _ => rfl
    rw [Checker.takenSeen, hfound, Checker.choiceSeen, Checker.chosenAt]
    cases c.choiceAt run setting offset <;> rfl
  rcases h with rfl | h
  · cases c with
    | fixed regions => exact Checker.takenSeen_fixed regions
    | _ => exact hplain (by simp)
  · exact hplain h

/-- Where nodes are compared only a record becomes a record, in an entry that stays as it is. -/
theorem Checker.simplify_ne_fixed {c : Checker} (hregular : c.IsRegular)
    (hwhole : (Entry.ofChecker c).StaysWhole deep) (h : ∀ regions, c ≠ .fixed regions) :
    deep = false ∨ ∀ regions, c.simplify ≠ .fixed regions := by
  by_cases hfixed : ∃ regions, c.simplify = .fixed regions
  · obtain ⟨regions, heq⟩ := hfixed
    left
    cases c with
    | char set => cases heq
    | word word =>
      obtain ⟨c, _ | ⟨_, _⟩⟩ := word
      · cases heq
      · cases heq
    | oneOf cs fallback =>
      simpa only [Entry.StaysWhole, Entry.ofChecker, Entry.ofTarget, heq] using hwhole
    | any width => cases heq
    | not item =>
      rw [simplify_not hregular] at heq
      cases heq
    | fixed regions => exact absurd rfl (h regions)
    | grammar g => cases heq
  · exact .inr fun regions heq => hfixed ⟨regions, heq⟩

section

variable (hrun : run.Simplifies types deep) (hstrategy : setting.strategy = .standard)
  (hseen : setting.SeenAs deep setting')
include hrun hstrategy hseen

/-- **An entry finds the same match** with its checker simplified. -/
theorem Checker.takenSeen_simplify {c : Checker}
    (h : c.Throughout Checker.IsRegular (Entry.Simplifies types deep))
    (hwhole : (Entry.ofChecker c).StaysWhole deep) :
    c.simplify.takenSeen deep run setting' offset = c.takenSeen deep run setting offset := by
  by_cases hfixed : ∃ regions, c = .fixed regions
  · obtain ⟨regions, rfl⟩ := hfixed
    have hspans : _ = Region.spansAt run setting offset _ :=
      (hseen.spansAt _).trans (Region.spansAt_simplify hrun hstrategy h.2)
    simp only [Checker.simplify, Checker.takenSeen, Checker.foundAt, hspans,
      Region.nodes_simplifyAll]
  · have hne : ∀ regions, c ≠ .fixed regions := fun regions heq => hfixed ⟨regions, heq⟩
    rw [Checker.takenSeen_eq_choiceSeen (.inr hne),
      Checker.takenSeen_eq_choiceSeen (Checker.simplify_ne_fixed h.checker hwhole hne),
      Checker.choiceSeen_simplify hrun hstrategy hseen h]

/-! ## Completing a match -/

theorem Entry.reread_simplify {entry : Entry}
    (h : entry.Throughout Checker.IsRegular (Entry.Simplifies types deep)) {found found' : Found}
    (hfound : found'.seen deep = found.seen deep) :
    (entry.simplify.reread run setting' offset found').map (Seen.through (Found.seen deep)) =
      (entry.reread run setting offset found).map (Seen.through (Found.seen deep)) := by
  have hstop : found'.stop = found.stop := by
    simpa only [Found.seen_stop] using congrArg Found.stop hfound
  obtain ⟨capture, target, q, second⟩ := entry
  cases second with
  | none => exact congrArg (fun f => Except.ok (some f)) hfound
  | some g =>
    simp only [Entry.simplify, Grammar.simplifyOption, Entry.reread, hstop, hseen.text]
    split
    · rcases Except.eq_of_map_eq (hrun _ _ .whole g offset
        (hseen.withText (setting.text.slice 0 found.stop)) hstrategy h.2.2) with
        ⟨stop, hsimple, hplain⟩ | ⟨a, b, hsimple, hplain, hvalue⟩
      · rw [hsimple, hplain]
      · have hkept := congrArg
          (Option.map fun m : Match => (⟨found.stop, m.nodes, true⟩ : Found).seen deep) hvalue
        have hnodes (m : Match) : (⟨found.stop, (m.seen deep).nodes, true⟩ : Found).seen deep =
            (⟨found.stop, m.nodes, true⟩ : Found).seen deep := by
          cases deep <;> rfl
        simp only [Seen.through, Option.map_map, Function.comp_def, hnodes] at hkept
        rw [hsimple, hplain]
        simp only [bind, pure, Except.bind, Except.pure, Except.map, Seen.through, Option.map_map,
          Function.comp_def, hkept]
    · rfl

/-- **A match is completed with the same nodes** by the simplified entry. -/
theorem Entry.complete_simplify {entry : Entry}
    (h : entry.Throughout Checker.IsRegular (Entry.Simplifies types deep)) {found found' : Found}
    (hfound : found'.seen deep = found.seen deep) {use : Option TypeUse}
    (huse : deep = false → use = none) :
    (entry.simplify.complete run setting' offset found' use).map (Seen.through (Node.seen deep)) =
      (entry.complete run setting offset found use).map (Seen.through (Node.seen deep)) := by
  have hreread : (entry.simplify.reread run setting' offset found').map _ = _ :=
    Entry.reread_simplify hrun hstrategy hseen h hfound
  obtain ⟨capture, target, q, second⟩ := entry
  simp only [Entry.complete]
  rcases Except.eq_of_map_eq hreread with
    ⟨stop, hsimple, hplain⟩ | ⟨⟨value', failures'⟩, ⟨value, failures⟩, hsimple, hplain, hvalue⟩
  · rw [hsimple, hplain]
    rfl
  rw [hsimple, hplain]
  cases deep with
  | false =>
    obtain rfl := huse rfl
    cases value <;> cases value' <;> first | rfl | cases hvalue
  | true =>
    obtain rfl := hseen.same rfl
    obtain rfl : value' = value := by
      simpa only [Seen.through, Found.seen_true, Option.map_id_fun, id] using hvalue
    cases value' with
    | none => rfl
    | some kept =>
      cases use with
      | none => rfl
      | some use =>
        have hnode : (Entry.simplify ⟨capture, target, q, second⟩).typedNode offset kept use =
          Entry.typedNode ⟨capture, target, q, second⟩ offset kept use := rfl
        have hflat : (Entry.simplify ⟨capture, target, q, second⟩).isFlat =
          Entry.isFlat ⟨capture, target, q, second⟩ := rfl
        simp only [hnode, hflat, bind, Except.bind]
        split <;> rfl

end

end TextGrammar
