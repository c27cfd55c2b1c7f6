/-
Searches for printed grammars. What the printed form of a grammar is compiled to
says the same, and where the same was captured the standard types answer both
searches alike. So both grammars match every text up to the same place, and
capture the same of it, or both fail.
-/
import TextGrammar.Proofs.EchoedGrammars
import TextGrammar.Proofs.PrintedGrammars
import TextGrammar.Proofs.SuffixSearch

open Filter (atTop)

namespace TextGrammar

variable {L : Type} [FailureLog L] {env : TypeEnv}

/-! ## Checkers without types -/

mutual

/-- Without types and columns a checker echoes itself. -/
theorem Checker.Every.target : ∀ {c : Checker}, c.Every Entry.HasChecker (fun _ => False) →
    Target.Echoes L env (Grammar.Belong L env) (.checker c) (.checker c)
  | .char _, _ => (Checker.Echoes.char fun _ => rfl).target (by simp) (by simp)
  | .word _, _ => (Checker.Echoes.literal rfl rfl).target (by simp) (by simp)
  | .any width, _ => (Checker.Echoes.any width).target (by simp) (by simp)
  | .oneOf _ _, h =>
    (Checker.Echoes.oneOf (Checker.EveryOf.echoes h.1) (Checker.EveryIn.echoes h.2)).target
      (by simp) (by simp)
  | .not item, h =>
    (Checker.Echoes.not (Checker.Every.target (c := item) h).checker).target (by simp) (by simp)
  | .fixed _, h => h.1.elim
  | .grammar ⟨_⟩, h =>
    have hpass := Entry.EveryOf.passAlike h
    .walked hpass.echoes rfl hpass

theorem Checker.EveryOf.echoes : ∀ {cs : List Checker},
    Checker.EveryOf Entry.HasChecker (fun _ => False) cs →
      List.Forall₂ (Checker.Echoes L env) cs cs
  | [], _ => .nil
  | _ :: _, h => .cons (Checker.Every.target h.1).checker (Checker.EveryOf.echoes h.2)

theorem Checker.EveryIn.echoes : ∀ {c : Option Checker},
    Checker.EveryIn Entry.HasChecker (fun _ => False) c →
      Option.Rel (Checker.Echoes L env) c c
  | none, _ => .none
  | some c, h => .some (Checker.Every.target (c := c) h).checker

theorem Entry.EveryOf.passAlike : ∀ {es : List Entry},
    Entry.EveryOf Entry.HasChecker (fun _ => False) es → Entry.PassAlike L env es es
  | [], _ => .nil
  | _ :: _, h =>
    have hentry := Entry.Every.echoes h.1
    .cons hentry.1 hentry.2 (Entry.EveryOf.passAlike h.2)

theorem Entry.Every.echoes : ∀ {e : Entry}, e.Every Entry.HasChecker (fun _ => False) →
    e.Echoes L env e ∧ e.target.Echoes L env (Grammar.Belong L env) e.target
  | ⟨_, _, _, _⟩, h =>
    ⟨⟨rfl, .inl rfl, Grammar.EveryIn.echoes h.2.2⟩, Target.Every.echoes h.1 h.2.1⟩

theorem Target.Every.echoes {capture : Option Capture} {q : Quantifier} {second : Option Grammar} :
    ∀ {target : Target}, Entry.HasChecker ⟨capture, target, q, second⟩ →
      target.Every Entry.HasChecker (fun _ => False) →
        target.Echoes L env (Grammar.Belong L env) target
  | .checker c, _, h => Checker.Every.target (c := c) h
  | .ref _, hc, _ | .type _, hc, _ => nomatch hc.choose_spec

theorem Grammar.EveryIn.echoes : ∀ {g : Option Grammar},
    Grammar.EveryIn Entry.HasChecker (fun _ => False) g → Option.Rel (Grammar.Echoes L env) g g
  | none, _ => .none
  | some ⟨_⟩, h => .some (Entry.EveryOf.passAlike h).echoes

end

/-- With one outcome at most it is matched at once. -/
theorem Checker.Every.stays {c : Checker} (h : c.Every Entry.HasChecker fun _ => False)
    (sure : c.isDeterministic = some true) : c.Stays L env where
  echoes := h.target.checker
  closed := by
    rintro g rfl
    exact bne_eq_false_iff_eq.mpr sure

/-! ## The standard types -/

namespace Builtin

variable {type : ParserType} {host host' : Host}

/-- Built-in types give the same checkers wherever the same was captured. -/
theorem supply_echoes (h : type ∈ all) (hhost : host.Echoes host') (types : TypeEnv)
    (param : Option String) : types.supply host' param type = types.supply host param type := by
  have hbackref (name : String) (given : List Char → Checker) :
      types.supply host' param (backrefWith name given) =
        types.supply host param (backrefWith name given) := by
    cases param with
    | none => rfl
    | some capture =>
      have hchars := hhost.chars_lastNamed? capture
      simp only [backrefWith, TypeEnv.supply]
      generalize host.lastNamed? capture = found at hchars ⊢
      generalize host'.lastNamed? capture = found' at hchars ⊢
      cases found with
      | none =>
        obtain rfl := Option.map_eq_none_iff.mp hchars
        rfl
      | some found =>
        obtain ⟨found', rfl, hsame⟩ := Option.map_eq_some_iff.mp hchars
        simp only [hsame]
  simp only [all, List.mem_cons, List.not_mem_nil, or_false] at h
  rcases h with rfl | rfl | rfl | rfl | rfl | rfl | rfl | rfl
  case inr.inr.inr.inr.inl => exact hbackref _ _
  case inr.inr.inr.inr.inr.inl => exact hbackref _ _
  all_goals rfl

/-- Without a parameter that it needs a built-in type gives an error. -/
theorem supply_missing (h : type ∈ all) (hname : type.name ∈ parameterized) (types : TypeEnv)
    (host : Host) : types.supply host none type = .ok (.error (missingParam type.name)) := by
  simp only [all, List.mem_cons, List.not_mem_nil, or_false] at h
  rcases h with rfl | rfl | rfl | rfl | rfl | rfl | rfl | rfl
  case inr.inr.inl => rfl
  case inr.inr.inr.inr.inl => rfl
  case inr.inr.inr.inr.inr.inl => rfl
  all_goals exact absurd hname (by decide)

/-- Of a node, built-in types look at no more than its text and its parameter. -/
theorem seesMarks (h : type ∈ all) : type.SeesMarks := by
  intro host host' ref ref' _ htext hstart hstop hparam
  simp only [all, List.mem_cons, List.not_mem_nil, or_false] at h
  rcases h with rfl | rfl | rfl | rfl | rfl | rfl | rfl | rfl
  case inr.inr.inr.inl =>
    have hstring : ref'.string = ref.string := by
      simp only [NodeRef.string, NodeRef.chars, htext, hstart, hstop]
    simp only [identifierCI, ParserType.accepts, hparam, hstring]
  all_goals rfl

end Builtin

/-- Each reference is answered alike, if only by the same error. -/
theorem TypeRegistry.standard_answersAlike (r : TypeRef) :
    TypeRegistry.standard.env.AnswersAlike L r := by
  intro type htype
  obtain ⟨hmem, _⟩ := TypeRegistry.standard_find htype
  refine ⟨Builtin.seesMarks hmem, fun host host' hhost => ?_⟩
  rw [Builtin.supply_echoes hmem hhost]
  by_cases hparam : type.name ∈ Builtin.parameterized → r.param.isSome
  · obtain ⟨c, hsupply, sure, every⟩ :=
      Builtin.supply_sure hmem hparam TypeRegistry.standard.env host
    exact .inl ⟨c, hsupply, hsupply, every.stays sure⟩
  · obtain ⟨hname, hnone⟩ := Classical.not_imp.mp hparam
    have hmissing := Builtin.supply_missing hmem hname TypeRegistry.standard.env host
    rw [Option.not_isSome_iff_eq_none.mp hnone]
    exact .inr ⟨_, hmissing, hmissing⟩

/-! ## Matches -/

/-- Both matches end at the same place with the same captures, or both fail. -/
inductive MatchTree.Agree : Except Stop MatchTree → Except Stop MatchTree → Prop
  | matched {tree tree' : MatchTree} (hstop : tree'.root.stop = tree.root.stop)
    (hmarks : tree'.root.marks = tree.root.marks) : Agree (.ok tree) (.ok tree')
  | failed (error error' : ParseError) :
    Agree (.error (.refused error)) (.error (.refused error'))

/-- With enough steps grammars that echo each other match the same of every text. -/
theorem Grammar.Echoes.agree {g g' : Grammar} (h : g.Echoes (Option Failure) env g') (text : Text)
    (mode : Mode) : ∀ᶠ fuel in atTop,
      MatchTree.Agree (g.matchFrom fuel env text mode 0) (g'.matchFrom fuel env text mode 0) := by
  have echoes : (env.setting text).Echoes env (env.setting text) := ⟨rfl, rfl, rfl, rfl, rfl, rfl⟩
  simp only [Grammar.matchFrom_eq_verdict, searchWithin]
  rcases h _ _ mode 0 echoes (Nat.zero_le _) with
    ⟨⟨value, failures⟩, ⟨value', failures'⟩, hboth, hrun, hrun'⟩ |
      ⟨_, _, ⟨error, rfl, rfl⟩, hrun, hrun'⟩
  · filter_upwards [hrun, hrun'] with fuel hrun hrun'
    rw [hrun, hrun']
    cases hboth with
    | none => exact .failed _ _
    | some hm =>
      refine .matched hm.stop ?_
      simp only [MatchTree.ofNodes, Node.marks, hm.marks]
      rfl
  · filter_upwards [hrun, hrun'] with fuel hrun hrun'
    rw [hrun, hrun']
    exact .failed _ _

/-- **A printed grammar is compiled to one that matches the same.** Where no parts of the printed
form become something else, it compiles, and with enough steps the grammar it is compiled to matches
the same beginning of every text as the one that was printed, and the whole text if that does. -/
theorem TypeRegistry.compile_display_agrees {g : Grammar}
    (h : g.IsPrintable TypeRegistry.standard.vocabulary) :
    ∃ g', TypeRegistry.standard.compile g.display = .ok g' ∧ ∀ text : Text, ∃ enough,
      ∀ fuel ≥ enough,
        MatchTree.Agree (g.parse fuel TypeRegistry.standard.env text)
          (g'.parse fuel TypeRegistry.standard.env text) ∧
        MatchTree.Agree (g.matchWhole fuel TypeRegistry.standard.env text)
          (g'.matchWhole fuel TypeRegistry.standard.env text) := by
  obtain ⟨g', hcompile, hsame⟩ := Grammar.compile_display_restated h
  have hrefers : g.Throughout (fun _ => True) (Entry.Refers fun _ => True) := by
    refine h.mono (fun _ _ => trivial) fun e he => ?_
    have htarget := he.target
    unfold Entry.Refers
    split
    · trivial
    · trivial
    · next htype =>
      rw [htype] at htarget
      exact htarget
  have hechoes : g.Echoes (Option Failure) TypeRegistry.standard.env g' :=
    Grammar.Restated.echoes (fun r _ => TypeRegistry.standard_answersAlike r) hsame hrefers
  refine ⟨g', hcompile, fun text => Filter.eventually_atTop.mp ?_⟩
  filter_upwards [hechoes.agree text .beginning, hechoes.agree text .whole] with fuel hparse hwhole
  exact ⟨hparse, hwhole⟩

/-- A doubled character is matched alike by the grammar its printed form is compiled to. -/
theorem TypeRegistry.doubled_compile_display :
    Grammar.doubled.IsPrintable TypeRegistry.standard.vocabulary ∧
      ∃ g', TypeRegistry.standard.compile "(#first: .) !backref(first)!" = .ok g' ∧
        ∃ enough, ∀ fuel ≥ enough,
          MatchTree.Agree (Grammar.doubled.parse fuel TypeRegistry.standard.env #['a', 'a'])
            (g'.parse fuel TypeRegistry.standard.env #['a', 'a']) := by
  have hname : Pattern.IsName "first" :=
    ⟨'f', ['i', 'r', 's', 't'], rfl, by decide, List.all_iff_forall_prop.mp (by decide)⟩
  have hbackref : Pattern.IsName "backref" :=
    ⟨'b', ['a', 'c', 'k', 'r', 'e', 'f'], rfl, by decide,
      List.all_iff_forall_prop.mp (by decide)⟩
  have hfirst : Entry.IsPrintable TypeRegistry.standard.vocabulary
      ((Entry.ofChecker (.anyOf 1)).named "first") := by
    refine ⟨?_, trivial, Pattern.isWritable_one, by rintro ⟨⟩⟩
    rintro _ ⟨⟩
    exact hname
  have hsecond : Entry.IsPrintable TypeRegistry.standard.vocabulary
      (.ref "backref" (some "first")) := by
    refine ⟨by rintro _ ⟨⟩, ⟨rfl, hbackref, ?_⟩, Pattern.isWritable_one, by rintro _ _ _ ⟨⟩⟩
    rintro _ ⟨⟩
    decide
  have hany : Checker.IsPrintable TypeRegistry.standard.vocabulary (.anyOf 1) := by
    rintro _ ⟨⟩
    decide
  have hprintable : Grammar.doubled.IsPrintable TypeRegistry.standard.vocabulary :=
    ⟨⟨hfirst, hany, trivial⟩, ⟨hsecond, trivial, trivial⟩, trivial⟩
  obtain ⟨g', hcompile, hagree⟩ := TypeRegistry.compile_display_agrees hprintable
  obtain ⟨enough, h⟩ := hagree #['a', 'a']
  exact ⟨hprintable, g', hcompile, enough, fun fuel hfuel => (h fuel hfuel).1⟩

/-- Not every grammar that a pattern is compiled to can be printed: after a slash a star begins a
comment, which has no end. -/
theorem TypeRegistry.not_forall_compile_display : ¬ ∀ (pattern : String) (g : Grammar),
    TypeRegistry.standard.compile pattern = .ok g →
      ∃ g', TypeRegistry.standard.compile g.display = .ok g' := by
  intro h
  have hdisplay : (TypeRegistry.standard.compile "\\/*").toOption.map Grammar.display =
      some "/*" := by decide +kernel
  have hcomment : (TypeRegistry.standard.compile "/*").isOk = false := by decide +kernel
  cases hcompile : TypeRegistry.standard.compile "\\/*" with
  | error error =>
    rw [hcompile] at hdisplay
    cases hdisplay
  | ok g =>
    rw [hcompile] at hdisplay
    obtain ⟨g', hg'⟩ := h _ g hcompile
    rw [Option.some.inj hdisplay] at hg'
    rw [hg'] at hcomment
    cases hcomment

end TextGrammar
