/-
Registrations and searches in any order. A search compiles the pattern types it
needs and leaves them in the registry, with the error where one does not compile.
What a later search finds is what it would find in a registry with the same
registrations and no search before, as long as no kept error is about a type that
has been registered since. An error of that kind is kept for good, though, so a
search made too early does change what later ones find.
-/
import TextGrammar.Proofs.BackReferences
import TextGrammar.Proofs.CompiledTypes
import TextGrammar.Proofs.Questions

namespace TextGrammar

/-! ## Sources of pattern types -/

/-- A pattern type has the text that is the source of its cell. -/
def ParserType.FromSource (sources : List String) : ParserType → Prop
  | .computed _ _ _ _ _ => True
  | .pattern _ text cell => sources[cell]? = some text

variable {sources : List String}

theorem Builtin.holdsOnly_of_mem_all {type : ParserType} (h : type ∈ Builtin.all) :
    type.HoldsOnly (ParserType.FromSource sources) := by
  have hevery := Builtin.every_of_mem_all h
  refine ⟨?_, ParserType.Every.combine (fun e he _ t ht => ?_) (fun _ _ _ => trivial) hevery hevery⟩
  · simp only [all, List.mem_cons, List.not_mem_nil, or_false] at h
    rcases h with rfl | rfl | rfl | rfl | rfl | rfl | rfl | rfl <;> trivial
  · obtain ⟨c, hc⟩ := he
    rw [hc] at ht
    cases ht

namespace TypeRegistry

variable {registry : TypeRegistry}

/-! ## All pattern types compiled -/

/-- The types of the registry, with every pattern type compiled that is not compiled yet. -/
def filledEnv (sources : List String) (registry : TypeRegistry) : TypeEnv :=
  ⟨registry.find?, registry.classes, fun cell =>
    (registry.compiled.lookup cell).or (sources[cell]?.map registry.compileChecker)⟩

/-- A pattern type of this cell is not compiled yet. -/
def IsMissing (sources : List String) (registry : TypeRegistry) : Fault → Prop
  | .uncompiled cell text => sources[cell]? = some text ∧ registry.compiled.lookup cell = none
  | .outOfRange | .outOfFuel => False

def IsUncompiled : Fault → Prop
  | .uncompiled _ _ => True
  | .outOfRange | .outOfFuel => False

/-- A search in a registry, and one where every pattern type is compiled. -/
def filledPair (sources : List String) (registry : TypeRegistry) : Pairing where
  types := registry.env
  types' := registry.filledEnv sources
  strategy := .standard
  strategy' := .standard
  early := registry.IsMissing sources
  common f := ¬ IsUncompiled f
  late n := n = 0
  around := SameAround
  kept := Pairing.SameKept fun c =>
    c.Every (Entry.Asks (registry.filledEnv sources) (·.type.FromSource sources)) fun _ => True
  useOk use := use.type.FromSource sources

/-- A type gives the same checker in both, unless it is yet to be compiled. -/
theorem supply_follows {type : ParserType} (htype : type.FromSource sources) (host : Host)
    (param : Option String) :
    (filledPair sources registry).Faults Eq (registry.env.supply host param type)
      ((registry.filledEnv sources).supply host param type) := by
  cases type with
  | computed name hostDependent supply accepts evaluate => exact .ok rfl
  | pattern name text cell =>
    cases hlookup : registry.compiled.lookup cell with
    | none =>
      simp only [TypeEnv.supply, env, hlookup]
      exact .early ⟨htype, hlookup⟩
    | some result =>
      simp only [TypeEnv.supply, env, filledEnv, hlookup, Option.some_or]
      exact .ok rfl

theorem filledEnv_holdsOnly (h : registry.HoldsOnly (ParserType.FromSource sources)) :
    (registry.filledEnv sources).HoldsOnly (ParserType.FromSource sources) where
  found := h.env.found
  compiled cell c hc := by
    simp only [filledEnv] at hc
    cases hlookup : registry.compiled.lookup cell with
    | some result =>
      rw [hlookup, Option.some_or] at hc
      exact h.env.compiled cell c (hlookup.trans hc)
    | none =>
      rw [hlookup, Option.none_or] at hc
      obtain ⟨text, _, hcompile⟩ := Option.map_eq_some_iff.mp hc
      exact compileChecker_holdsOnly hcompile

theorem filledPair_lawful (h : registry.HoldsOnly (ParserType.FromSource sources)) :
    (filledPair sources registry).Lawful := by
  have shared : (filledPair sources registry).Shared := {
    zero := rfl
    nothing := SameAround.nothing
    levels := SameAround.levels
    outOfFuel := id
    outOfRange := id
    classes := rfl
    find := rfl
    found := fun name type hfind => (filledEnv_holdsOnly h).type_asks (h.env.found name type hfind)
    opens := rfl
    accepts := by
      rintro n use rfl - text tail offset outer outer' node htext hout
      exact accepts_at_zero use.type htext hout offset node }
  refine shared.lawful rfl rfl (fun use host c huse hc => (filledEnv_holdsOnly h).supplied_asks huse
    hc) ?_
  rintro n use text tail offset outer outer' rfl huse htext hout
  rw [htext.eq_of_zero, hout.eq_of_zero]
  exact supply_follows huse.1 _ use.param

/-- A question has the answer that it has with every pattern type compiled, unless it needs one that
is not compiled yet. -/
theorem ask_filled (h : registry.HoldsOnly (ParserType.FromSource sources)) {g : Grammar}
    (hg : g.HoldsOnly (ParserType.FromSource sources)) (fuel : Nat) (text : Text)
    (question : Question) :
    SameUnless (registry.IsMissing sources) (fun f => ¬ IsUncompiled f)
      (question.ask fuel registry.env text g)
      (question.ask fuel (registry.filledEnv sources) text g) := by
  have hs : (filledPair sources registry).Apart 0 (registry.env.setting text)
      ((registry.filledEnv sources).setting text) :=
    ⟨rfl, rfl, rfl, rfl, rfl, .refl text, rfl⟩
  rw [Question.ask_eq_answer, Question.ask_eq_answer]
  exact question.answer_sameUnless (fun mode start => (Pairing.searchWithin_follows
    (filledPair_lawful h) (.same fuel) 0 _ _ mode g start hs
      ((filledEnv_holdsOnly h).grammar_asks hg)).eq_of_zero) text g

/-! ## Compiling what is missing -/

/-- Cells that are not compiled yet. -/
def missing (sources : List String) (registry : TypeRegistry) : Finset Nat :=
  {cell ∈ Finset.range sources.length | registry.compiled.lookup cell = none}

theorem card_missing_le (sources : List String) (registry : TypeRegistry) :
    (registry.missing sources).card ≤ sources.length :=
  (Finset.card_filter_le _ _).trans_eq (Finset.card_range _)

theorem lookup_compileCell (cell : Nat) (text : String) (other : Nat) :
    (registry.compileCell cell text).compiled.lookup other =
      if other = cell then some (registry.compileChecker text)
      else registry.compiled.lookup other := by
  show List.lookup other ((cell, registry.compileChecker text) :: registry.compiled) = _
  rw [List.lookup_cons]
  by_cases hother : other = cell
  · rw [if_pos hother, beq_iff_eq.mpr hother]
  · rw [if_neg hother, beq_eq_false_iff_ne.mpr hother]

section

variable {cell : Nat} {text : String} (hsource : sources[cell]? = some text)
  (hnone : registry.compiled.lookup cell = none)
include hsource hnone

theorem card_missing_compileCell :
    ((registry.compileCell cell text).missing sources).card < (registry.missing sources).card := by
  refine Finset.card_lt_card (Finset.ssubset_iff_of_subset (fun other hother => ?_) |>.mpr
    ⟨cell, ?_, ?_⟩)
  · obtain ⟨hrange, hmissing⟩ := Finset.mem_filter.mp hother
    rw [lookup_compileCell] at hmissing
    split at hmissing
    · cases hmissing
    · exact Finset.mem_filter.mpr ⟨hrange, hmissing⟩
  · have hrange := Finset.mem_range.mpr (List.getElem?_eq_some_iff.mp hsource).1
    exact Finset.mem_filter.mpr ⟨hrange, hnone⟩
  · intro hmem
    have hmissing := (Finset.mem_filter.mp hmem).2
    rw [lookup_compileCell, if_pos rfl] at hmissing
    cases hmissing

/-- Compiling a cell that is missing is what filling in does. -/
theorem filledEnv_compileCell :
    (registry.compileCell cell text).filledEnv sources = registry.filledEnv sources := by
  have hcells (other : Nat) : ((registry.compileCell cell text).compiled.lookup other).or
        (sources[other]?.map registry.compileChecker) =
      (registry.compiled.lookup other).or (sources[other]?.map registry.compileChecker) := by
    rw [lookup_compileCell]
    split
    · next hother =>
      rw [hother, hnone, hsource]
      rfl
    · rfl
  simp only [filledEnv, TypeEnv.mk.injEq]
  exact ⟨rfl, rfl, funext hcells⟩

end

variable {g : Grammar}

/-- **Every question is answered as if all pattern types were compiled**, given enough rounds to
compile those that are missing. -/
theorem supplying_filled (h : registry.HoldsOnly (ParserType.FromSource sources))
    (hg : g.HoldsOnly (ParserType.FromSource sources)) (fuel : Nat) (text : Text)
    (question : Question) {rounds : Nat} (hrounds : (registry.missing sources).card < rounds) :
    (registry.supplying (fun types => question.ask fuel types text g) rounds).1 =
      question.ask fuel (registry.filledEnv sources) text g := by
  induction rounds generalizing registry with
  | zero => exact absurd hrounds (Nat.not_lt_zero _)
  | succ rounds ih =>
    simp only [supplying]
    rcases (ask_filled h hg fuel text question).or with ⟨f, hmissing, heq⟩ | ⟨heq, hcommon⟩
    · cases f with
      | uncompiled cell source =>
        obtain ⟨hsource, hnone⟩ := hmissing
        have hfewer := card_missing_compileCell hsource hnone
        have hrest := ih (h.compileCell cell source) (by omega)
        rw [filledEnv_compileCell hsource hnone] at hrest
        rw [heq]
        exact hrest
      | outOfRange => exact hmissing.elim
      | outOfFuel => exact hmissing.elim
    · rw [← heq]
      split
      · next hask => exact absurd trivial (hcommon _ hask)
      · rfl

/-- What each compiled cell keeps true, a question keeps true. -/
theorem supplying_keeps {P : TypeRegistry → Prop}
    (hcompile : ∀ registry, P registry → ∀ cell text, sources[cell]? = some text →
      P (registry.compileCell cell text))
    (h : registry.HoldsOnly (ParserType.FromSource sources))
    (hg : g.HoldsOnly (ParserType.FromSource sources)) (hP : P registry) (fuel : Nat) (text : Text)
    (question : Question) (rounds : Nat) :
    P (registry.supplying (fun types => question.ask fuel types text g) rounds).2 := by
  induction rounds generalizing registry with
  | zero => exact hP
  | succ rounds ih =>
    simp only [supplying]
    split
    · next cell source hask =>
      rcases (ask_filled h hg fuel text question).or with ⟨f, hmissing, heq⟩ | ⟨_, hcommon⟩
      · rw [heq] at hask
        cases hask
        exact ih (h.compileCell cell source) (hcompile registry hP cell source hmissing.1)
      · exact absurd trivial (hcommon _ hask)
    · exact hP

/-! ## What is kept -/

/-- What has been compiled of a cell is what would be compiled of it now, or an error about a type
that has been registered since. -/
def KeepsSources (sources : List String) (registry : TypeRegistry) : Prop :=
  ∀ kept ∈ registry.compiled, ∃ text, sources[kept.1]? = some text ∧
    (kept.2 = registry.compileChecker text ∨
      ∃ name offset, kept.2 = .error (.unknownType name offset) ∧
        (registry.find? name).isSome = true)

/-- The result is an error about a type that is registered. -/
def isOutdated (registry : TypeRegistry) : Except GrammarError Checker → Bool
  | .error (.unknownType name _) => (registry.find? name).isSome
  | _ => false

/-- No error is kept about a type that has been registered since. -/
def IsCurrent (registry : TypeRegistry) : Prop :=
  ∀ kept ∈ registry.compiled, registry.isOutdated kept.2 = false

instance : DecidablePred IsCurrent := fun registry =>
  inferInstanceAs (Decidable (∀ kept ∈ registry.compiled, registry.isOutdated kept.2 = false))

/-- With nothing outdated, every cell is as it would be compiled now. -/
theorem KeepsSources.filledEnv_eq (h : registry.KeepsSources sources)
    (hcurrent : registry.IsCurrent) :
    registry.filledEnv sources = ⟨registry.find?, registry.classes,
      fun cell => sources[cell]?.map registry.compileChecker⟩ := by
  have hcells (cell : Nat) : (registry.compiled.lookup cell).or
      (sources[cell]?.map registry.compileChecker) =
        sources[cell]?.map registry.compileChecker := by
    cases hlookup : registry.compiled.lookup cell with
    | none => exact Option.none_or
    | some result =>
      obtain ⟨l₁, l₂, hl, _⟩ := List.lookup_eq_some_iff.mp hlookup
      have hmem : (cell, result) ∈ registry.compiled :=
        hl ▸ List.mem_append_right l₁ List.mem_cons_self
      obtain ⟨text, hsource, heq | ⟨name, offset, heq, hknown⟩⟩ := h _ hmem
      · rw [Option.some_or, hsource, Option.map_some]
        exact congrArg some heq
      · have hnot := hcurrent _ hmem
        rw [heq, isOutdated, hknown] at hnot
        cases hnot
  simp only [filledEnv, TypeEnv.mk.injEq]
  exact ⟨trivial, trivial, funext hcells⟩

theorem KeepsSources.compileCell (h : registry.KeepsSources sources) {cell : Nat} {text : String}
    (hsource : sources[cell]? = some text) :
    (registry.compileCell cell text).KeepsSources sources :=
  List.forall_mem_cons.mpr ⟨⟨text, hsource, .inl rfl⟩, h⟩

/-- A registered type is still found once there is another one. -/
theorem extended_find?_isSome {type : ParserType} {name : String}
    (h : (registry.find? name).isSome = true) :
    ((registry.extended type).find? name).isSome = true := by
  obtain ⟨found, hfind⟩ := Option.isSome_iff_exists.mp h
  obtain ⟨id, hid, hget⟩ := Option.bind_eq_some_iff.mp hfind
  have hlt : id.index < registry.types.length := (List.getElem?_eq_some_iff.1 hget).1
  rw [find?, extended_id?]
  split
  · rw [Option.bind_some, extended_get?, if_pos rfl]
    rfl
  · rw [hid, Option.bind_some, extended_get?, if_neg (Nat.ne_of_lt hlt), hget]
    rfl

/-- With one more type registered, a kept error may become outdated, and nothing else. -/
theorem KeepsSources.extended (h : registry.KeepsSources sources) (type : ParserType) :
    (registry.extended type).KeepsSources sources := by
  intro kept hkept
  obtain ⟨text, hsource, hkeeps⟩ := h kept hkept
  refine ⟨text, hsource, ?_⟩
  rcases hkeeps with heq | ⟨name, offset, heq, hknown⟩
  · have hwidens : Pattern.Widens (registry.extended type).vocabulary.knows
        (Grammar.HoldsOnly fun _ => True) (registry.compile text)
        ((registry.extended type).compile text) :=
      Pattern.compile_widens (fun _ hname => extended_find?_isSome hname) text
    rw [heq]
    simp only [compileChecker]
    generalize registry.compile text = x at hwidens ⊢
    generalize (registry.extended type).compile text = y at hwidens ⊢
    cases hwidens with
    | ok g _ => exact .inl rfl
    | error e => exact .inl rfl
    | known name offset y hname _ => exact .inr ⟨name, offset, rfl, hname⟩
  · exact .inr ⟨name, offset, heq, extended_find?_isSome hknown⟩

/-! ## Registries with the same registrations -/

/-- The registry has the types of another one that has compiled nothing, and may have compiled
some. -/
structure Resumes (sources : List String) (fresh registry : TypeRegistry) : Prop where
  types : registry.types = fresh.types
  index : registry.index = fresh.index
  classes : registry.classes = fresh.classes
  compiled : fresh.compiled = []
  holds : registry.HoldsOnly (ParserType.FromSource sources)
  keeps : registry.KeepsSources sources

namespace Resumes

variable {fresh : TypeRegistry}

theorem find? (h : Resumes sources fresh registry) : registry.find? = fresh.find? := by
  funext name
  simp only [TypeRegistry.find?, id?, h.index]
  congr 1
  funext id
  simp only [get?, h.types]

theorem compileChecker (h : Resumes sources fresh registry) :
    registry.compileChecker = fresh.compileChecker := by
  have hvocabulary : registry.vocabulary = fresh.vocabulary := by
    simp only [vocabulary, TypeEnv.vocabulary, env, h.find?, h.classes]
  funext text
  simp only [TypeRegistry.compileChecker, compile, hvocabulary]

theorem itself (h : Resumes sources fresh registry) : Resumes sources fresh fresh where
  types := rfl
  index := rfl
  classes := rfl
  compiled := h.compiled
  holds := ⟨h.types ▸ h.holds.types, by rw [h.compiled]; exact fun _ hkept => nomatch hkept⟩
  keeps := by
    rw [KeepsSources, h.compiled]
    exact fun _ hkept => nomatch hkept

theorem compileCell (h : Resumes sources fresh registry) {cell : Nat} {text : String}
    (hsource : sources[cell]? = some text) :
    Resumes sources fresh (registry.compileCell cell text) :=
  ⟨h.types, h.index, h.classes, h.compiled, h.holds.compileCell cell text,
    h.keeps.compileCell hsource⟩

/-- A question leaves the types as they are. -/
theorem ask (h : Resumes sources fresh registry) (hg : g.HoldsOnly (ParserType.FromSource sources))
    (fuel : Nat) (text : Text) (question : Question) (rounds : Nat) :
    Resumes sources fresh
      (registry.supplying (fun types => question.ask fuel types text g) rounds).2 :=
  supplying_keeps (fun _ h _ _ hsource => h.compileCell hsource) h.holds hg h fuel text question
    rounds

theorem registerIfFree (h : Resumes sources fresh registry) {type : ParserType}
    (htype : type.HoldsOnly (ParserType.FromSource sources)) :
    Resumes sources (fresh.registerIfFree type) (registry.registerIfFree type) := by
  have hcontains : registry.contains type.name = fresh.contains type.name := by
    simp only [contains, id?, h.index]
  cases htaken : fresh.contains type.name with
  | true =>
    simp only [TypeRegistry.registerIfFree, register_taken htaken,
      register_taken (hcontains.trans htaken)]
    exact h
  | false =>
    simp only [TypeRegistry.registerIfFree, register_free htaken,
      register_free (hcontains.trans htaken)]
    refine ⟨congrArg (· ++ [type]) h.types, ?_, h.classes, h.compiled, ⟨fun other hother => ?_,
      h.holds.compiled⟩, h.keeps.extended type⟩
    · simp only [extended, h.types, h.index]
    · rcases List.mem_append.mp hother with hother | hother
      · exact h.holds.types other hother
      · obtain rfl := List.mem_singleton.mp hother
        exact htype

theorem offer (h : Resumes sources fresh registry) {types : List ParserType}
    (htypes : ∀ type ∈ types, type.HoldsOnly (ParserType.FromSource sources)) :
    Resumes sources (fresh.offer types) (registry.offer types) := by
  induction types generalizing fresh registry with
  | nil => exact h
  | cons type types ih =>
    obtain ⟨htype, htypes⟩ := List.forall_mem_cons.mp htypes
    exact ih (h.registerIfFree htype) htypes

/-- With nothing outdated, both answer every question alike. -/
theorem answers (h : Resumes sources fresh registry) (hcurrent : registry.IsCurrent)
    (hg : g.HoldsOnly (ParserType.FromSource sources)) (fuel : Nat) (text : Text)
    (question : Question) {rounds : Nat} (hrounds : sources.length < rounds) :
    (registry.supplying (fun types => question.ask fuel types text g) rounds).1 =
      (fresh.supplying (fun types => question.ask fuel types text g) rounds).1 := by
  have hfresh : fresh.IsCurrent := by
    rw [IsCurrent, h.compiled]
    exact fun _ hkept => nomatch hkept
  have hmissing (registry : TypeRegistry) : (registry.missing sources).card < rounds :=
    Nat.lt_of_le_of_lt (card_missing_le sources registry) hrounds
  rw [supplying_filled h.holds hg fuel text question (hmissing registry),
    supplying_filled h.itself.holds hg fuel text question (hmissing fresh),
    h.keeps.filledEnv_eq hcurrent, h.itself.keeps.filledEnv_eq hfresh, h.find?, h.classes,
    h.compileChecker]

end Resumes

end TypeRegistry

/-! ## Histories -/

/-- A call on a registry: a registration, or a question about a grammar and a text. -/
inductive Call where
  | register (call : Registration)
  | ask (question : Question) (g : Grammar) (text : Text)

namespace Call

/-- The registry after a call. -/
def run (fuel rounds : Nat) (registry : TypeRegistry) : Call → TypeRegistry
  | .register call => (call.run registry).2
  | .ask question g text =>
    (registry.supplying (fun types => question.ask fuel types text g) rounds).2

def registration? : Call → Option Registration
  | .register call => some call
  | .ask _ _ _ => none

/-- The pattern types of the call have the text that is the source of their cell. -/
def FromSources (sources : List String) : Call → Prop
  | .register call => ∀ type ∈ call.offers, type.HoldsOnly (ParserType.FromSource sources)
  | .ask _ g _ => g.HoldsOnly (ParserType.FromSource sources)

theorem fromSources_pattern {name text : String} {cell : Nat} (h : sources[cell]? = some text) :
    (Call.register (.pattern name text cell)).FromSources sources :=
  List.forall_mem_cons.mpr ⟨⟨h, trivial⟩, fun _ htype => nomatch htype⟩

end Call

namespace TypeRegistry

/-- The registry after some calls. -/
def through (fuel rounds : Nat) (registry : TypeRegistry) (calls : List Call) : TypeRegistry :=
  calls.foldl (Call.run fuel rounds) registry

theorem Resumes.run {fresh registry : TypeRegistry} (h : Resumes sources fresh registry)
    {call : Call}
    (hcall : call.FromSources sources) (fuel rounds : Nat) :
    Resumes sources (fresh.after call.registration?.toList) (call.run fuel rounds registry) := by
  cases call with
  | register call =>
    have hafter : fresh.after [call] = (call.run fresh).2 := rfl
    simp only [Call.registration?, Option.toList_some, hafter, Call.run,
      Registration.run_registry]
    exact h.offer hcall
  | ask question g text => exact h.ask hcall fuel text question rounds

theorem Resumes.through {fresh registry : TypeRegistry} (h : Resumes sources fresh registry)
    {calls : List Call} (hcalls : ∀ call ∈ calls, call.FromSources sources) (fuel rounds : Nat) :
    Resumes sources (fresh.after (calls.filterMap Call.registration?))
      (registry.through fuel rounds calls) := by
  induction calls generalizing fresh registry with
  | nil => exact h
  | cons call calls ih =>
    obtain ⟨hcall, hcalls⟩ := List.forall_mem_cons.mp hcalls
    have hrest := ih (h.run hcall fuel rounds) hcalls
    cases call with
    | register call => exact hrest
    | ask question g text => exact hrest

theorem withClasses_resumes (classes : CharClasses) :
    Resumes sources (withClasses classes) (withClasses classes) :=
  ⟨rfl, rfl, rfl, rfl, ⟨fun _ htype => (nomatch htype), fun _ hkept => nomatch hkept⟩,
    fun _ hkept => nomatch hkept⟩

/-- **Questions asked before leave no trace**: unless an error is kept about a type that has been
registered since, a question has the answer that it has in a registry with the same registrations
and no question before. -/
theorem answered_as_if_first (classes : CharClasses) {calls : List Call} {g : Grammar}
    (hcalls : ∀ call ∈ calls, call.FromSources sources)
    (hg : g.HoldsOnly (ParserType.FromSource sources)) (fuel : Nat) {rounds : Nat}
    (hrounds : sources.length < rounds)
    (hcurrent : ((withClasses classes).through fuel rounds calls).IsCurrent)
    (question : Question) (text : Text) :
    (((withClasses classes).through fuel rounds calls).supplying
        (fun types => question.ask fuel types text g) rounds).1 =
      (((withClasses classes).after (calls.filterMap Call.registration?)).supplying
        (fun types => question.ask fuel types text g) rounds).1 :=
  ((withClasses_resumes classes).through hcalls fuel rounds).answers hcurrent hg fuel text question
    hrounds

/-- The source of `a` names `b`, and that of `b` is a letter. -/
def chainSources : List String := ["!b!", "x"]

/-- One `a`. -/
def oneA : Grammar := ⟨[.ref "a" none]⟩

/-- A question between registrations, once all types are there that it needs. -/
def inTime : List Call :=
  [.register (.pattern "b" "x" 1), .register (.pattern "a" "!b!" 0), .ask .parse oneA #['x'],
    .register .builtins]

/-- The same question asked before the second type is there. -/
def tooEarly : List Call :=
  [.register (.pattern "a" "!b!" 0), .ask .parse oneA #['x'], .register (.pattern "b" "x" 1)]

theorem oneA_holdsOnly {typeOk : ParserType → Prop} : oneA.HoldsOnly typeOk :=
  ⟨Entry.HoldsOnly.ref "a" none, trivial⟩

theorem inTime_fromSources : ∀ call ∈ inTime, call.FromSources chainSources := by
  simp only [inTime, List.forall_mem_cons]
  exact ⟨Call.fromSources_pattern rfl, Call.fromSources_pattern rfl, oneA_holdsOnly,
    fun _ => Builtin.holdsOnly_of_mem_all, fun _ hcall => nomatch hcall⟩

theorem inTime_answered : ((withClasses .standard).through 20 3 inTime).IsCurrent ∧
    (((withClasses .standard).through 20 3 inTime).supplying
        (fun types => Question.find.ask 20 types #['y', 'x'] oneA) 3).1 =
      (((withClasses .standard).after (inTime.filterMap Call.registration?)).supplying
        (fun types => Question.find.ask 20 types #['y', 'x'] oneA) 3).1 := by
  have hcurrent : ((withClasses .standard).through 20 3 inTime).IsCurrent := by decide +kernel
  exact ⟨hcurrent, answered_as_if_first .standard inTime_fromSources oneA_holdsOnly 20 (by decide)
    hcurrent .find #['y', 'x']⟩

theorem tooEarly_fromSources : ∀ call ∈ tooEarly, call.FromSources chainSources := by
  simp only [tooEarly, List.forall_mem_cons]
  exact ⟨Call.fromSources_pattern rfl, oneA_holdsOnly, Call.fromSources_pattern rfl,
    fun _ hcall => nomatch hcall⟩

/-- A question asked too early leaves its error behind. -/
theorem not_forall_answered_as_if_first : ¬ ∀ (sources : List String) (classes : CharClasses)
    (calls : List Call) (g : Grammar) (fuel rounds : Nat) (question : Question) (text : Text),
    (∀ call ∈ calls, call.FromSources sources) →
    g.HoldsOnly (ParserType.FromSource sources) → sources.length < rounds →
      (((withClasses classes).through fuel rounds calls).supplying
          (fun types => question.ask fuel types text g) rounds).1 =
        (((withClasses classes).after (calls.filterMap Call.registration?)).supplying
          (fun types => question.ask fuel types text g) rounds).1 := by
  intro hclaim
  have hsame := hclaim chainSources .standard tooEarly oneA 20 3 .parse #['x']
    tooEarly_fromSources oneA_holdsOnly (by decide)
  have hearly : (((withClasses .standard).through 20 3 tooEarly).supplying
      (fun types => Question.parse.ask 20 types #['x'] oneA) 3).1.isOk = false := by
    decide +kernel
  have hfirst : (((withClasses .standard).after (tooEarly.filterMap Call.registration?)).supplying
      (fun types => Question.parse.ask 20 types #['x'] oneA) 3).1.isOk = true := by
    decide +kernel
  rw [hsame, hfirst] at hearly
  cases hearly

end TypeRegistry

end TextGrammar
