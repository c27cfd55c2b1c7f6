/-
What a search does not depend on. Once it has come to an end, more steps change
nothing. Neither do levels around all others that none of its types looks at:
references to captured text look past them unless they hold a node of the name
that is asked for.
-/
import TextGrammar.Proofs.SuffixSearch

namespace TextGrammar

/-! ## Types that do not look at some levels -/

/-- The type gives the same checkers and accepts the same nodes, whether these levels are around all
others or not. -/
structure TypeUse.LooksPast (types : TypeEnv) (hidden : List Trail) (use : TypeUse) : Prop where
  supply : ∀ (text : Text) (offset : Nat) (scopes : List Trail),
    types.supply ⟨text, offset, scopes ++ hidden⟩ use.param use.type =
      types.supply ⟨text, offset, scopes⟩ use.param use.type
  accepts : ∀ (text : Text) (offset : Nat) (scopes : List Trail) (ref : NodeRef),
    use.type.accepts ⟨text, offset, scopes ++ hidden⟩ ref =
      use.type.accepts ⟨text, offset, scopes⟩ ref

/-- All that is matched with the types only asks types that look past these levels. -/
structure TypeEnv.LooksPast (hidden : List Trail) (types : TypeEnv) : Prop where
  found : ∀ name type, types.find? name = some type →
    type.Every (Entry.Asks types (TypeUse.LooksPast types hidden)) fun _ => True
  compiled : ∀ cell c, types.compiled? cell = some (.ok c) →
    c.Every (Entry.Asks types (TypeUse.LooksPast types hidden)) fun _ => True

/-- All types of the grammar look past these levels. -/
def Grammar.LooksPast (types : TypeEnv) (hidden : List Trail) (g : Grammar) : Prop :=
  g.Every (Entry.Asks types (TypeUse.LooksPast types hidden)) fun _ => True

/-! ## More steps, with more around -/

variable {types : TypeEnv} {strategy : Strategy} {hidden : List Trail}

/-- A search, and one of at least as many steps with the levels around it. -/
def Pairing.amid (types : TypeEnv) (strategy : Strategy) (hidden : List Trail) : Pairing where
  types
  types' := types
  strategy
  strategy' := strategy
  early f := f = .outOfFuel
  common _ := True
  late n := n = 0
  around n outer outer' := ∃ base : List Trail, outer = base.map (Trail.shift n) ∧
    (outer' = base ∨ outer' = base ++ hidden)
  kept := Pairing.SameKept fun c =>
    c.Every (Entry.Asks types (TypeUse.LooksPast types hidden)) fun _ => True
  useOk := TypeUse.LooksPast types hidden

namespace Pairing

theorem amid_shared (h : types.LooksPast hidden) : (amid types strategy hidden).Shared where
  zero := rfl
  nothing _ := ⟨[], rfl, .inl rfl⟩
  levels := by
    rintro n outer outer' scopes ⟨base, rfl, hbase⟩
    refine ⟨scopes ++ base, List.map_append.symm, ?_⟩
    rw [List.append_assoc]
    exact hbase.imp (congrArg _) (congrArg _)
  outOfFuel := trivial
  outOfRange := trivial
  classes := rfl
  find := rfl
  found := h.found
  opens := rfl
  accepts := by
    rintro n use rfl huse text tail offset outer outer' node htext ⟨base, hout, hbase⟩
    obtain rfl : outer = base := SameAround.eq_of_zero hout
    rw [htext.eq_of_zero, Node.shift_zero, Nat.add_zero]
    rcases hbase with rfl | rfl
    · rfl
    · exact (huse.1.accepts tail offset outer _).symm

theorem amid_lawful (h : types.LooksPast hidden) : (amid types strategy hidden).Lawful := by
  refine (amid_shared h).lawful rfl rfl
    (fun use host c huse hc => TypeEnv.every_supplied h.compiled huse.2 hc) ?_
  · rintro n use text tail offset outer outer' rfl huse htext ⟨base, hout, hbase⟩
    obtain rfl : outer = base := SameAround.eq_of_zero hout
    have hsame : types.supply ⟨tail, offset, outer'⟩ use.param use.type =
        types.supply ⟨tail, offset, outer⟩ use.param use.type := by
      rcases hbase with rfl | rfl
      · rfl
      · exact huse.1.supply tail offset outer
    show Faults _ Eq (types.supply _ use.param use.type) (types.supply _ use.param use.type)
    rw [hsame, htext.eq_of_zero, Nat.add_zero]
    cases types.supply ⟨tail, offset, outer⟩ use.param use.type with
    | ok given => exact .ok rfl
    | error f => exact .error ⟨rfl, trivial⟩

theorem amid_allows {fuel fuel' : Nat} (hfuel : fuel ≤ fuel') :
    (amid types strategy hidden).Allows fuel fuel' := .inr ⟨hfuel, rfl⟩

theorem amid_apart {setting : Setting} (htypes : setting.types = types)
    (hstrategy : setting.strategy = strategy) : (amid types strategy hidden).Apart 0 setting
      { setting with outer := setting.outer ++ hidden } :=
  ⟨rfl, htypes, htypes, hstrategy, hstrategy, .refl _, setting.outer,
    SameAround.of_zero setting.outer, .inr rfl⟩

/-- The states of both searches are the same. -/
theorem eq_of_amid {m m' : Machine (Option Failure)}
    (h : (amid types strategy hidden).Beside 0 m m') : m = m' := by
  obtain ⟨checkers, rfl, holds⟩ := h
  obtain rfl : checkers = m'.checkers := holds.checkers.1
  exact Machine.shift_zero m'

end Pairing

/-- All types that the search may still ask look past these levels. -/
def Machine.LooksPast (setting : Setting) (hidden : List Trail) (m : Machine (Option Failure)) :
    Prop :=
  (Pairing.amid setting.types setting.strategy hidden).Beside 0 m m

section

variable {setting : Setting} {mode : Mode} {fuel fuel' : Nat}
  (htypes : setting.types.LooksPast hidden) (hfuel : fuel ≤ fuel')
include htypes hfuel

/-- A search that has come to an end comes to the same end with more steps, and with levels around
it that its types look past. -/
theorem searchWithin_amid {g : Grammar} (hg : g.LooksPast setting.types hidden) {offset : Nat}
    {seen : Seen (Option Failure) (Option Match)}
    (h : searchWithin fuel setting mode g offset = .ok seen) :
    searchWithin fuel' { setting with outer := setting.outer ++ hidden } mode g offset =
      .ok seen := by
  have hfollows := Pairing.searchWithin_follows (Pairing.amid_lawful htypes)
    (Pairing.amid_allows hfuel) 0 setting _ mode g offset (Pairing.amid_apart rfl rfl) hg
  rw [Nat.add_zero, h] at hfollows
  rcases hfollows.eq_of_zero.or with ⟨f, _, hfault⟩ | ⟨heq, _⟩
  · cases hfault
  · exact heq.symm

omit hfuel in
theorem Machine.looksPast_start {g : Grammar} (hg : g.LooksPast setting.types hidden)
    (offset : Nat) : (Machine.start g offset).LooksPast setting hidden :=
  (Pairing.amid_lawful htypes).beside_start hg offset

/-- A step that a search takes it also takes with more steps, and with such levels around it. -/
theorem Machine.step_amid {m : Machine (Option Failure)}
    (hm : m.LooksPast setting hidden)
    {s : Step (Option Failure)} (h : m.step (runWithin fuel) setting mode = .ok s) :
    m.step (runWithin fuel') { setting with outer := setting.outer ++ hidden } mode = .ok s ∧
      ∀ next, s = .next next → next.LooksPast setting hidden := by
  have hfollows := Pairing.step_follows
    (Pairing.searchWithin_follows (Pairing.amid_lawful htypes) (Pairing.amid_allows hfuel))
    (Pairing.amid_lawful htypes) (Pairing.amid_apart rfl rfl) hm mode
  have hmore : (searchWithin fuel' : Runner (Option Failure)) = runWithin fuel' := rfl
  have hrun : (searchWithin fuel : Runner (Option Failure)) = runWithin fuel := rfl
  rw [hrun, hmore, h] at hfollows
  generalize m.step (runWithin fuel') _ mode = y at hfollows ⊢
  cases hfollows with
  | ok hsteps =>
    next s' =>
    rcases s with next | ⟨result, failures⟩ <;> rcases s' with next' | ⟨result', failures'⟩
    case next.next =>
      obtain rfl := Pairing.eq_of_amid hsteps
      exact ⟨rfl, fun other hother => by cases hother; exact hsteps⟩
    case done.done =>
      obtain ⟨hresult, hfailures⟩ := hsteps
      have hmatch : Match.shift 0 = id := funext Match.shift_zero
      have hfailure : Failure.shift 0 = id := rfl
      rw [hmatch, Option.map_id] at hresult
      rw [hfailure, Option.map_id] at hfailures
      exact ⟨by rw [hresult, hfailures]; rfl, fun _ hother => by cases hother⟩
    all_goals cases hsteps

end

/-! ## Built-in types -/

/-- Types whose checkers depend on what has been captured. -/
def Builtin.references : List String := ["backref", "backrefCI"]

/-- If the reference is to captured text, what it asks for is not among these nodes. -/
def TypeRef.Misses (left : List Node) (r : TypeRef) : Prop :=
  r.name ∈ Builtin.references → ∀ name, r.param = some name → ∀ node ∈ left, node.name ≠ some name

/-- A capture that is not at the levels around all others is found, or not, without them. -/
theorem Host.lastNamed?_append (text : Text) (offset : Nat) (scopes : List Trail) {name : String}
    (h : ∀ node ∈ Trail.leftOf hidden, node.name ≠ some name) :
    lastNamed? ⟨text, offset, scopes ++ hidden⟩ name = lastNamed? ⟨text, offset, scopes⟩ name := by
  have hnone : lastNamed? ⟨text, offset, hidden⟩ name = none := by
    refine Option.map_eq_none_iff.mp ((lastNamed?_eq_find? _ _).trans ?_)
    refine Option.map_eq_none_iff.mpr (List.find?_eq_none.mpr fun node hnode => ?_)
    simpa using h node hnode
  simp only [lastNamed?] at hnone ⊢
  rw [List.findSome?_append, hnone, Option.or_none]

namespace Builtin

variable {type : ParserType} {param : Option String}

/-- A built-in type looks past levels without the capture that it is asked for. -/
theorem looksPast (h : type ∈ all)
    (hmisses : TypeRef.Misses (Trail.leftOf hidden) ⟨type.name, param⟩) :
    TypeUse.LooksPast types hidden ⟨type, param⟩ where
  supply text offset scopes := by
    have hbackref {name : String} (hname : name ∈ references) (given : List Char → Checker)
        (hmisses : TypeRef.Misses (Trail.leftOf hidden) ⟨name, param⟩) :
        types.supply ⟨text, offset, scopes ++ hidden⟩ param (backrefWith name given) =
          types.supply ⟨text, offset, scopes⟩ param (backrefWith name given) := by
      cases param with
      | none => rfl
      | some capture =>
        have hsame := Host.lastNamed?_append text offset scopes (hmisses hname capture rfl)
        simp only [backrefWith, TypeEnv.supply, hsame]
    simp only [all, List.mem_cons, List.not_mem_nil, or_false] at h
    rcases h with rfl | rfl | rfl | rfl | rfl | rfl | rfl | rfl
    case inr.inr.inr.inr.inl => exact hbackref (by decide) _ hmisses
    case inr.inr.inr.inr.inr.inl => exact hbackref (by decide) _ hmisses
    all_goals rfl
  accepts text offset scopes ref := by
    simp only [all, List.mem_cons, List.not_mem_nil, or_false] at h
    rcases h with rfl | rfl | rfl | rfl | rfl | rfl | rfl | rfl
    all_goals rfl

end Builtin

theorem TypeRegistry.standard_looksPast : TypeRegistry.standard.env.LooksPast hidden where
  found name type h := by
    have hevery := Builtin.every_of_mem_all (standard_find h).1
    refine hevery.combine (fun e he _ => ?_) (fun _ hnone _ => hnone.elim) hevery
    obtain ⟨c, hc⟩ := he
    refine ⟨fun type ht => ?_, fun r type ht _ => ?_⟩
    · cases hc.symm.trans ht
    · cases hc.symm.trans ht
  compiled _ _ h := nomatch h

/-- A grammar whose references miss what is at these levels looks past them. -/
theorem Grammar.Every.looksPast {g : Grammar} {columnsOk : List Region → Prop}
    (h : g.Every (Entry.Refers fun r => r.IsBuiltin ∧ r.Misses (Trail.leftOf hidden)) columnsOk) :
    g.LooksPast TypeRegistry.standard.env hidden := by
  refine h.combine (fun e he _ => ⟨fun type ht => ?_, fun r type ht hfind => ?_⟩)
    (fun _ _ _ => trivial) h
  · simp only [Entry.Refers, ht] at he
  · simp only [Entry.Refers, ht] at he
    obtain ⟨hmem, hname⟩ := TypeRegistry.standard_find hfind
    exact Builtin.looksPast hmem (hname ▸ he.2)

end TextGrammar
