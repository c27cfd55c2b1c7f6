/-
What a negation sees. Its item is matched by a search of its own with nothing
around it, so at the place where the entries before it end, it takes a character
exactly when its item does not match there all by itself. For an item that asks
for no capture from before it, that is exactly when the item would fail in the
place of its negation. An item that refers back to what was captured before it
can fail both ways.
-/
import TextGrammar.Proofs.KeptCheckers
import TextGrammar.Proofs.LastEntry
import TextGrammar.Proofs.Rejection
import TextGrammar.Proofs.Shortcut

open Filter (atTop)

namespace TextGrammar

/-! ## Entries before the last -/

/-- A search that stands at entries that are followed, with others after them, goes on with those
after each outcome. -/
theorem Entry.ends_before {L : Type} [FailureLog L] [LawfulFailureLog L] {es rest : List Entry}
    (h : ∀ e ∈ es, e.Followed L ∧ e.Every (fun _ => True) Region.AreColumns) {setting : Setting}
    {mode : Mode} {result : Seen L (Option Match)} {frame : Frame} {nodes : Trail} {offset : Nat}
    {base : Array Snapshot} {failures : L} (fits : setting.text.size < maxCount)
    (hoff : offset ≤ setting.text.size)
    (ht : (Entry.allTrace setting.strategy.opens setting.types.classes es setting.text
      offset).Carries (Fails setting mode result) (frame.GoesOn setting mode result rest nodes) base
        failures) :
    (frame.state (es ++ rest) 0 nodes base offset false failures).Ends setting mode result := by
  induction es generalizing nodes offset base failures with
  | nil =>
    simp only [Entry.allTrace] at ht
    exact Trace.Carries.of_one ht
  | cons e es ih =>
    obtain ⟨⟨followed, built⟩, h⟩ := List.forall_mem_cons.mp h
    simp only [Entry.allTrace] at ht
    refine followed setting mode result frame (es ++ rest) nodes offset base failures fits hoff ?_
    refine Trace.Carries.of_bind (fun m hm snapshots failures hrest => ?_) ht
    rw [Entry.values_trace] at hm
    have within := Entry.outcomes_within built fits hoff m hm
    refine ih h within.2 ?_
    rw [Frame.goesOn_after]
    exact Trace.Carries.map_iff.mp hrest

section

variable {types : TypeEnv} {text : Text}

/-- A grammar that leaves no choice and matches has one outcome, and its search leaves nothing behind
to come back to. -/
theorem Grammar.trace_eq_once {g : Grammar} (untyped : g.Untyped) (built : g.Built)
    (sure : g.isDeterministic = some true) (fits : text.size < maxCount) {tree : MatchTree}
    (parses : ∀ᶠ fuel in atTop, g.parse fuel types text = .ok tree) :
    ∃ l m, g.trace Strategy.standard.opens types.classes text 0 =
        (.once l m : Trace (Option Failure) Match) ∧ tree = .ofNodes text 0 m.stop m.nodes := by
  have builtBoth := built.both untyped
  obtain ⟨u, hes⟩ := Grammar.matchFrom_eventually untyped built types fits (Nat.zero_le _)
    .beginning
  obtain ⟨fuel, hes, hparse⟩ := (hes.and parses).exists
  rw [← Grammar.values_trace (L := Option Failure)] at hes
  have hsame := hes.symm.trans hparse
  have hevery : g.Every (fun e => e.HasChecker ∧ True) Region.AreColumns :=
    Grammar.Every.combine (fun _ h _ => ⟨h, trivial⟩) (fun _ h _ => h) builtBoth builtBoth
  have hsure : (g.trace Strategy.standard.opens types.classes text 0 :
      Trace (Option Failure) Match).Sure 0 :=
    Grammar.trace_sure hevery sure fits (Nat.zero_le _)
  obtain ⟨l, m, htrace⟩ | ⟨f, -, htrace⟩ := hsure
  · rw [htrace] at hsame
    refine ⟨l, m, htrace, ?_⟩
    cases hsame
    rfl
  · rw [htrace] at hsame
    cases hsame

/-- After entries without types that leave no choice, a search ends as its last entry decides. -/
theorem Grammar.search_last {es : List Entry} {last : Entry} (untyped : (⟨es⟩ : Grammar).Untyped)
    (built : (⟨es⟩ : Grammar).Built) (sure : (⟨es⟩ : Grammar).isDeterministic = some true)
    (fits : text.size < maxCount) {tree : MatchTree}
    (parses : ∃ enough, ∀ fuel ≥ enough, (⟨es⟩ : Grammar).parse fuel types text = .ok tree)
    {setting : Setting} (htypes : setting.types = types) (htext : setting.text = text)
    (hopens : setting.strategy.opens = Strategy.standard.opens) {matched : Bool}
    (hlast : ∀ failures,
      last.Verdict setting (Trail.empty.pushAll tree.nodes) tree.root.stop failures matched) :
    ∀ᶠ fuel in atTop, ∃ seen, searchWithin fuel setting .beginning ⟨es ++ [last]⟩ 0 = .ok seen ∧
      seen.value.isSome = matched := by
  obtain ⟨l, m, htrace, rfl⟩ := Grammar.trace_eq_once untyped built sure fits
    (Filter.eventually_atTop.mpr parses)
  subst htypes htext
  obtain ⟨result, hvalue, hends⟩ := hlast (FailureLog.merge none l)
  have hsearch : ((⟨0, none, []⟩ : Frame).state (es ++ [last]) 0 .empty #[] 0 false
      (none : Option Failure)).Ends setting .beginning result := by
    refine Entry.ends_before (Entry.eachFollowed (built.both untyped)) fits (Nat.zero_le _) ?_
    simp only [Grammar.trace] at htrace
    rw [hopens, htrace]
    intro above hback
    refine hends _ fun hnone => ?_
    refine hback #[] _ rfl (Trace.Carries.nothing_iff.mpr (Fails.empty ?_))
    rw [← hnone]
  filter_upwards [hsearch] with fuel hsearch
  exact ⟨result, hsearch, hvalue⟩

/-- A grammar matches where its search ends with a match. -/
theorem Grammar.matches_iff {g : Grammar} {fuel start : Nat}
    {seen : Seen (Option Failure) (Option Match)}
    (h : searchWithin fuel (types.setting text) .beginning g start = .ok seen) :
    (∃ t, g.matchFrom fuel types text .beginning start = .ok t) ↔ seen.value.isSome = true := by
  rw [Grammar.matchFrom_eq_verdict, h]
  obtain ⟨_ | m, failures⟩ := seen
  · simp [Grammar.verdict]
  · simp [Grammar.verdict]

end

/-! ## The item by itself -/

/-- One character where the grammar does not match. -/
def Entry.unless (x : Grammar) : Entry := .ofChecker (.not (.grammar x))

section

variable {types : TypeEnv} {text : Text} {x : Grammar} {offset : Nat}

/-- How the match of an item by itself decides what its negation takes. -/
theorem Grammar.lengthAt_not {fuel : Nat} {setting : Setting}
    (halone : setting.alone = types.setting text) (hlt : offset < text.size) {matched : Bool}
    (hx : if matched then ∃ tree, x.matchFrom fuel types text .beginning offset = .ok tree
      else ∃ error, x.matchFrom fuel types text .beginning offset = .error (.refused error)) :
    (Checker.not (.grammar x)).lengthAt (searchWithin fuel) setting offset =
      .ok (if matched then none else some 1) := by
  have htext : setting.text = text := congrArg Setting.text halone
  have hinside : ¬ setting.text.size ≤ offset := by
    rw [htext]
    omega
  simp only [Checker.lengthAt, if_neg hinside, Grammar.lengthAt, halone]
  simp only [Grammar.matchFrom] at hx
  generalize searchWithin fuel (types.setting text) .beginning x offset = answer at hx ⊢
  rcases answer with (error | fault) | ⟨_ | m, failures⟩
  all_goals cases matched
  all_goals first
    | rfl
    | exact absurd hx (by rintro ⟨_, h⟩; cases h)

/-- The verdict on an item by itself, once there are enough steps. -/
def Grammar.Settled (x : Grammar) (types : TypeEnv) (text : Text) (offset : Nat)
    (matched : Bool) : Prop :=
  ∀ᶠ fuel in atTop,
    if matched then ∃ tree, x.matchFrom fuel types text .beginning offset = .ok tree
    else ∃ error, x.matchFrom fuel types text .beginning offset = .error (.refused error)

/-- A negation as the last entry takes a character where its item does not match by itself. -/
theorem Entry.verdict_unless {matched : Bool} (hx : x.Settled types text offset matched)
    (hlt : offset < text.size) (nodes : Trail) (failures : Option Failure) :
    (Entry.unless x).Verdict (types.setting text) nodes offset failures !matched := by
  let seen : Seen (Option Failure) (Option Match) :=
    .of (if matched then none else some ⟨offset + 1, [.leaf offset (offset + 1)]⟩)
  have hsome : seen.value.isSome = !matched := by
    cases matched <;> rfl
  rw [← hsome]
  refine Entry.verdict_at_once rfl fun m hoffset _ => ?_
  filter_upwards [hx] with fuel hx
  subst hoffset
  have hlength : (Checker.not (.grammar x)).lengthAt (runWithin fuel) (m.inner (types.setting text))
      m.offset = .ok (if matched then none else some 1) := Grammar.lengthAt_not rfl hlt hx
  have hfound : (Checker.not (.grammar x)).foundAt (runWithin fuel) (m.inner (types.setting text))
      m.offset = .ok (.of (if matched then none else some ⟨m.offset + 1, [], false⟩) :
        Seen (Option Failure) (Option Found)) := by
    simp only [Checker.foundAt, Checker.choiceAt, hlength]
    cases matched <;> rfl
  have hmatch : m.attempt (runWithin fuel) (types.setting text) (Entry.unless x) =
      m.matchChecker (runWithin fuel) (types.setting text) (Entry.unless x) (.not (.grammar x))
        none := rfl
  have hmatched : m.matchChecker (runWithin fuel) (types.setting text) (Entry.unless x)
      (.not (.grammar x)) none =
        let done := (Entry.unless x).attempted (fun found => .of (some found)) m.offset
          (.of (if matched then none else some ⟨m.offset + 1, [], false⟩))
        .ok (m.record done.failures, done.attempt) :=
    Machine.matchChecker_untyped hfound fun _ _ => rfl
  rw [hmatch, hmatched]
  cases matched <;> rfl

/-- **A negation asks its item by itself.** After entries without types that leave no choice and end
before the end of the text, a negation succeeds exactly when its item, with nothing around it, does
not match there. -/
theorem Grammar.negation_asks_alone {es : List Entry} (untyped : (⟨es⟩ : Grammar).Untyped)
    (built : (⟨es⟩ : Grammar).Built) (sure : (⟨es⟩ : Grammar).isDeterministic = some true)
    (fits : text.size < maxCount) {tree : MatchTree}
    (parses : ∃ enough, ∀ fuel ≥ enough, (⟨es⟩ : Grammar).parse fuel types text = .ok tree)
    (short : tree.root.stop < text.size) {matched : Bool}
    (alone : x.Settled types text tree.root.stop matched) :
    ∃ enough, ∀ fuel ≥ enough,
      ((∃ t, (⟨es ++ [Entry.unless x]⟩ : Grammar).parse fuel types text = .ok t) ↔
        matched = false) := by
  refine Filter.eventually_atTop.mp ?_
  filter_upwards [Grammar.search_last untyped built sure fits parses rfl rfl rfl
    (Entry.verdict_unless alone short _)] with fuel hsearch
  obtain ⟨seen, hsearch, hvalue⟩ := hsearch
  rw [Grammar.parse, Grammar.matches_iff hsearch, hvalue, Bool.not_eq_true']

end

/-! ## Items with built-in types -/

/-- What the built-in types give where nothing is matched. -/
def Builtin.givenAnywhere : Giving := fun types name param =>
  match all.find? (·.name == name) with
  | some type => types.supply ⟨#[], 0, []⟩ param type
  | none => .error .outOfFuel

/-- The built-in types that do not look at what is matched give the same anywhere. -/
theorem Builtin.givesAs {type : ParserType} (h : type ∈ all) : type.GivesAs givenAnywhere := by
  intro hsteady types host param
  simp only [all, List.mem_cons, List.not_mem_nil, or_false] at h
  rcases h with rfl | rfl | rfl | rfl | rfl | rfl | rfl | rfl
  case inr.inr.inr.inr.inl => cases hsteady
  case inr.inr.inr.inr.inr.inl => cases hsteady
  all_goals rfl

theorem TypeRegistry.standard_givesAs :
    TypeRegistry.standard.env.HoldsOnly (ParserType.GivesAs Builtin.givenAnywhere) :=
  standard_holdsOnly.mono fun _ h => Builtin.givesAs h

section

variable {text : Text} {x : Grammar}

/-- **A negation takes a character exactly where its item would fail**, if none of its types asks for
a capture of the entries before it: these are without types, leave no choice, and end before the end
of the text. The item then matches there exactly when it matches all by itself. -/
theorem Grammar.negation_complements {es : List Entry} (untyped : (⟨es⟩ : Grammar).Untyped)
    (built : (⟨es⟩ : Grammar).Built) (sure : (⟨es⟩ : Grammar).isDeterministic = some true)
    (fits : text.size < maxCount) {tree : MatchTree}
    (parses : ∃ enough, ∀ fuel ≥ enough,
      (⟨es⟩ : Grammar).parse fuel TypeRegistry.standard.env text = .ok tree)
    (short : tree.root.stop < text.size)
    (hx : x.Every (Entry.Refers fun r => r.IsBuiltin ∧ r.Misses (Node.allBackwards tree.nodes))
      Region.AreColumns) :
    ∃ enough, ∀ fuel ≥ enough,
      ((∃ t, (⟨es ++ [Entry.unless x]⟩ : Grammar).parse fuel TypeRegistry.standard.env text =
          .ok t) ↔
        ¬ ∃ t, (⟨es ++ [.ofChecker (.grammar x)]⟩ : Grammar).parse fuel
          TypeRegistry.standard.env text = .ok t) ∧
      ((∃ t, (⟨es ++ [.ofChecker (.grammar x)]⟩ : Grammar).parse fuel
          TypeRegistry.standard.env text = .ok t) ↔
        ∃ t, x.matchFrom fuel TypeRegistry.standard.env text .beginning tree.root.stop = .ok t) := by
  have hbuiltin : x.Every (Entry.Refers TypeRef.IsBuiltin) Region.AreColumns :=
    hx.combine (fun _ h _ => h.mono fun _ hr => hr.1) (fun _ h _ => h) hx
  obtain ⟨alone, halone⟩ := hbuiltin.searched fits (Nat.le_of_lt short)
  have hsettled : x.Settled TypeRegistry.standard.env text tree.root.stop alone.value.isSome := by
    filter_upwards [halone] with fuel halone
    rw [Grammar.matchFrom_eq_verdict, halone]
    obtain ⟨_ | m, failures⟩ := alone
    · exact ⟨_, rfl⟩
    · exact ⟨_, rfl⟩
  -- A search that asks types every time comes to the same, and keeps nothing on its way.
  have hasking {g : Grammar} (hg : g.HoldsOnly (· ∈ Builtin.all)) (fuel start : Nat) :=
    searchWithin_asking TypeRegistry.standard_givesAs (hg.mono fun _ => Builtin.givesAs) fuel text
      .beginning start
  have hpast : x.LooksPast TypeRegistry.standard.env [Trail.empty.pushAll tree.nodes] := by
    have hleft : Trail.leftOf [Trail.empty.pushAll tree.nodes] = Node.allBackwards tree.nodes := by
      simp [Trail.leftOf]
    exact Grammar.Every.looksPast (hleft ▸ hx)
  have hverdict (failures : Option Failure) : (Entry.ofChecker (.grammar x)).Verdict
      (TypeRegistry.standard.env.asking text) (Trail.empty.pushAll tree.nodes) tree.root.stop
        failures alone.value.isSome := by
    obtain ⟨fuel, hfuel⟩ := halone.exists
    exact Entry.verdict_item rfl rfl TypeRegistry.standard_looksPast hpast
      ((hasking hbuiltin.holdsNone fuel _).symm.trans hfuel)
  have hall : (⟨es ++ [.ofChecker (.grammar x)]⟩ : Grammar).HoldsOnly (· ∈ Builtin.all) := by
    have before : (⟨es⟩ : Grammar).HoldsOnly (· ∈ Builtin.all) := by
      refine untyped.combine (fun e he _ type ht => ?_) (fun _ _ _ => trivial) untyped
      obtain ⟨c, hc⟩ := he
      cases hc.symm.trans ht
    exact Entry.EveryOf.append before ⟨Entry.HoldsOnly.ofChecker hbuiltin.holdsNone, trivial⟩
  refine Filter.eventually_atTop.mp ?_
  filter_upwards [halone,
    Grammar.search_last untyped built sure fits parses rfl rfl rfl
      (Entry.verdict_unless hsettled short _),
    Grammar.search_last untyped built sure fits parses rfl rfl rfl hverdict]
    with fuel halone hunless hitem
  obtain ⟨met, hunless, hmet⟩ := hunless
  obtain ⟨seen, hitem, hseen⟩ := hitem
  rw [← hasking hall] at hitem
  rw [Grammar.parse, Grammar.matches_iff hunless, Grammar.parse, Grammar.matches_iff hitem,
    Grammar.matches_iff halone, hmet, hseen]
  simp

end

/-- One `a`, under a name. -/
def Grammar.capturedA : Grammar := ⟨[(Entry.ofChecker (.single 'a')).named "n"]⟩

/-- One `a`, at the beginning of a text. -/
def Grammar.capturedTree (text : Text) : MatchTree :=
  .ofNodes text 0 1 [{ name := some "n", start := 0, stop := 1 }]

theorem Grammar.capturedA_untyped : Grammar.capturedA.Untyped :=
  ⟨⟨⟨_, rfl⟩, trivial, trivial⟩, trivial⟩

theorem Grammar.capturedA_built : Grammar.capturedA.Built := ⟨⟨trivial, trivial, trivial⟩, trivial⟩

/-- A doubled `b`: one under another name, and the same character once more. -/
def Grammar.doubledB : Grammar :=
  ⟨[(Entry.ofChecker (.single 'b')).named "m", .ref "backref" (some "m")]⟩

/-- After the `a` of `abb` the doubled `b` matches, so its negation does not. -/
theorem Grammar.unless_doubledB_complements :
    Grammar.capturedA.Untyped ∧ Grammar.capturedA.Built ∧
      Grammar.doubledB.Every (Entry.Refers fun r => r.IsBuiltin ∧
        r.Misses (Node.allBackwards (Grammar.capturedTree #['a', 'b', 'b']).nodes))
          Region.AreColumns ∧
      ∃ enough, ∀ fuel ≥ enough,
        (∃ t, (⟨Grammar.capturedA.entries ++ [.ofChecker (.grammar .doubledB)]⟩ : Grammar).parse fuel
          TypeRegistry.standard.env #['a', 'b', 'b'] = .ok t) ∧
        ¬ ∃ t, (⟨Grammar.capturedA.entries ++ [Entry.unless .doubledB]⟩ : Grammar).parse fuel
          TypeRegistry.standard.env #['a', 'b', 'b'] = .ok t := by
  have fits : #['a', 'b', 'b'].size < maxCount := by decide
  have short : (Grammar.capturedTree #['a', 'b', 'b']).root.stop < #['a', 'b', 'b'].size := by
    decide
  have parses : ∃ enough, ∀ fuel ≥ enough, Grammar.capturedA.parse fuel TypeRegistry.standard.env
      #['a', 'b', 'b'] = .ok (Grammar.capturedTree #['a', 'b', 'b']) := by
    refine ⟨10, fun fuel hfuel => ?_⟩
    obtain ⟨n, rfl⟩ : ∃ n, fuel = n + 10 := ⟨fuel - 10, by omega⟩
    rfl
  have misses : TypeRef.Misses
      (Node.allBackwards (Grammar.capturedTree #['a', 'b', 'b']).nodes) ⟨"backref", some "m"⟩ := by
    intro _ name hname node hnode
    obtain rfl := Option.some.inj hname
    obtain rfl := List.mem_singleton.mp hnode
    decide
  have hx : Grammar.doubledB.Every (Entry.Refers fun r => r.IsBuiltin ∧
      r.Misses (Node.allBackwards (Grammar.capturedTree #['a', 'b', 'b']).nodes))
        Region.AreColumns :=
    ⟨⟨trivial, trivial, trivial⟩, ⟨⟨⟨rfl, fun _ => rfl⟩, misses⟩, trivial, trivial⟩, trivial⟩
  have untyped : (⟨Grammar.capturedA.entries⟩ : Grammar).Untyped := Grammar.capturedA_untyped
  refine ⟨untyped, Grammar.capturedA_built, hx, ?_⟩
  obtain ⟨enough, h⟩ := Grammar.negation_complements untyped Grammar.capturedA_built rfl fits parses
    short hx
  refine ⟨enough + 10, fun fuel hfuel => ?_⟩
  obtain ⟨n, rfl⟩ : ∃ n, fuel = n + 10 := ⟨fuel - 10, by omega⟩
  have halone : Grammar.doubledB.matchFrom (n + 10) TypeRegistry.standard.env #['a', 'b', 'b']
      .beginning 1 = .ok (.ofNodes #['a', 'b', 'b'] 1 3
        [{ name := some "m", start := 1, stop := 2 },
          { typeName := some "backref", param := some "m", start := 2, stop := 3 }]) := rfl
  have hmatches := (h (n + 10) (by omega)).2.mpr ⟨_, halone⟩
  exact ⟨hmatches, fun hunless => (h (n + 10) (by omega)).1.mp hunless hmatches⟩

/-! ## A back-reference under a negation -/

/-- The characters under that name once more. -/
def Grammar.sameAsN : Grammar := ⟨[.ref "backref" (some "n")]⟩

theorem Grammar.capturedA_parse : ∃ enough, ∀ fuel ≥ enough,
    Grammar.capturedA.parse fuel TypeRegistry.standard.env #['a', 'a'] =
      .ok (capturedTree #['a', 'a']) := by
  refine ⟨10, fun fuel hfuel => ?_⟩
  obtain ⟨n, rfl⟩ : ∃ n, fuel = n + 10 := ⟨fuel - 10, by omega⟩
  rfl

/-- Of its types the entry has only those that come with the registry, with their parameters. -/
def Entry.UsesBuiltins (e : Entry) : Prop :=
  e.HasChecker ∨ ∃ r : TypeRef, e.target = .ref r ∧ r.param.isSome ∧
    (TypeRegistry.standard.find? r.name).isSome

theorem Grammar.sameAsN_usesBuiltins :
    Grammar.sameAsN.Every Entry.UsesBuiltins (fun _ => True) :=
  ⟨⟨.inr ⟨_, rfl, rfl, rfl⟩, trivial, trivial⟩, trivial⟩

/-- A reference and its negation both match after what is referred to. -/
theorem Grammar.not_unless_complements : ¬ ∀ (es : List Entry) (x : Grammar) (text : Text)
    (tree : MatchTree), (⟨es⟩ : Grammar).Untyped → (⟨es⟩ : Grammar).Built →
    (⟨es⟩ : Grammar).isDeterministic = some true → text.size < maxCount →
    x.Every Entry.UsesBuiltins (fun _ => True) → (∃ enough, ∀ fuel ≥ enough,
      (⟨es⟩ : Grammar).parse fuel TypeRegistry.standard.env text = .ok tree) →
    tree.root.stop < text.size → ∃ enough, ∀ fuel ≥ enough,
      ((∃ t, (⟨es ++ [Entry.unless x]⟩ : Grammar).parse fuel TypeRegistry.standard.env text =
          .ok t) ↔
        ¬ ∃ t, (⟨es ++ [.ofChecker (.grammar x)]⟩ : Grammar).parse fuel
          TypeRegistry.standard.env text = .ok t) := by
  intro hclaim
  have fits : #['a', 'a'].size < maxCount := by decide
  obtain ⟨enough, h⟩ := hclaim Grammar.capturedA.entries .sameAsN #['a', 'a']
    (Grammar.capturedTree _) Grammar.capturedA_untyped Grammar.capturedA_built rfl fits
    Grammar.sameAsN_usesBuiltins Grammar.capturedA_parse (by decide)
  exact (h (enough + 10) (Nat.le_add_right _ _)).mp ⟨_, rfl⟩ ⟨_, rfl⟩

end TextGrammar
