/-
The first match in a text is the match of a suffix. What a search from an offset
comes to is what a search of the text without the characters before it comes to,
with every offset moved: built-in types give the same checkers there and accept
the same nodes, since they only look at text that has been matched. As every
search ends, so does the one for the first match.
-/
import TextGrammar.Proofs.BackReferences
import TextGrammar.Proofs.Halting
import TextGrammar.Proofs.Questions

open Filter (atTop)

namespace TextGrammar

/-! ## References to built-in types -/

/-- Types that give no checker without a parameter. -/
def Builtin.parameterized : List String := ["textCI", "backref", "backrefCI"]

/-- A reference to a built-in type, with the parameter if the type cannot do without. -/
def TypeRef.IsBuiltin (r : TypeRef) : Prop :=
  (TypeRegistry.standard.find? r.name).isSome ∧ (r.name ∈ Builtin.parameterized → r.param.isSome)

namespace Builtin

theorem caseInsensitive_sure (chars : List Char) :
    (caseInsensitive chars).isDeterministic = some true := by
  have heach (cs : List Char) : Entry.allDeterministic
      (cs.map fun c => .ofChecker (.char (anyCase c))) = some true := by
    induction cs with
    | nil => rfl
    | cons c cs ih => exact ih
  match chars with
  | [] | [_] => rfl
  | c :: d :: cs => exact heach (c :: d :: cs)

theorem literal_sure (chars : List Char) :
    (Checker.literal chars).isDeterministic = some true := by
  cases chars <;> rfl

/-- Asked with its parameter a built-in type gives a checker with at most one outcome, which needs
no types and no columns. -/
theorem supply_sure {type : ParserType} (h : type ∈ all) {param : Option String}
    (hparam : type.name ∈ parameterized → param.isSome) (types : TypeEnv) (host : Host) :
    ∃ c, types.supply host param type = .ok (.ok c) ∧ c.isDeterministic = some true ∧
      c.Every Entry.HasChecker fun _ => False := by
  have hbackref {name : String} {given : List Char → Checker}
      (hgiven : ∀ chars, (given chars).isDeterministic = some true ∧
        (given chars).Every Entry.HasChecker fun _ => False) (hsome : param.isSome) :
      ∃ c, types.supply host param (backrefWith name given) = .ok (.ok c) ∧
        c.isDeterministic = some true ∧ c.Every Entry.HasChecker fun _ => False := by
    obtain ⟨capture, rfl⟩ := Option.isSome_iff_exists.mp hsome
    simp only [backrefWith, TypeEnv.supply]
    cases host.lastNamed? capture with
    | none => exact ⟨_, rfl, rfl, trivial, trivial⟩
    | some found => exact ⟨_, rfl, hgiven _⟩
  simp only [all, List.mem_cons, List.not_mem_nil, or_false] at h
  rcases h with rfl | rfl | rfl | rfl | rfl | rfl | rfl | rfl
  · exact ⟨_, rfl, rfl, identifierChecker_every⟩
  · exact ⟨_, rfl, rfl, stringLiteralChecker_every⟩
  · obtain ⟨text, rfl⟩ := Option.isSome_iff_exists.mp (hparam (by decide))
    exact ⟨_, rfl, caseInsensitive_sure _, caseInsensitive_every _⟩
  · exact ⟨_, rfl, rfl, identifierChecker_every⟩
  · exact hbackref (fun chars => ⟨literal_sure chars, literal_every chars⟩) (hparam (by decide))
  · exact hbackref (fun chars => ⟨caseInsensitive_sure chars, caseInsensitive_every chars⟩)
      (hparam (by decide))
  · exact ⟨_, rfl, rfl, trivial⟩
  · exact ⟨_, rfl, rfl, trivial⟩

end Builtin

section

variable {L : Type} [FailureLog L]

/-- A checker without types and columns is matched at once if it has one outcome at most. -/
theorem Checker.AtOnce.of_sure {env : TypeEnv} {c : Checker}
    (every : c.Every Entry.HasChecker fun _ => False) (sure : c.isDeterministic = some true) :
    c.AtOnce L env True where
  halts := Checker.Every.halts (fun _ h => h.elim)
    (every.combine (fun _ h _ => h.refers fun _ => False) (fun _ h _ => h) every)
  rereads _ := trivial
  closed := by
    rintro g rfl
    simp only [Strategy.standard, bne_eq_false_iff_eq]
    exact sure

/-- The standard types answer every reference to one of them. -/
theorem TypeRef.IsBuiltin.answers {r : TypeRef} (h : r.IsBuiltin) :
    TypeRegistry.standard.env.Answers L True r := by
  obtain ⟨type, htype⟩ := Option.isSome_iff_exists.mp h.1
  obtain ⟨hmem, hname⟩ := TypeRegistry.standard_find htype
  refine ⟨type, htype, fun host => ?_⟩
  obtain ⟨c, hsupply, sure, every⟩ :=
    Builtin.supply_sure hmem (fun hparam => h.2 (hname ▸ hparam)) TypeRegistry.standard.env host
  exact ⟨c, hsupply, .of_sure every sure⟩

end

/-! ## Types in a longer text -/

namespace Host

variable {n : Nat} {name : String} (text tail : Text)

/-- A node found in the tail, in the whole text. -/
def later (n : Nat) (ref : NodeRef) : NodeRef := ⟨text, ref.node.shift n, ref.index⟩

mutual

theorem lastBelow?_shift : ∀ node : Node,
    lastBelow? text name (node.shift n) = (lastBelow? tail name node).map (later text n)
  | ⟨_, _, _, _, _, children⟩ => by
    simp only [Node.shift, lastBelow?]
    exact lastAmong?_shift children 0

theorem lastAmong?_shift : ∀ (nodes : List Node) (index : Nat),
    lastAmong? text name index (Node.shiftAll n nodes) =
      (lastAmong? tail name index nodes).map (later text n)
  | [], _ => rfl
  | node :: nodes, index => by
    simp only [Node.shiftAll, lastAmong?, lastAmong?_shift nodes (index + 1), Node.shift_name]
    cases lastAmong? tail name (index + 1) nodes with
    | some found => rfl
    | none =>
      simp only [Option.map_none]
      split
      · rfl
      · exact lastBelow?_shift node

end

theorem lastIn?_shift (trail : Trail) :
    lastIn? text name (trail.shift n).numbered =
      (lastIn? tail name trail.numbered).map (later text n) := by
  induction trail using Trail.pushInduction with
  | empty => rfl
  | push trail node ih =>
    rw [show (trail.push node).shift n = (trail.shift n).push (node.shift n) from rfl]
    simp only [Trail.numbered_push, lastIn?, Node.shift_name, lastBelow?_shift text tail node, ih]
    split
    · rfl
    · cases lastBelow? tail name node <;> rfl

/-- A capture is found later in the text by as much as the match is. -/
theorem lastNamed?_shift (offset : Nat) (scopes : List Trail) :
    lastNamed? ⟨text, offset + n, scopes.map (Trail.shift n)⟩ name =
      (lastNamed? ⟨tail, offset, scopes⟩ name).map (later text n) := by
  simp only [lastNamed?]
  induction scopes with
  | nil => rfl
  | cons trail scopes ih =>
    simp only [List.map_cons, List.findSome?_cons, ih, lastIn?_shift text tail trail]
    cases lastIn? tail name trail.numbered <;> rfl

end Host

namespace Builtin

variable {n : Nat} {text tail : Text} {type : ParserType}

/-- Built-in types give the same checker for a text and for its tail. -/
theorem supply_shift (h : type ∈ all) (htext : Text.Tail n text tail) (types : TypeEnv)
    (offset : Nat) (scopes : List Trail) (param : Option String) :
    types.supply ⟨text, offset + n, scopes.map (Trail.shift n)⟩ param type =
      types.supply ⟨tail, offset, scopes⟩ param type := by
  have hbackref (name : String) (given : List Char → Checker) :
      types.supply ⟨text, offset + n, scopes.map (Trail.shift n)⟩ param (backrefWith name given) =
        types.supply ⟨tail, offset, scopes⟩ param (backrefWith name given) := by
    cases param with
    | none => rfl
    | some capture =>
      have hfind := Host.lastNamed?_eq_find? ⟨tail, offset, scopes⟩ capture
      simp only [backrefWith, TypeEnv.supply, Host.lastNamed?_shift text tail]
      cases hlast : Host.lastNamed? ⟨tail, offset, scopes⟩ capture with
      | none => rfl
      | some found =>
        rw [hlast] at hfind
        obtain ⟨_, _, heq⟩ := Option.map_eq_some_iff.mp hfind.symm
        have hfound : found.text = tail := (Prod.mk.inj heq).1.symm
        -- The capture has the same characters in both texts.
        have hchars : (Host.later text n found).chars = found.chars := by
          simp only [Host.later, NodeRef.chars, Node.shift_start, Node.shift_stop, htext.slice,
            hfound]
        simp only [Option.map_some, hchars]
  simp only [all, List.mem_cons, List.not_mem_nil, or_false] at h
  rcases h with rfl | rfl | rfl | rfl | rfl | rfl | rfl | rfl
  case inr.inr.inr.inr.inl => exact hbackref _ _
  case inr.inr.inr.inr.inr.inl => exact hbackref _ _
  all_goals rfl

/-- Built-in types accept the same nodes of a text and of its tail. -/
theorem accepts_shift (h : type ∈ all) (htext : Text.Tail n text tail) (host host' : Host)
    (node : Node) :
    type.accepts host ⟨text, node.shift n, 0⟩ = type.accepts host' ⟨tail, node, 0⟩ := by
  simp only [all, List.mem_cons, List.not_mem_nil, or_false] at h
  rcases h with rfl | rfl | rfl | rfl | rfl | rfl | rfl | rfl
  case inr.inr.inr.inl =>
    simp only [identifierCI, ParserType.accepts, Node.shift_param, htext.string node 0]
  all_goals rfl

theorem holdsOnly (h : type ∈ all) : type.HoldsOnly (· ∈ all) := by
  refine ⟨h, (every_of_mem_all h).combine (fun e he _ type ht => ?_) (fun _ _ _ => trivial)
    (every_of_mem_all h)⟩
  obtain ⟨c, hc⟩ := he
  exact nomatch hc.symm.trans ht

end Builtin

theorem TypeRegistry.standard_holdsOnly : TypeRegistry.standard.env.HoldsOnly (· ∈ Builtin.all) where
  found _ _ h := Builtin.holdsOnly (TypeRegistry.standard_find h).1
  compiled _ _ h := nomatch h

/-! ## Searches of suffixes -/

/-- A search with the standard types, and one that starts earlier in a tail of the text. -/
def Pairing.later : Pairing where
  types := TypeRegistry.standard.env
  types' := TypeRegistry.standard.env
  strategy := .standard
  strategy' := .standard
  early _ := False
  common _ := True
  late _ := True
  around := SameAround
  kept := Pairing.SameKept fun c =>
    c.Every (Entry.Asks TypeRegistry.standard.env (·.type ∈ Builtin.all)) fun _ => True
  useOk use := use.type ∈ Builtin.all

theorem Pairing.later_lawful : Pairing.later.Lawful := by
  have holds := TypeRegistry.standard_holdsOnly
  refine Shared.lawful ⟨trivial, SameAround.nothing, SameAround.levels, trivial, trivial, rfl, rfl,
    fun name type h => holds.type_asks (holds.found name type h), rfl, ?_⟩ rfl rfl
    (fun use host c huse hc => holds.supplied_asks huse hc) ?_
  · intro n use _ huse text tail offset outer outer' node htext _
    exact Builtin.accepts_shift huse.1 htext _ _ node
  · rintro n use text tail offset outer outer' - huse htext rfl
    simp only [Pairing.later]
    rw [Builtin.supply_shift huse.1 htext]
    cases TypeEnv.supply TypeRegistry.standard.env ⟨tail, offset, outer'⟩ use.param use.type with
    | ok given => exact .ok rfl
    | error f => exact .error ⟨rfl, trivial⟩

/-- The record of a failure in a text where everything stands so much later. -/
def Unmatched.shift (n : Nat) (u : Unmatched) : Unmatched := { u with offset := u.offset + n }

/-- The tree in a text where everything stands so much later. -/
def MatchTree.shiftInto (text : Text) (n : Nat) (tree : MatchTree) : MatchTree :=
  ⟨text, tree.root.shift n⟩

section

variable {g : Grammar} (hg : g.Every (Entry.Refers TypeRef.IsBuiltin) Region.AreColumns)
  {text : Text} {start fuel : Nat}
include hg

theorem Grammar.Every.holdsNone : g.HoldsOnly (· ∈ Builtin.all) := by
  refine hg.combine (fun e h _ type ht => ?_) (fun _ _ _ => trivial) hg
  simp only [Entry.Refers, ht] at h

/-- **A search from an offset is a search of what is left of the text there.** -/
theorem Grammar.search_suffix (hstart : start ≤ text.size)
    {seen : Seen (Option Failure) (Option Match)}
    (h : searchWithin fuel (TypeRegistry.standard.env.setting (text.slice start text.size))
      .beginning g 0 = .ok seen) :
    searchWithin fuel (TypeRegistry.standard.env.setting text) .beginning g start =
      .ok (seen.shift start (Match.shift start)) := by
  have hfollows := Pairing.searchWithin_follows Pairing.later_lawful (.same fuel) start
    (TypeRegistry.standard.env.setting text)
    (TypeRegistry.standard.env.setting (text.slice start text.size)) .beginning g 0
    ⟨trivial, rfl, rfl, rfl, rfl, .drop text hstart, rfl⟩
    (TypeRegistry.standard_holdsOnly.grammar_asks hg.holdsNone)
  rw [h, Nat.zero_add] at hfollows
  generalize searchWithin fuel (TypeRegistry.standard.env.setting text) .beginning g start = x
    at hfollows ⊢
  cases hfollows with
  | early h =>
    next stop => cases stop <;> exact h.elim
  | ok h => exact congrArg Except.ok h

/-- With built-in types every search ends, with a match or without one. -/
theorem Grammar.Every.searched (hsize : text.size < maxCount) (hstart : start ≤ text.size) :
    ∃ seen, ∀ᶠ fuel in atTop,
      searchWithin fuel (TypeRegistry.standard.env.setting text) .beginning g start = .ok seen := by
  have ready : (TypeRegistry.standard.env.setting text).Ready TypeRegistry.standard.env True
      g.rereads start :=
    ⟨rfl, rfl, .inl trivial⟩
  have halts : g.Halts (Option Failure) TypeRegistry.standard.env True :=
    hg.halts fun r hr => hr.answers
  rcases halts _ .beginning start ready with ⟨seen, _, hseen⟩ | ⟨_, ⟨_, rfl⟩, herror⟩
  · exact ⟨seen, hseen⟩
  · -- What a search reads lies in the text, so it is never out of range.
    obtain ⟨fuel, hfuel⟩ := herror.exists
    have built : g.Built := Checker.Every.built (c := .grammar g) hg
    obtain ⟨_, halike⟩ := Machine.run_alike (L := Option Failure) fuel
      (TypeRegistry.standard_built.setting_fits hsize hstart) .beginning
      (Machine.tidy_start built hstart)
    rw [show Machine.run fuel _ _ _ = .error _ from hfuel] at halike
    exact absurd rfl halike

/-- With enough steps the search of each suffix has an answer. -/
theorem Grammar.search_suffix_answers (hsize : text.size < maxCount) : ∀ᶠ fuel in atTop,
    ∀ start ∈ Finset.range (text.size + 1), ∃ seen,
      searchWithin fuel (TypeRegistry.standard.env.setting (text.slice start text.size)) .beginning
        g 0 = .ok seen := by
  refine (Filter.eventually_all_finset _).mpr fun start _ => ?_
  obtain ⟨seen, hseen⟩ := Grammar.Every.searched hg
    (Nat.lt_of_le_of_lt (Text.size_slice_le text start text.size) hsize) (Nat.zero_le _)
  exact hseen.mono fun fuel h => ⟨seen, h⟩

end

/-! ## The first match -/

/-- Of the failures at so many starts this one is furthest into the text; of several it is the
first. -/
structure Furthest (u : Nat → Unmatched) (count start : Nat) : Prop where
  lt : start < count
  le : ∀ other < count, (u other).offset ≤ (u start).offset
  first : ∀ other < start, (u other).offset < (u start).offset

theorem Furthest.zero (u : Nat → Unmatched) : Furthest u 1 0 where
  lt := Nat.one_pos
  le other h := by rw [Nat.lt_one_iff.mp h]
  first _ h := absurd h (Nat.not_lt_zero _)

theorem Furthest.next {u : Nat → Unmatched} {count start : Nat} (h : Furthest u count start) :
    ∃ best, Furthest u (count + 1) best ∧
      Grammar.furthestUnmatched (some (u start)) (u count) = u best := by
  simp only [Grammar.furthestUnmatched]
  split
  · next hlt =>
    have hbefore (other : Nat) (hother : other < count) : (u other).offset < (u count).offset :=
      Nat.lt_of_le_of_lt (h.le other hother) hlt
    refine ⟨count, ⟨Nat.lt_succ_self count, fun other hother => ?_, hbefore⟩, rfl⟩
    rcases Nat.lt_succ_iff_lt_or_eq.mp hother with hother | rfl
    · exact Nat.le_of_lt (hbefore other hother)
    · exact Nat.le_refl _
  · next hge =>
    refine ⟨start, ⟨Nat.lt_succ_of_lt h.lt, fun other hother => ?_, h.first⟩, rfl⟩
    rcases Nat.lt_succ_iff_lt_or_eq.mp hother with hother | rfl
    · exact h.le other hother
    · exact Nat.le_of_not_lt hge

section

variable {shown : String} {matchAt : Nat → Except Stop MatchTree}

theorem firstMatch_of_first {tree : MatchTree} {first count start : Nat}
    {furthest : Option Unmatched}
    (htree : matchAt first = .ok tree) (hle : start ≤ first) (hlt : first < start + count)
    (hbefore : ∀ other < first, ∃ u, matchAt other = .error (.refused (.unmatched u))) :
    firstMatch shown matchAt count start furthest = .ok tree := by
  induction count generalizing start furthest with
  | zero => omega
  | succ count ih =>
    rcases Nat.eq_or_lt_of_le hle with rfl | hle
    · simp only [firstMatch, htree]
    · obtain ⟨u, hu⟩ := hbefore start hle
      simp only [firstMatch, hu]
      exact ih hle (by omega)

theorem firstMatch_of_none {u : Nat → Unmatched} {start best : Nat} (hbest : Furthest u start best)
    {count : Nat}
    (hnone : ∀ other < start + count, matchAt other = .error (.refused (.unmatched (u other)))) :
    ∃ last, Furthest u (start + count) last ∧
      firstMatch shown matchAt count start (some (u best)) =
        .error (.refused (.unmatched (u last))) := by
  induction count generalizing start best with
  | zero => exact ⟨best, hbest, rfl⟩
  | succ count ih =>
    obtain ⟨next, hnext, heq⟩ := hbest.next
    have hsum : start + 1 + count = start + (count + 1) := by omega
    simp only [firstMatch, hnone start (by omega), heq, ← hsum]
    exact ih hnext fun other hother => hnone other (by omega)

end

/-- A match of a beginning of what is left of the text after so many characters. -/
def Grammar.parseSuffix (fuel : Nat) (text : Text) (start : Nat) (g : Grammar) :
    Except Stop MatchTree :=
  g.parse fuel TypeRegistry.standard.env (text.slice start text.size)

/-- The same answer about a suffix as about the text: a match or a failure, with all offsets
moved. -/
inductive Grammar.SuffixAnswer (text : Text) (start : Nat) :
    Except Stop MatchTree → Except Stop MatchTree → Prop where
  | matched (tree : MatchTree) : tree.root.start = 0 →
    Grammar.SuffixAnswer text start (.ok tree) (.ok (tree.shiftInto text start))
  | unmatched (u : Unmatched) : Grammar.SuffixAnswer text start (.error (.refused (.unmatched u)))
    (.error (.refused (.unmatched (u.shift start))))

section

variable {g : Grammar} (hg : g.Every (Entry.Refers TypeRef.IsBuiltin) Region.AreColumns)
  {text : Text}
include hg

theorem Grammar.suffixAnswer {start fuel : Nat} (hstart : start ≤ text.size)
    {seen : Seen (Option Failure) (Option Match)}
    (h : searchWithin fuel (TypeRegistry.standard.env.setting (text.slice start text.size))
      .beginning g 0 = .ok seen) :
    Grammar.SuffixAnswer text start (g.parseSuffix fuel text start)
      (g.matchFrom fuel TypeRegistry.standard.env text .beginning start) := by
  have hlater := Grammar.search_suffix hg hstart h
  simp only [Grammar.parseSuffix, Grammar.parse, Grammar.matchFrom_eq_verdict, h, hlater]
  obtain ⟨_ | m, failures⟩ := seen
  · cases failures with
    | some failure => exact .unmatched _
    | none =>
      have hmoved : (⟨start, .grammar g, 0⟩ : Failure) =
          Failure.shift start ⟨0, .grammar g, 0⟩ := by
        simp only [Failure.shift, Nat.zero_add]
      simp only [Grammar.verdict, Seen.shift, Option.map_none, Option.getD_none, hmoved]
      exact .unmatched _
  · have hmoved : MatchTree.ofNodes text start (m.stop + start) (Node.shiftAll start m.nodes) =
        (MatchTree.ofNodes (text.slice start text.size) 0 m.stop m.nodes).shiftInto text start := by
      simp only [MatchTree.ofNodes, MatchTree.shiftInto, Node.shift, Nat.zero_add]
    simp only [Grammar.verdict, Seen.shift, Option.map_some, Match.shift, hmoved]
    exact .matched _ rfl

/-- **The first match in a text is the match of the longest suffix that has one.** With enough steps
every suffix is matched or fails to match. If there are matches, the text is matched from the least
start of one, with the tree of that suffix moved there. If there are none, the failure furthest into
the text is reported, and of several the first. -/
theorem Grammar.find_eq_leftmost_suffix (hsize : text.size < maxCount) :
    ∃ enough, ∀ fuel ≥ enough,
      (∀ start ≤ text.size, (∃ tree, g.parseSuffix fuel text start = .ok tree) ∨
        ∃ u, g.parseSuffix fuel text start = .error (.refused (.unmatched u))) ∧
      (∀ start ≤ text.size, ∀ tree, g.parseSuffix fuel text start = .ok tree →
        (∀ other < start, ¬ ∃ tree, g.parseSuffix fuel text other = .ok tree) →
          g.find fuel TypeRegistry.standard.env text = .ok (tree.shiftInto text start) ∧
            (tree.shiftInto text start).root.start = start) ∧
      ((∀ start ≤ text.size, ¬ ∃ tree, g.parseSuffix fuel text start = .ok tree) →
        ∃ u : Nat → Unmatched, (∀ start ≤ text.size,
            g.parseSuffix fuel text start = .error (.refused (.unmatched (u start)))) ∧
          ∃ start, Furthest (fun other => (u other).shift other) (text.size + 1) start ∧
            g.find fuel TypeRegistry.standard.env text =
              .error (.refused (.unmatched ((u start).shift start)))) := by
  refine Filter.eventually_atTop.mp ?_
  filter_upwards [Grammar.search_suffix_answers hg hsize] with fuel hanswers
  have hanswer (start : Nat) (hstart : start ≤ text.size) : Grammar.SuffixAnswer text start
      (g.parseSuffix fuel text start)
      (g.matchFrom fuel TypeRegistry.standard.env text .beginning start) := by
    obtain ⟨seen, hseen⟩ := hanswers start (Finset.mem_range_succ_iff.mpr hstart)
    exact Grammar.suffixAnswer hg hstart hseen
  -- Where no match is found there is a failure, here and in the text.
  have hfails (start : Nat) (hstart : start ≤ text.size)
      (hnone : ¬ ∃ tree, g.parseSuffix fuel text start = .ok tree) :
      ∃ u, g.parseSuffix fuel text start = .error (.refused (.unmatched u)) ∧
        g.matchFrom fuel TypeRegistry.standard.env text .beginning start =
          .error (.refused (.unmatched (u.shift start))) := by
    have h := hanswer start hstart
    generalize g.parseSuffix fuel text start = x at h hnone ⊢
    generalize g.matchFrom fuel TypeRegistry.standard.env text .beginning start = y at h ⊢
    cases h with
    | matched tree _ => exact absurd ⟨tree, rfl⟩ hnone
    | unmatched u => exact ⟨u, rfl, rfl⟩
  refine ⟨fun start hstart => ?_, fun start hstart tree htree hbefore => ?_, fun hnone => ?_⟩
  · by_cases h : ∃ tree, g.parseSuffix fuel text start = .ok tree
    · exact .inl h
    · obtain ⟨u, hu, _⟩ := hfails start hstart h
      exact .inr ⟨u, hu⟩
  · have h := hanswer start hstart
    rw [htree] at h
    generalize hmatch : g.matchFrom fuel TypeRegistry.standard.env text .beginning start = y at h
    cases h with
    | matched _ hroot =>
      refine ⟨?_, ?_⟩
      · rw [Grammar.find, Grammar.findFrom_eq_firstMatch]
        refine firstMatch_of_first hmatch (Nat.zero_le _) (by omega) fun other hother => ?_
        obtain ⟨u, _, hu⟩ := hfails other (by omega) (hbefore other hother)
        exact ⟨_, hu⟩
      · simp only [MatchTree.shiftInto, Node.shift_start, hroot, Nat.zero_add]
  · have : Nonempty Unmatched := ⟨⟨0, g.display, 0⟩⟩
    choose! u hu hmatch using fun start hstart => hfails start hstart (hnone start hstart)
    refine ⟨u, hu, ?_⟩
    obtain ⟨last, hlast, heq⟩ : ∃ last,
        Furthest (fun other => (u other).shift other) (1 + text.size) last ∧
          firstMatch g.display (g.matchFrom fuel TypeRegistry.standard.env text .beginning)
            text.size 1 (some ((u 0).shift 0)) =
              .error (.refused (.unmatched ((u last).shift last))) :=
      firstMatch_of_none (.zero _) fun other hother => hmatch other (by omega)
    refine ⟨last, Nat.add_comm 1 text.size ▸ hlast, ?_⟩
    rw [Grammar.find, Grammar.findFrom_eq_firstMatch, ← heq]
    simp only [firstMatch, hmatch 0 (Nat.zero_le _), Grammar.furthestUnmatched]

end

/-- A character with a name, and the same character again. -/
def Grammar.doubled : Grammar :=
  ⟨[(Entry.ofChecker (.anyOf 1)).named "first", .ref "backref" (some "first")]⟩

/-- The doubled character in `baa` is found where it is in `aa`, one character later. -/
theorem Grammar.doubled_find :
    Grammar.doubled.Every (Entry.Refers TypeRef.IsBuiltin) Region.AreColumns ∧
      #['b', 'a', 'a'].size < maxCount ∧ ∃ enough, ∀ fuel ≥ enough, ∃ tree,
        Grammar.doubled.parseSuffix fuel #['b', 'a', 'a'] 1 = .ok tree ∧
          Grammar.doubled.find fuel TypeRegistry.standard.env #['b', 'a', 'a'] =
            .ok (tree.shiftInto #['b', 'a', 'a'] 1) := by
  have hevery : Grammar.doubled.Every (Entry.Refers TypeRef.IsBuiltin) Region.AreColumns :=
    ⟨⟨trivial, trivial, trivial⟩, ⟨⟨rfl, fun _ => rfl⟩, trivial, trivial⟩, trivial⟩
  have hsize : #['b', 'a', 'a'].size < maxCount := by decide
  refine ⟨hevery, hsize, ?_⟩
  obtain ⟨enough, h⟩ := Grammar.find_eq_leftmost_suffix hevery hsize
  refine ⟨enough + 10, fun fuel hfuel => ?_⟩
  obtain ⟨n, rfl⟩ : ∃ n, fuel = n + 10 := ⟨fuel - 10, by omega⟩
  have hfirst : ∀ other < 1, ¬ ∃ tree,
      Grammar.doubled.parseSuffix (n + 10) #['b', 'a', 'a'] other = .ok tree := by
    rintro other hother ⟨tree, htree⟩
    obtain rfl := Nat.lt_one_iff.mp hother
    cases htree
  have hfind := (h (n + 10) (by omega)).2.1 1 (by decide) _ rfl hfirst
  exact ⟨_, rfl, hfind.1⟩

end TextGrammar
