/-
What the categories of the pattern language come to in a text, without counting
steps. The rules for entries that keep what they take are restated here for the
searches of a pattern: a checker as a choice, one attempt at an entry, its
repeats, and entries one after the other.
-/
import TextGrammar.Proofs.PatternSearch

namespace TextGrammar.Pattern

variable {text : Text} {i : Nat}

/-! ## Outcomes -/

/-- The checker as a choice comes to this. -/
def Chooses (text : Text) (c : Checker) (i : Nat) (found : Option Found) : Prop :=
  ∃ need, c.Takes (Option Failure) (searching text) need i found

/-- The longest of the choices comes to this. -/
def Among (text : Text) (cs : List Checker) (i : Nat) (found : Option Found) : Prop :=
  ∃ need, Checker.AllTake (Option Failure) (searching text) need cs i found

/-- One attempt at the entry comes to this. -/
def Attempts (text : Text) (entry : Entry) (i : Nat) (found : Option Match) : Prop :=
  ∃ need steps, entry.Takes (Option Failure) (searching text) need steps i found

/-- The entry comes to this from some number of repeats on. -/
def Repeats (text : Text) (entry : Entry) (repeats i : Nat) (found : Option Match) : Prop :=
  ∃ need steps, entry.Repeats (Option Failure) (searching text) need steps repeats i found

/-- The entries come to this one after the other. -/
def Reads (text : Text) (entries : List Entry) (i : Nat) (found : Option Match) : Prop :=
  ∃ need steps, Entry.AllRead (Option Failure) (searching text) need steps entries i found

/-! ## Checkers -/

section

variable {c : Checker} {choices : List Checker} {fallback : Option Checker}
  {here later found : Option Found} {f : Found}

/-- A checker without parts is a matter of its length. -/
theorem Chooses.of_length (length : Option Nat) (hgrammar : ∀ g, c ≠ .grammar g)
    (hchoice : ∀ cs fallback, c ≠ .oneOf cs fallback)
    (h : ∀ (run : Runner (Option Failure)) (outer : List Trail),
      c.lengthAt run ((searching text).around outer) i = .ok length) :
    Chooses text c i (length.map fun n => ⟨i + n, [], false⟩) :=
  ⟨0, .of_length hgrammar hchoice h⟩

theorem Chooses.char {set : CharSet} {x : Char} (h : text[i]? = some x)
    (hset : set.contains .standard x = true) :
    Chooses text (.char set) i (some ⟨i + 1, [], false⟩) :=
  ⟨0, .char h hset⟩

theorem Chooses.not_char {set : CharSet}
    (h : ∀ x, text[i]? = some x → set.contains .standard x = false) :
    Chooses text (.char set) i none :=
  ⟨0, .not_char h⟩

theorem Chooses.word (w : Word) :
    Chooses text (.word w) i
      ((w.lengthAt text i).map fun n => ⟨i + n, [], false⟩) :=
  of_length _ (by rintro _ ⟨⟩) (by rintro _ _ ⟨⟩) fun _ _ => rfl

theorem Chooses.any (width : Option Nat) :
    Chooses text (.any width) i
      ((Checker.anyLengthAt width text i).map fun n => ⟨i + n, [], false⟩) :=
  of_length _ (by rintro _ ⟨⟩) (by rintro _ _ ⟨⟩) fun _ _ => rfl

theorem Chooses.sequence {entries : List Entry} {found : Option Match}
    (h : Reads text entries i found) :
    Chooses text (.sequence entries) i (found.map Match.found) := by
  obtain ⟨need, steps, hread⟩ := h
  exact ⟨_, .grammar hread⟩

theorem Chooses.stuck {entries : List Entry} (h : Reads text entries i none) :
    Chooses text (.sequence entries) i none := .sequence h

/-- A choice comes to one thing only. -/
theorem Chooses.unique {found' : Option Found} (h : Chooses text c i found)
    (h' : Chooses text c i found') : found = found' := by
  obtain ⟨need, h⟩ := h
  obtain ⟨need', h'⟩ := h'
  obtain ⟨failures, hrun⟩ := h [] (max need need') (Nat.le_max_left _ _)
  obtain ⟨failures', hrun'⟩ := h' [] (max need need') (Nat.le_max_right _ _)
  cases hrun.symm.trans hrun'
  rfl

theorem Among.nil : Among text [] i none := ⟨0, .nil⟩

theorem Among.cons (hlater : Among text choices i later) (hhere : Chooses text c i here) :
    Among text (c :: choices) i (longer later here) := by
  obtain ⟨need, hlater⟩ := hlater
  obtain ⟨need', hhere⟩ := hhere
  refine ⟨max need need', .cons (fun outer fuel hfuel => hlater outer fuel ?_)
    (hhere.mono (Nat.le_max_right _ _))⟩
  exact Nat.le_trans (Nat.le_max_left _ _) hfuel

/-- A choice that takes nothing makes no difference. -/
theorem Among.skip (h : Among text choices i found) (hhere : Chooses text c i none) :
    Among text (c :: choices) i found := by
  have hcons := h.cons hhere
  cases found <;> exact hcons

/-- The first choice is the only one that takes anything. -/
theorem Among.only (h : Among text choices i none) (hhere : Chooses text c i found) :
    Among text (c :: choices) i found := h.cons hhere

theorem Chooses.among (h : Among text choices i (some f)) :
    Chooses text (.oneOf choices fallback) i (some f) := by
  obtain ⟨need, h⟩ := h
  exact ⟨need, .chosen h⟩

theorem Chooses.one_of (h : Among text choices i found) :
    Chooses text (.oneOf choices none) i found := by
  obtain ⟨need, h⟩ := h
  cases found with
  | none => exact ⟨need, .unchosen h⟩
  | some f => exact ⟨need, .chosen h⟩

theorem Chooses.fallen {other : Checker} (h : Among text choices i none)
    (hother : Chooses text other i found) :
    Chooses text (.oneOf choices (some other)) i found := by
  obtain ⟨need, h⟩ := h
  obtain ⟨need', hother⟩ := hother
  refine ⟨max need need', .fallen (fun outer fuel hfuel => h outer fuel ?_)
    (hother.mono (Nat.le_max_right _ _))⟩
  exact Nat.le_trans (Nat.le_max_left _ _) hfuel

end

/-! ## Entries -/

section

variable {entry : Entry} {entries : List Entry} {use : Option TypeUse} {c : Checker}
  {repeats stop : Nat} {nodes : List Node} {m : Match} {found : Option Match}

/-- Neither a grammar nor regions: the checker comes to its outcome at once. -/
def isDirect : Checker → Bool
  | .grammar _ | .fixed _ => false
  | _ => true

theorem Attempts.at_once {found : Option Found} (hentry : entry.MatchedBy patternTypes use c)
    (hdirect : isDirect c = true)
    (h : Chooses text c i found) :
    Attempts text entry i (found.map fun f => ⟨f.stop, entry.nodesOf i f use⟩) := by
  obtain ⟨need, htakes⟩ := h
  have hfixed (regions : List Region) : c ≠ .fixed regions := by
    rintro rfl
    cases hdirect
  have hshut (g : Grammar) (hg : c = .grammar g) : (searching text).strategy.opens g = false := by
    subst hg
    cases hdirect
  exact ⟨need, 1, .at_once hentry hfixed hshut htakes⟩

theorem Attempts.grammar {g : Grammar} (hentry : entry.MatchedBy patternTypes use (.grammar g))
    (h : Reads text g.entries i found) :
    Attempts text entry i (found.map fun m => ⟨m.stop, entry.nodesOf i m.found use⟩) := by
  obtain ⟨need, steps, hread⟩ := h
  cases hopens : (searching text).strategy.opens g with
  | true => exact ⟨_, _, .walked hentry hopens hread⟩
  | false =>
    have hshut (g' : Grammar) (hg' : Checker.grammar g = .grammar g') :
        (searching text).strategy.opens g' = false := by
      cases hg'
      exact hopens
    have hfixed (regions : List Region) : Checker.grammar g ≠ .fixed regions := by
      rintro ⟨⟩
    have honce := Entry.Takes.at_once hentry hfixed hshut (Checker.Takes.grammar hread)
    rw [Option.map_map] at honce
    exact ⟨_, _, honce⟩

/-! ### Repeats -/

theorem Repeats.full (hfull : entry.quantifier.isFull repeats = true) :
    Repeats text entry repeats i (some ⟨i, []⟩) := ⟨0, 1, .full hfull⟩

theorem Repeats.missed (hfull : entry.quantifier.isFull repeats = false)
    (h : Attempts text entry i none) :
    Repeats text entry repeats i
      (if repeats < entry.quantifier.lower then none else some ⟨i, []⟩) := by
  obtain ⟨need, steps, htakes⟩ := h
  exact ⟨need, steps, .missed hfull htakes⟩

theorem Repeats.stayed (hfull : entry.quantifier.isFull repeats = false)
    (h : Attempts text entry i (some ⟨i, nodes⟩)) :
    Repeats text entry repeats i (some ⟨i, nodes⟩) := by
  obtain ⟨need, steps, htakes⟩ := h
  exact ⟨need, steps, .stayed hfull htakes rfl⟩

theorem Repeats.more (hfull : entry.quantifier.isFull repeats = false)
    (h : Attempts text entry i (some m)) (hstop : m.stop ≠ i)
    (hlater : Repeats text entry (repeats + 1) m.stop found) :
    Repeats text entry repeats i (found.map (.after m.nodes)) := by
  obtain ⟨need, steps, htakes⟩ := h
  obtain ⟨need', steps', hrepeats⟩ := hlater
  have htakes' : entry.Takes (Option Failure) (searching text) (max need need') steps i (some m) :=
    fun rest repeats hfull =>
      (htakes rest repeats hfull).mono (Nat.le_max_left _ _) (Nat.le_refl _)
  have hrepeats' : entry.Repeats (Option Failure) (searching text) (max need need') steps'
      (repeats + 1) m.stop found :=
    fun rest => (hrepeats rest).mono (Nat.le_max_right _ _) (Nat.le_refl _)
  exact ⟨_, _, .more hfull htakes' hstop hrepeats'⟩

/-- An entry that repeats at most once: what an attempt comes to, or nothing at all where there may
be nothing. -/
theorem Repeats.once (hupper : entry.quantifier.upper = some 1) (h : Attempts text entry i found) :
    Repeats text entry 0 i
      (if entry.quantifier.lower = 0 then some (found.getD ⟨i, []⟩) else found) := by
  have hempty : entry.quantifier.isFull 0 = false := by simp [Quantifier.isFull, hupper]
  have hfull : entry.quantifier.isFull 1 = true := by simp [Quantifier.isFull, hupper]
  cases found with
  | none =>
    have hmissed := Repeats.missed hempty h
    by_cases hlower : entry.quantifier.lower = 0
    · rw [if_pos hlower]
      rwa [if_neg (by omega)] at hmissed
    · rw [if_neg hlower]
      rwa [if_pos (by omega)] at hmissed
  | some m =>
    have hone : Repeats text entry 0 i (some m) := by
      obtain ⟨stop, nodes⟩ := m
      by_cases hstop : stop = i
      · subst hstop
        exact .stayed hempty h
      · have hmore := Repeats.more hempty h hstop (.full hfull)
        rw [Option.map_some, Match.after, List.append_nil] at hmore
        exact hmore
    split <;> exact hone

/-- Steps one after the other, each from where the last one ended, and all their nodes. -/
inductive Chain (step : Nat → Match → Prop) : Nat → List Node → Nat → Prop
  | nil (i : Nat) : Chain step i [] i
  | cons {i j : Nat} {m : Match} {nodes : List Node} (h : step i m) (hlt : i < m.stop)
    (hlater : Chain step m.stop nodes j) : Chain step i (m.nodes ++ nodes) j

namespace Chain

variable {step step' : Nat → Match → Prop} {j k : Nat} {later : List Node}

theorem le (h : Chain step i nodes j) : i ≤ j := by
  induction h with
  | nil => exact Nat.le_refl _
  | cons _ hlt _ ih => exact Nat.le_trans (Nat.le_of_lt hlt) ih

theorem single (h : step i m) (hlt : i < m.stop) : Chain step i m.nodes m.stop := by
  have hone := Chain.cons h hlt (.nil m.stop)
  rwa [List.append_nil] at hone

theorem append (h : Chain step i nodes j) (h' : Chain step j later k) :
    Chain step i (nodes ++ later) k := by
  induction h with
  | nil => exact h'
  | cons h hlt _ ih =>
    rw [List.append_assoc]
    exact .cons h hlt (ih h')

theorem mono (h : Chain step i nodes j) (hstep : ∀ i m, step i m → i < m.stop → step' i m) :
    Chain step' i nodes j := by
  induction h with
  | nil => exact .nil _
  | cons h hlt _ ih => exact .cons (hstep _ _ h hlt) hlt ih

/-- What is true of the nodes of every step is true of all of them. -/
theorem nodes_all {P : List Node → Prop} (h : Chain step i nodes j) (hnil : P [])
    (happend : ∀ nodes later, P nodes → P later → P (nodes ++ later))
    (hstep : ∀ i m, step i m → i < m.stop → P m.nodes) : P nodes := by
  induction h with
  | nil => exact hnil
  | cons h hlt _ ih => exact happend _ _ (hstep _ _ h hlt) ih

end Chain

/-- One attempt at the entry takes this. -/
def Steps (text : Text) (entry : Entry) (i : Nat) (m : Match) : Prop :=
  Attempts text entry i (some m)

/-- An entry that may repeat for ever takes steps until there is none. -/
theorem Repeats.chain {j : Nat} (hlower : entry.quantifier.lower = 0)
    (hupper : entry.quantifier.upper = none) (h : Chain (Steps text entry) i nodes j)
    (hend : Attempts text entry j none) (repeats : Nat) :
    Repeats text entry repeats i (some ⟨j, nodes⟩) := by
  have hopen (repeats : Nat) : entry.quantifier.isFull repeats = false := by
    simp only [Quantifier.isFull, hupper]
  induction h generalizing repeats with
  | nil =>
    have hmissed := Repeats.missed (hopen repeats) hend
    rwa [if_neg (by omega)] at hmissed
  | cons h hlt _ ih => exact .more (hopen repeats) h (Nat.ne_of_gt hlt) (ih hend (repeats + 1))

/-! ### Sequences -/

theorem Reads.nil : Reads text [] i (some ⟨i, []⟩) := ⟨0, 0, .nil⟩

theorem Reads.cons (h : Repeats text entry 0 i (some m))
    (hlater : Reads text entries m.stop found) :
    Reads text (entry :: entries) i (found.map (.after m.nodes)) := by
  obtain ⟨need, steps, hrepeats⟩ := h
  obtain ⟨need', steps', hread⟩ := hlater
  have hrepeats' : entry.Repeats (Option Failure) (searching text) (max need need') steps 0 i
      (some m) := fun rest => (hrepeats rest).mono (Nat.le_max_left _ _) (Nat.le_refl _)
  have hread' : Entry.AllRead (Option Failure) (searching text) (max need need') steps' entries
      m.stop found := fun rest => (hread rest).mono (Nat.le_max_right _ _) (Nat.le_refl _)
  exact ⟨_, _, .cons hrepeats' hread'⟩

theorem Reads.stuck (h : Repeats text entry 0 i none) : Reads text (entry :: entries) i none := by
  obtain ⟨need, steps, hrepeats⟩ := h
  exact ⟨need, steps, .stuck hrepeats⟩

theorem Reads.last (h : Repeats text entry 0 i found) : Reads text [entry] i found := by
  cases found with
  | none => exact .stuck h
  | some m =>
    have hread := Reads.cons h .nil
    rw [Option.map_some, Match.after, List.append_nil] at hread
    exact hread

/-- Entries come to one thing only. -/
theorem Reads.unique {found found' : Option Match} (h : Reads text entries i found)
    (h' : Reads text entries i found') : found = found' := by
  obtain ⟨need, steps, h⟩ := h
  obtain ⟨need', steps', h'⟩ := h'
  have hle : need + steps < need + steps + (need' + steps') + 1 := by omega
  have hle' : need' + steps' < need + steps + (need' + steps') + 1 := by omega
  obtain ⟨failures, hrun⟩ := Entry.AllRead.run (g := ⟨entries⟩) h [] hle
  obtain ⟨failures', hrun'⟩ := Entry.AllRead.run (g := ⟨entries⟩) h' [] hle'
  cases hrun.symm.trans hrun'
  rfl

theorem Repeats.unique {found found' : Option Match} (h : Repeats text entry 0 i found)
    (h' : Repeats text entry 0 i found') : found = found' := (Reads.last h).unique (.last h')

/-! ## Patterns -/

/-- What the body of a pattern comes to is what the pattern is matched by. -/
theorem Reads.parse (h : Reads text start.entries 0 (some m)) :
    start.parse (fuelFor text.size) patternTypes text = .ok (.ofNodes text 0 m.stop m.nodes) := by
  obtain ⟨need, steps, hread⟩ := h
  obtain ⟨stop, nodes, hparse, -⟩ := start_parse text
  let fuel := max (fuelFor text.size) (need + steps + 1)
  obtain ⟨failures, hrun⟩ := hread.run [] (Nat.le_max_right (fuelFor text.size) (need + steps + 1))
  have hsearch : searchWithin fuel (patternTypes.setting text) .beginning start 0 =
      .ok ⟨some m, failures⟩ := hrun
  have hlarge : start.parse fuel patternTypes text = .ok (.ofNodes text 0 m.stop m.nodes) := by
    simp only [Grammar.parse, Grammar.matchFrom, hsearch]
  rw [← hlarge, hparse _ (Nat.le_refl _), hparse fuel (Nat.le_max_left _ _)]

end

/-! ## Entries of patterns -/

section

variable {entry : Entry} {entries : List Entry} {c : Checker} {set : CharSet} {name : String}
  {x : Char} {repeats : Nat} {found : Option Match}

/-- A node of a category. -/
def categoryNode (name : String) (i stop : Nat) (children : List Node) : Node :=
  ⟨none, some name, none, i, stop, children⟩

theorem category_matched (h : category? name = some (Builtin.constant name c)) :
    (category name).MatchedBy patternTypes (some ⟨Builtin.constant name c, none⟩) c :=
  .ref ⟨h, rfl, fun _ => rfl, fun _ _ => rfl⟩

/-- A category that is a grammar, as an entry. -/
theorem Attempts.category (hcategory : category? name = some (Builtin.constant name
    (.sequence entries))) (h : Reads text entries i found) :
    Attempts text (category name) i
      (found.map fun m => ⟨m.stop, [categoryNode name i m.stop m.nodes]⟩) :=
  .grammar (category_matched hcategory) h

/-- A category that is a choice, as an entry. -/
theorem Attempts.choice_category {found : Option Found} {choices : List Checker}
    (hcategory : category? name = some (Builtin.constant name (.oneOf choices none)))
    (h : Chooses text (.oneOf choices none) i found) :
    Attempts text (Pattern.category name) i
      (found.map fun f => ⟨f.stop, [categoryNode name i f.stop f.nodes]⟩) :=
  .at_once (category_matched hcategory) rfl h

/-- A group without a name passes its nodes on. -/
theorem Attempts.group (hentry : entry.MatchedBy patternTypes none (.sequence entries))
    (hname : entry.capture = none) (h : Reads text entries i found) :
    Attempts text entry i found := by
  have hgroup := Attempts.grammar hentry h
  cases found with
  | none => exact hgroup
  | some m =>
    simp only [Option.map_some, Entry.nodesOf, Entry.untypedNodes, hname, Match.found, if_true]
      at hgroup
    exact hgroup

/-- A character of a set, as an entry. -/
theorem Attempts.char (hentry : entry.MatchedBy patternTypes none (.char set))
    (h : text[i]? = some x) (hset : set.contains .standard x = true) :
    Attempts text entry i (some ⟨i + 1, entry.nodesOf i ⟨i + 1, [], false⟩ none⟩) :=
  .at_once (c := .char set) hentry rfl (.char h hset)

theorem Attempts.not_char (hentry : entry.MatchedBy patternTypes none (.char set))
    (h : ∀ x, text[i]? = some x → set.contains .standard x = false) :
    Attempts text entry i none :=
  .at_once (c := .char set) hentry rfl (.not_char h)

theorem read_char (h : text[i]? = some x) :
    Repeats text (char x) 0 i (some ⟨i + 1, [.leaf i (i + 1)]⟩) :=
  .once rfl (.char (.ofChecker _) h (beq_self_eq_true x))

theorem not_char (h : text[i]? ≠ some x) : Repeats text (char x) 0 i none := by
  refine .once rfl (.not_char (.ofChecker _) fun y hy => ?_)
  exact beq_false_of_ne fun hxy => h (hxy ▸ hy)

end

end TextGrammar.Pattern
