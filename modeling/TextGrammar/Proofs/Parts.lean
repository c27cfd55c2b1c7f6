/-
Conditions on every part of a grammar: on each of its entries and on the
columns of each of its records, however deep they lie — in choices, negations,
columns and secondary grammars, and in the checkers its types can supply.
-/
import TextGrammar.Search.Tree

namespace TextGrammar

section

variable (entryOk : Entry → Prop) (columnsOk : List Region → Prop)

mutual

def Grammar.Every : Grammar → Prop
  | ⟨entries⟩ => Entry.EveryOf entries

def Grammar.EveryIn : Option Grammar → Prop
  | none => True
  | some g => Grammar.Every g

def Entry.EveryOf : List Entry → Prop
  | [] => True
  | entry :: entries => Entry.Every entry ∧ Entry.EveryOf entries

def Entry.Every : Entry → Prop
  | ⟨capture, target, q, second⟩ =>
    entryOk ⟨capture, target, q, second⟩ ∧ Target.Every target ∧ Grammar.EveryIn second

def Target.Every : Target → Prop
  | .checker c => Checker.Every c
  | .ref _ => True
  | .type t => ParserType.Every t

def Checker.Every : Checker → Prop
  | .char _ | .word _ | .any _ => True
  | .oneOf choices fallback => Checker.EveryOf choices ∧ Checker.EveryIn fallback
  | .not item => Checker.Every item
  | .fixed regions => columnsOk regions ∧ Region.EveryOf regions
  | .grammar g => Grammar.Every g

def Checker.EveryOf : List Checker → Prop
  | [] => True
  | c :: cs => Checker.Every c ∧ Checker.EveryOf cs

def Checker.EveryIn : Option Checker → Prop
  | none => True
  | some c => Checker.Every c

def Region.EveryOf : List Region → Prop
  | [] => True
  | region :: regions => Region.Every region ∧ Region.EveryOf regions

def Region.Every : Region → Prop
  | ⟨_, _, g⟩ => Grammar.EveryIn g

def ParserType.Every : ParserType → Prop
  | .computed _ _ supply _ _ =>
    ∀ vocabulary host param, Checker.EveryGiven (supply vocabulary host param)
  | .pattern _ _ _ => True

def Checker.EveryGiven : Except GrammarError Checker → Prop
  | .ok c => Checker.Every c
  | .error _ => True

end

end

section

variable {entryOk entryOk' entryOk'' : Entry → Prop}
  {columnsOk columnsOk' columnsOk'' : List Region → Prop}

theorem Entry.Every.entry : ∀ {e : Entry}, e.Every entryOk columnsOk → entryOk e
  | ⟨_, _, _, _⟩, h => h.1

theorem Entry.Every.target : ∀ {e : Entry}, e.Every entryOk columnsOk →
    e.target.Every entryOk columnsOk
  | ⟨_, _, _, _⟩, h => h.2.1

theorem Entry.Every.secondary : ∀ {e : Entry}, e.Every entryOk columnsOk →
    Grammar.EveryIn entryOk columnsOk e.secondary
  | ⟨_, _, _, _⟩, h => h.2.2

theorem Entry.EveryOf.each {es : List Entry} (h : Entry.EveryOf entryOk columnsOk es) :
    ∀ e ∈ es, e.Every entryOk columnsOk := by
  induction es with
  | nil => exact fun _ he => nomatch he
  | cons e es ih => exact List.forall_mem_cons.mpr ⟨h.1, ih h.2⟩

theorem Entry.EveryOf.first {es rest : List Entry} {e : Entry}
    (h : Entry.EveryOf entryOk columnsOk es) (hes : es = e :: rest) : e.Every entryOk columnsOk :=
  h.each e (hes ▸ List.mem_cons_self)

theorem Entry.EveryOf.append {es rest : List Entry} (h : Entry.EveryOf entryOk columnsOk es)
    (hrest : Entry.EveryOf entryOk columnsOk rest) :
    Entry.EveryOf entryOk columnsOk (es ++ rest) := by
  induction es with
  | nil => exact hrest
  | cons e es ih => exact ⟨h.1, ih h.2⟩

theorem Checker.everyOf_iff {cs : List Checker} : Checker.EveryOf entryOk columnsOk cs ↔
    ∀ c ∈ cs, c.Every entryOk columnsOk := by
  induction cs with
  | nil => exact ⟨fun _ => List.forall_mem_nil _, fun _ => trivial⟩
  | cons c cs ih => rw [Checker.EveryOf, ih, List.forall_mem_cons]

/-- The parts of choices, merged into one alternative. -/
theorem Checker.everyOf_flatMap_choiceParts {cs : List Checker}
    (h : ∀ c ∈ cs, c.Every entryOk columnsOk) :
    Checker.EveryOf entryOk columnsOk (cs.flatMap Checker.choiceParts) := by
  refine Checker.everyOf_iff.mpr fun part hpart => ?_
  obtain ⟨c, hc, hpart⟩ := List.mem_flatMap.mp hpart
  have hc := h c hc
  unfold Checker.choiceParts at hpart
  split at hpart
  · exact Checker.everyOf_iff.mp hc.1 part hpart
  · exact List.mem_singleton.mp hpart ▸ hc

variable (entry : ∀ e, entryOk e → entryOk' e → entryOk'' e)
  (columns : ∀ regions, columnsOk regions → columnsOk' regions → columnsOk'' regions)
include entry columns

set_option linter.unusedSectionVars false in
mutual

/-- What two conditions together imply of entries and of columns, they imply of a grammar. -/
theorem Grammar.Every.combine : ∀ {g : Grammar}, g.Every entryOk columnsOk →
    g.Every entryOk' columnsOk' → g.Every entryOk'' columnsOk''
  | ⟨_⟩, h, h' => Entry.EveryOf.combine h h'

theorem Grammar.EveryIn.combine : ∀ {g : Option Grammar}, Grammar.EveryIn entryOk columnsOk g →
    Grammar.EveryIn entryOk' columnsOk' g → Grammar.EveryIn entryOk'' columnsOk'' g
  | none, _, _ => trivial
  | some _, h, h' => Grammar.Every.combine h h'

theorem Entry.EveryOf.combine : ∀ {es : List Entry}, Entry.EveryOf entryOk columnsOk es →
    Entry.EveryOf entryOk' columnsOk' es → Entry.EveryOf entryOk'' columnsOk'' es
  | [], _, _ => trivial
  | _ :: _, h, h' => ⟨Entry.Every.combine h.1 h'.1, Entry.EveryOf.combine h.2 h'.2⟩

theorem Entry.Every.combine : ∀ {e : Entry}, e.Every entryOk columnsOk →
    e.Every entryOk' columnsOk' → e.Every entryOk'' columnsOk''
  | ⟨_, _, _, _⟩, h, h' =>
    ⟨entry _ h.1 h'.1, Target.Every.combine h.2.1 h'.2.1, Grammar.EveryIn.combine h.2.2 h'.2.2⟩

theorem Target.Every.combine : ∀ {t : Target}, t.Every entryOk columnsOk →
    t.Every entryOk' columnsOk' → t.Every entryOk'' columnsOk''
  | .checker _, h, h' => Checker.Every.combine h h'
  | .ref _, _, _ => trivial
  | .type _, h, h' => ParserType.Every.combine h h'

theorem Checker.Every.combine : ∀ {c : Checker}, c.Every entryOk columnsOk →
    c.Every entryOk' columnsOk' → c.Every entryOk'' columnsOk''
  | .char _, _, _ | .word _, _, _ | .any _, _, _ => trivial
  | .oneOf _ _, h, h' => ⟨Checker.EveryOf.combine h.1 h'.1, Checker.EveryIn.combine h.2 h'.2⟩
  | .not item, h, h' => Checker.Every.combine (c := item) h h'
  | .fixed _, h, h' => ⟨columns _ h.1 h'.1, Region.EveryOf.combine h.2 h'.2⟩
  | .grammar g, h, h' => Grammar.Every.combine (g := g) h h'

theorem Checker.EveryOf.combine : ∀ {cs : List Checker}, Checker.EveryOf entryOk columnsOk cs →
    Checker.EveryOf entryOk' columnsOk' cs → Checker.EveryOf entryOk'' columnsOk'' cs
  | [], _, _ => trivial
  | _ :: _, h, h' => ⟨Checker.Every.combine h.1 h'.1, Checker.EveryOf.combine h.2 h'.2⟩

theorem Checker.EveryIn.combine : ∀ {c : Option Checker}, Checker.EveryIn entryOk columnsOk c →
    Checker.EveryIn entryOk' columnsOk' c → Checker.EveryIn entryOk'' columnsOk'' c
  | none, _, _ => trivial
  | some c, h, h' => Checker.Every.combine (c := c) h h'

theorem Region.EveryOf.combine : ∀ {rs : List Region}, Region.EveryOf entryOk columnsOk rs →
    Region.EveryOf entryOk' columnsOk' rs → Region.EveryOf entryOk'' columnsOk'' rs
  | [], _, _ => trivial
  | ⟨_, _, _⟩ :: _, h, h' =>
    ⟨Grammar.EveryIn.combine h.1 h'.1, Region.EveryOf.combine h.2 h'.2⟩

theorem ParserType.Every.combine : ∀ {t : ParserType}, t.Every entryOk columnsOk →
    t.Every entryOk' columnsOk' → t.Every entryOk'' columnsOk''
  | .computed _ _ _ _ _, h, h' => fun vocabulary host param =>
    Checker.EveryGiven.combine (h vocabulary host param) (h' vocabulary host param)
  | .pattern _ _ _, _, _ => trivial

theorem Checker.EveryGiven.combine : ∀ {c : Except GrammarError Checker},
    Checker.EveryGiven entryOk columnsOk c → Checker.EveryGiven entryOk' columnsOk' c →
      Checker.EveryGiven entryOk'' columnsOk'' c
  | .ok c, h, h' => Checker.Every.combine (c := c) h h'
  | .error _, _, _ => trivial

end

end

/-! ## Conditions on entries -/

/-- The entry matches with a checker of its own, not with a type. -/
def Entry.HasChecker (entry : Entry) : Prop := ∃ c, entry.target = .checker c

/-- What the entry matched stands as it is. -/
def Entry.HasNoSecond (entry : Entry) : Prop := entry.secondary = none

/-- Columns that the constructor of records lets through: there is one, and only the last may be
without a width. -/
def Region.AreColumns (regions : List Region) : Prop :=
  Checker.fixed? regions = .ok (.fixed regions)

/-- Neither types nor classes of characters. -/
def TypeEnv.bare : TypeEnv := ⟨fun _ => none, ⟨fun _ => none⟩, fun _ => none⟩

/-! ## Conditions on grammars -/

/-- All records in the grammar are built by their constructor. -/
def Grammar.Built (g : Grammar) : Prop := g.Every (fun _ => True) Region.AreColumns

/-- No entry in the grammar matches with a type. -/
def Grammar.Untyped (g : Grammar) : Prop := g.Every Entry.HasChecker fun _ => True

/-- No entry in the grammar has a secondary grammar. -/
def Grammar.Single (g : Grammar) : Prop := g.Every Entry.HasNoSecond fun _ => True

/-- Records built by their constructor, and whatever else is asked of entries. -/
theorem Grammar.Built.both {entryOk : Entry → Prop} {g : Grammar} (built : g.Built)
    (h : g.Every entryOk fun _ => True) : g.Every entryOk Region.AreColumns :=
  Grammar.Every.combine (fun _ _ he => he) (fun _ hc _ => hc) built h

theorem Entry.Every.built {entryOk : Entry → Prop} {e : Entry}
    (h : e.Every entryOk Region.AreColumns) : e.Every (fun _ => True) Region.AreColumns :=
  Entry.Every.combine (fun _ _ _ => trivial) (fun _ hc _ => hc) h h

theorem Checker.Every.built {entryOk : Entry → Prop} {c : Checker}
    (h : c.Every entryOk Region.AreColumns) : c.Every (fun _ => True) Region.AreColumns :=
  Checker.Every.combine (fun _ _ _ => trivial) (fun _ hc _ => hc) h h

end TextGrammar
