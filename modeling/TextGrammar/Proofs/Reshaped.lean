/-
Grammars of one shape. To reshape a grammar is to give its entries other names
and to ask for other repeats of them, however deep they lie. It leaves what is
matched, so it keeps what the entries and the columns of a grammar are like; and
if the repeats leave as much choice as before, so do all parts of the grammar.
-/
import TextGrammar.Proofs.Parts
import TextGrammar.Proofs.Throughout

namespace TextGrammar

section

variable (capture : Option Capture → Option Capture) (quantifier : Quantifier → Quantifier)

mutual

def Grammar.reshaped : Grammar → Grammar
  | ⟨entries⟩ => ⟨Entry.reshapedAll entries⟩

def Grammar.reshapedOption : Option Grammar → Option Grammar
  | none => none
  | some g => some (Grammar.reshaped g)

def Entry.reshapedAll : List Entry → List Entry
  | [] => []
  | e :: es => Entry.reshaped e :: Entry.reshapedAll es

def Entry.reshaped : Entry → Entry
  | ⟨name, target, q, second⟩ =>
    ⟨capture name, Target.reshaped target, quantifier q, Grammar.reshapedOption second⟩

def Target.reshaped : Target → Target
  | .checker c => .checker (Checker.reshaped c)
  | .ref r => .ref r
  | .type t => .type t

def Checker.reshaped : Checker → Checker
  | .char set => .char set
  | .word w => .word w
  | .any width => .any width
  | .oneOf choices fallback =>
    .oneOf (Checker.reshapedAll choices) (Checker.reshapedOption fallback)
  | .not item => .not (Checker.reshaped item)
  | .fixed regions => .fixed (Region.reshapedAll regions)
  | .grammar g => .grammar (Grammar.reshaped g)

def Checker.reshapedAll : List Checker → List Checker
  | [] => []
  | c :: cs => Checker.reshaped c :: Checker.reshapedAll cs

def Checker.reshapedOption : Option Checker → Option Checker
  | none => none
  | some c => some (Checker.reshaped c)

def Region.reshaped : Region → Region
  | ⟨name, width, g⟩ => ⟨name, width, Grammar.reshapedOption g⟩

def Region.reshapedAll : List Region → List Region
  | [] => []
  | r :: rs => Region.reshaped r :: Region.reshapedAll rs

end

end

variable {capture : Option Capture → Option Capture} {quantifier : Quantifier → Quantifier}

/-! ## Columns -/

/-- Reshaping says nothing of where columns start and stop. -/
theorem Region.widths_reshapedAll (regions : List Region) :
    (Region.reshapedAll capture quantifier regions).map Region.width =
      regions.map Region.width := by
  induction regions with
  | nil => rfl
  | cons r rs ih =>
    obtain ⟨name, width, g⟩ := r
    rw [Region.reshapedAll, List.map_cons, List.map_cons, ih, Region.reshaped]

theorem Region.areColumns_of_widths {rs rs' : List Region}
    (h : rs'.map Region.width = rs.map Region.width) (columns : Region.AreColumns rs) :
    Region.AreColumns rs' := by
  have hempty : rs'.isEmpty = rs.isEmpty := by
    rw [← List.isEmpty_map (f := Region.width), h, List.isEmpty_map]
  have hany : rs'.dropLast.any (·.width.isNone) = rs.dropLast.any (·.width.isNone) := by
    have hmap (l : List Region) :
        l.dropLast.any (·.width.isNone) = (l.map Region.width).dropLast.any Option.isNone := by
      rw [← List.map_dropLast, List.any_map]
      rfl
    rw [hmap, hmap, h]
  simp only [Region.AreColumns, Checker.fixed?] at columns ⊢
  rw [hempty, hany]
  split at columns
  · cases columns
  · next hne =>
    rw [if_neg hne]
    split at columns
    · cases columns
    · next hlast => rw [if_neg hlast]

theorem Region.areColumns_reshapedAll {regions : List Region} :
    Region.AreColumns (Region.reshapedAll capture quantifier regions) ↔ Region.AreColumns regions :=
  ⟨Region.areColumns_of_widths (Region.widths_reshapedAll regions).symm,
    Region.areColumns_of_widths (Region.widths_reshapedAll regions)⟩

/-! ## Conditions on parts -/

section

variable {entryOk : Entry → Prop} {columnsOk : List Region → Prop}
  (entry : ∀ e : Entry, entryOk (e.reshaped capture quantifier) ↔ entryOk e)
  (columns : ∀ rs, columnsOk (Region.reshapedAll capture quantifier rs) ↔ columnsOk rs)
include entry columns

set_option linter.unusedSectionVars false in
mutual

/-- What does not tell reshaped entries and columns from others holds of all in the reshaped grammar
when it holds of all in the grammar. -/
theorem Grammar.every_reshaped : ∀ {g : Grammar},
    (g.reshaped capture quantifier).Every entryOk columnsOk ↔ g.Every entryOk columnsOk
  | ⟨_⟩ => Entry.everyOf_reshapedAll

theorem Grammar.everyIn_reshapedOption : ∀ {g : Option Grammar},
    Grammar.EveryIn entryOk columnsOk (Grammar.reshapedOption capture quantifier g) ↔
      Grammar.EveryIn entryOk columnsOk g
  | none => Iff.rfl
  | some _ => Grammar.every_reshaped

theorem Entry.everyOf_reshapedAll : ∀ {es : List Entry},
    Entry.EveryOf entryOk columnsOk (Entry.reshapedAll capture quantifier es) ↔
      Entry.EveryOf entryOk columnsOk es
  | [] => Iff.rfl
  | _ :: _ => and_congr Entry.every_reshaped Entry.everyOf_reshapedAll

theorem Entry.every_reshaped : ∀ {e : Entry},
    (e.reshaped capture quantifier).Every entryOk columnsOk ↔ e.Every entryOk columnsOk
  | ⟨name, target, q, second⟩ => and_congr (entry ⟨name, target, q, second⟩)
    (and_congr Target.every_reshaped Grammar.everyIn_reshapedOption)

theorem Target.every_reshaped : ∀ {t : Target},
    (t.reshaped capture quantifier).Every entryOk columnsOk ↔ t.Every entryOk columnsOk
  | .checker _ => Checker.every_reshaped
  | .ref _ | .type _ => Iff.rfl

theorem Checker.every_reshaped : ∀ {c : Checker},
    (c.reshaped capture quantifier).Every entryOk columnsOk ↔ c.Every entryOk columnsOk
  | .char _ | .word _ | .any _ => Iff.rfl
  | .oneOf _ _ => and_congr Checker.everyOf_reshapedAll Checker.everyIn_reshapedOption
  | .not item => Checker.every_reshaped (c := item)
  | .fixed _ => and_congr (columns _) Region.everyOf_reshapedAll
  | .grammar g => Grammar.every_reshaped (g := g)

theorem Checker.everyOf_reshapedAll : ∀ {cs : List Checker},
    Checker.EveryOf entryOk columnsOk (Checker.reshapedAll capture quantifier cs) ↔
      Checker.EveryOf entryOk columnsOk cs
  | [] => Iff.rfl
  | _ :: _ => and_congr Checker.every_reshaped Checker.everyOf_reshapedAll

theorem Checker.everyIn_reshapedOption : ∀ {c : Option Checker},
    Checker.EveryIn entryOk columnsOk (Checker.reshapedOption capture quantifier c) ↔
      Checker.EveryIn entryOk columnsOk c
  | none => Iff.rfl
  | some c => Checker.every_reshaped (c := c)

theorem Region.everyOf_reshapedAll : ∀ {rs : List Region},
    Region.EveryOf entryOk columnsOk (Region.reshapedAll capture quantifier rs) ↔
      Region.EveryOf entryOk columnsOk rs
  | [] => Iff.rfl
  | ⟨_, _, _⟩ :: _ => and_congr Grammar.everyIn_reshapedOption Region.everyOf_reshapedAll

end

end

theorem Entry.hasChecker_reshaped : ∀ {e : Entry},
    (e.reshaped capture quantifier).HasChecker ↔ e.HasChecker
  | ⟨_, .checker c, _, _⟩ => ⟨fun _ => ⟨c, rfl⟩, fun _ => ⟨_, rfl⟩⟩
  | ⟨_, .ref _, _, _⟩ | ⟨_, .type _, _, _⟩ =>
    ⟨fun ⟨_, h⟩ => (nomatch h), fun ⟨_, h⟩ => (nomatch h)⟩

theorem Grammar.untyped_reshaped {g : Grammar} :
    (g.reshaped capture quantifier).Untyped ↔ g.Untyped :=
  every_reshaped (fun _ => Entry.hasChecker_reshaped) fun _ => Iff.rfl

theorem Grammar.built_reshaped {g : Grammar} :
    (g.reshaped capture quantifier).Built ↔ g.Built :=
  every_reshaped (fun _ => Iff.rfl) fun _ => Region.areColumns_reshapedAll

/-! ## Determinism -/

section

variable (zero : ∀ q, (quantifier q).isZero = q.isZero)
  (determinism : ∀ q, (quantifier q).isDeterministic = q.isDeterministic)
include zero determinism

set_option linter.unusedSectionVars false in
mutual

/-- Repeats that leave the same choices leave them to all that they are repeats of. -/
theorem Checker.isDeterministic_reshaped : ∀ c : Checker,
    (c.reshaped capture quantifier).isDeterministic = c.isDeterministic
  | .char _ | .word _ | .any _ => rfl
  | .oneOf choices fallback => by
    simp only [Checker.reshaped, Checker.isDeterministic,
      Checker.allDeterministic_reshapedAll choices,
      Checker.optionDeterministic_reshapedOption fallback]
  | .not item => by
    simp only [Checker.reshaped, Checker.isDeterministic, Checker.isDeterministic_reshaped item]
  | .fixed regions => Region.allDeterministic_reshapedAll regions
  | .grammar g => Grammar.isDeterministic_reshaped g

theorem Checker.allDeterministic_reshapedAll : ∀ cs : List Checker,
    Checker.allDeterministic (Checker.reshapedAll capture quantifier cs) =
      Checker.allDeterministic cs
  | [] => rfl
  | c :: cs => by
    simp only [Checker.reshapedAll, Checker.allDeterministic, Checker.isDeterministic_reshaped c,
      Checker.allDeterministic_reshapedAll cs]

theorem Checker.optionDeterministic_reshapedOption : ∀ c : Option Checker,
    Checker.optionDeterministic (Checker.reshapedOption capture quantifier c) =
      Checker.optionDeterministic c
  | none => rfl
  | some c => Checker.isDeterministic_reshaped c

theorem Region.allDeterministic_reshapedAll : ∀ rs : List Region,
    Region.allDeterministic (Region.reshapedAll capture quantifier rs) = Region.allDeterministic rs
  | [] => rfl
  | ⟨_, _, g⟩ :: rs => by
    simp only [Region.reshapedAll, Region.reshaped, Region.allDeterministic,
      Region.isDeterministic, Grammar.optionDeterministic_reshapedOption g,
      Region.allDeterministic_reshapedAll rs]

theorem Grammar.isDeterministic_reshaped : ∀ g : Grammar,
    (g.reshaped capture quantifier).isDeterministic = g.isDeterministic
  | ⟨entries⟩ => Entry.allDeterministic_reshapedAll entries

theorem Grammar.optionDeterministic_reshapedOption : ∀ g : Option Grammar,
    Grammar.optionDeterministic (Grammar.reshapedOption capture quantifier g) =
      Grammar.optionDeterministic g
  | none => rfl
  | some g => Grammar.isDeterministic_reshaped g

theorem Entry.allDeterministic_reshapedAll : ∀ es : List Entry,
    Entry.allDeterministic (Entry.reshapedAll capture quantifier es) = Entry.allDeterministic es
  | [] => rfl
  | ⟨name, target, q, second⟩ :: es => by
    simp only [Entry.reshapedAll, Entry.reshaped, Entry.allDeterministic, Entry.isDeterministic,
      zero, determinism, Target.isDeterministic_reshaped target,
      Grammar.optionDeterministic_reshapedOption second, Entry.allDeterministic_reshapedAll es]

theorem Target.isDeterministic_reshaped : ∀ t : Target,
    (t.reshaped capture quantifier).isDeterministic = t.isDeterministic
  | .checker c => Checker.isDeterministic_reshaped c
  | .ref _ | .type _ => rfl

end

end

/-! ## Conditions throughout -/

section

variable {checkerOk : Checker → Prop} {entryOk : Entry → Prop}
  (checkers : ∀ c : Checker, checkerOk (c.reshaped capture quantifier) ↔ checkerOk c)
  (entries : ∀ e : Entry, entryOk (e.reshaped capture quantifier) ↔ entryOk e)
include checkers entries

set_option linter.unusedSectionVars false in
mutual

/-- What does not tell reshaped checkers and entries from others holds throughout the reshaped
grammar when it holds throughout the grammar. -/
theorem Checker.throughout_reshaped : ∀ {c : Checker},
    (c.reshaped capture quantifier).Throughout checkerOk entryOk ↔ c.Throughout checkerOk entryOk
  | .char set => checkers (.char set)
  | .word word => checkers (.word word)
  | .any width => checkers (.any width)
  | .oneOf choices fallback => and_congr (checkers (.oneOf choices fallback))
    (and_congr Checker.throughoutAll_reshapedAll Checker.throughoutOption_reshapedOption)
  | .not item => and_congr (checkers (.not item)) (Checker.throughout_reshaped (c := item))
  | .fixed regions => and_congr (checkers (.fixed regions)) Region.throughoutAll_reshapedAll
  | .grammar g => and_congr (checkers (.grammar g)) (Grammar.throughout_reshaped (g := g))

theorem Checker.throughoutAll_reshapedAll : ∀ {cs : List Checker},
    Checker.ThroughoutAll checkerOk entryOk (Checker.reshapedAll capture quantifier cs) ↔
      Checker.ThroughoutAll checkerOk entryOk cs
  | [] => Iff.rfl
  | _ :: _ => and_congr Checker.throughout_reshaped Checker.throughoutAll_reshapedAll

theorem Checker.throughoutOption_reshapedOption : ∀ {c : Option Checker},
    Checker.ThroughoutOption checkerOk entryOk (Checker.reshapedOption capture quantifier c) ↔
      Checker.ThroughoutOption checkerOk entryOk c
  | none => Iff.rfl
  | some c => Checker.throughout_reshaped (c := c)

theorem Region.throughoutAll_reshapedAll : ∀ {rs : List Region},
    Region.ThroughoutAll checkerOk entryOk (Region.reshapedAll capture quantifier rs) ↔
      Region.ThroughoutAll checkerOk entryOk rs
  | [] => Iff.rfl
  | ⟨_, _, _⟩ :: _ =>
    and_congr Grammar.throughoutOption_reshapedOption Region.throughoutAll_reshapedAll

theorem Grammar.throughout_reshaped : ∀ {g : Grammar},
    (g.reshaped capture quantifier).Throughout checkerOk entryOk ↔ g.Throughout checkerOk entryOk
  | ⟨_⟩ => Entry.throughoutAll_reshapedAll

theorem Grammar.throughoutOption_reshapedOption : ∀ {g : Option Grammar},
    Grammar.ThroughoutOption checkerOk entryOk (Grammar.reshapedOption capture quantifier g) ↔
      Grammar.ThroughoutOption checkerOk entryOk g
  | none => Iff.rfl
  | some _ => Grammar.throughout_reshaped

theorem Entry.throughoutAll_reshapedAll : ∀ {es : List Entry},
    Entry.ThroughoutAll checkerOk entryOk (Entry.reshapedAll capture quantifier es) ↔
      Entry.ThroughoutAll checkerOk entryOk es
  | [] => Iff.rfl
  | _ :: _ => and_congr Entry.throughout_reshaped Entry.throughoutAll_reshapedAll

theorem Entry.throughout_reshaped : ∀ {e : Entry},
    (e.reshaped capture quantifier).Throughout checkerOk entryOk ↔ e.Throughout checkerOk entryOk
  | ⟨name, target, q, second⟩ => and_congr (entries ⟨name, target, q, second⟩)
    (and_congr Target.throughout_reshaped Grammar.throughoutOption_reshapedOption)

theorem Target.throughout_reshaped : ∀ {t : Target},
    (t.reshaped capture quantifier).Throughout checkerOk entryOk ↔ t.Throughout checkerOk entryOk
  | .checker _ => Checker.throughout_reshaped
  | .ref _ | .type _ => Iff.rfl

end

end

end TextGrammar
