/-
Grammars that differ only in whether an entry takes as many or as few repeats as
possible. Levelling a grammar makes all such entries, however deep they lie, take
as many as possible; so two grammars have the same levelled form exactly when
one comes from the other by exchanging the two choices at some of its entries.
As a change of repeats that leave as much choice as before, levelling keeps what
the entries and the columns of a grammar are like, and whether its parts leave a
choice.
-/
import TextGrammar.Proofs.Reshaped

namespace TextGrammar

/-- As many repeats as possible where it was as few as possible. -/
def Quantifier.levelled (q : Quantifier) : Quantifier :=
  match q.greediness with
  | .minimum => q.withGreediness .maximum
  | _ => q

mutual

def Grammar.levelled : Grammar → Grammar
  | ⟨entries⟩ => ⟨Entry.levelledAll entries⟩

def Grammar.levelledOption : Option Grammar → Option Grammar
  | none => none
  | some g => some (Grammar.levelled g)

def Entry.levelledAll : List Entry → List Entry
  | [] => []
  | e :: es => Entry.levelled e :: Entry.levelledAll es

def Entry.levelled : Entry → Entry
  | ⟨capture, target, q, second⟩ =>
    ⟨capture, Target.levelled target, q.levelled, Grammar.levelledOption second⟩

def Target.levelled : Target → Target
  | .checker c => .checker (Checker.levelled c)
  | .ref r => .ref r
  | .type t => .type t

def Checker.levelled : Checker → Checker
  | .char set => .char set
  | .word w => .word w
  | .any width => .any width
  | .oneOf choices fallback =>
    .oneOf (Checker.levelledAll choices) (Checker.levelledOption fallback)
  | .not item => .not (Checker.levelled item)
  | .fixed regions => .fixed (Region.levelledAll regions)
  | .grammar g => .grammar (Grammar.levelled g)

def Checker.levelledAll : List Checker → List Checker
  | [] => []
  | c :: cs => Checker.levelled c :: Checker.levelledAll cs

def Checker.levelledOption : Option Checker → Option Checker
  | none => none
  | some c => some (Checker.levelled c)

def Region.levelled : Region → Region
  | ⟨name, width, g⟩ => ⟨name, width, Grammar.levelledOption g⟩

def Region.levelledAll : List Region → List Region
  | [] => []
  | r :: rs => Region.levelled r :: Region.levelledAll rs

end

/-! ## Quantifiers -/

namespace Quantifier

variable (q : Quantifier)

@[simp] theorem levelled_lower : q.levelled.lower = q.lower := by
  unfold levelled
  split <;> rfl

@[simp] theorem levelled_upper : q.levelled.upper = q.upper := by
  unfold levelled
  split <;> rfl

@[simp] theorem levelled_isZero : q.levelled.isZero = q.isZero := by simp [isZero]

@[simp] theorem levelled_isFull (repeats : Nat) : q.levelled.isFull repeats = q.isFull repeats := by
  simp [isFull]

theorem levelled_isPossessive :
    (q.levelled.greediness == .possessive) = (q.greediness == .possessive) := by
  obtain ⟨lower, upper, _ | _ | _⟩ := q <;> rfl

@[simp] theorem levelled_isDeterministic : q.levelled.isDeterministic = q.isDeterministic := by
  simp [isDeterministic, isFixed, levelled_isPossessive]

end Quantifier

/-! ## As a change of repeats -/

mutual

/-- To level a grammar is to reshape it, with the names left as they are. -/
theorem Grammar.levelled_eq_reshaped : ∀ g : Grammar, g.levelled = g.reshaped id Quantifier.levelled
  | ⟨entries⟩ => congrArg Grammar.mk (Entry.levelledAll_eq_reshapedAll entries)

theorem Grammar.levelledOption_eq_reshapedOption : ∀ g : Option Grammar,
    Grammar.levelledOption g = Grammar.reshapedOption id Quantifier.levelled g
  | none => rfl
  | some g => congrArg some (Grammar.levelled_eq_reshaped g)

theorem Entry.levelledAll_eq_reshapedAll : ∀ es : List Entry,
    Entry.levelledAll es = Entry.reshapedAll id Quantifier.levelled es
  | [] => rfl
  | ⟨_, target, _, second⟩ :: es => by
    simp only [Entry.levelledAll, Entry.levelled, Entry.reshapedAll, Entry.reshaped, id_eq,
      Target.levelled_eq_reshaped target, Grammar.levelledOption_eq_reshapedOption second,
      Entry.levelledAll_eq_reshapedAll es]

theorem Target.levelled_eq_reshaped : ∀ t : Target,
    t.levelled = t.reshaped id Quantifier.levelled
  | .checker c => congrArg Target.checker (Checker.levelled_eq_reshaped c)
  | .ref _ | .type _ => rfl

theorem Checker.levelled_eq_reshaped : ∀ c : Checker,
    c.levelled = c.reshaped id Quantifier.levelled
  | .char _ | .word _ | .any _ => rfl
  | .oneOf choices fallback => by
    simp only [Checker.levelled, Checker.reshaped, Checker.levelledAll_eq_reshapedAll choices,
      Checker.levelledOption_eq_reshapedOption fallback]
  | .not item => congrArg Checker.not (Checker.levelled_eq_reshaped item)
  | .fixed regions => congrArg Checker.fixed (Region.levelledAll_eq_reshapedAll regions)
  | .grammar g => congrArg Checker.grammar (Grammar.levelled_eq_reshaped g)

theorem Checker.levelledAll_eq_reshapedAll : ∀ cs : List Checker,
    Checker.levelledAll cs = Checker.reshapedAll id Quantifier.levelled cs
  | [] => rfl
  | c :: cs => by
    simp only [Checker.levelledAll, Checker.reshapedAll, Checker.levelled_eq_reshaped c,
      Checker.levelledAll_eq_reshapedAll cs]

theorem Checker.levelledOption_eq_reshapedOption : ∀ c : Option Checker,
    Checker.levelledOption c = Checker.reshapedOption id Quantifier.levelled c
  | none => rfl
  | some c => congrArg some (Checker.levelled_eq_reshaped c)

theorem Region.levelledAll_eq_reshapedAll : ∀ rs : List Region,
    Region.levelledAll rs = Region.reshapedAll id Quantifier.levelled rs
  | [] => rfl
  | ⟨_, _, g⟩ :: rs => by
    simp only [Region.levelledAll, Region.levelled, Region.reshapedAll, Region.reshaped,
      Grammar.levelledOption_eq_reshapedOption g, Region.levelledAll_eq_reshapedAll rs]

end

/-- Levelling says nothing of where columns start and stop. -/
theorem Region.widths_levelledAll (regions : List Region) :
    (Region.levelledAll regions).map Region.width = regions.map Region.width := by
  rw [Region.levelledAll_eq_reshapedAll, Region.widths_reshapedAll]

/-- Levelling leaves the same choices. -/
theorem Grammar.isDeterministic_levelled (g : Grammar) :
    g.levelled.isDeterministic = g.isDeterministic := by
  rw [levelled_eq_reshaped]
  exact isDeterministic_reshaped Quantifier.levelled_isZero Quantifier.levelled_isDeterministic g

namespace Grammar

variable {g g' : Grammar}

theorem untyped_levelled : g.levelled.Untyped ↔ g.Untyped :=
  levelled_eq_reshaped g ▸ untyped_reshaped

theorem built_levelled : g.levelled.Built ↔ g.Built :=
  levelled_eq_reshaped g ▸ built_reshaped

/-- Grammars of one levelled form have types alike. -/
theorem Untyped.of_levelled (same : g.levelled = g'.levelled) (h : g.Untyped) : g'.Untyped :=
  untyped_levelled.mp (same ▸ untyped_levelled.mpr h)

theorem Built.of_levelled (same : g.levelled = g'.levelled) (h : g.Built) : g'.Built :=
  built_levelled.mp (same ▸ built_levelled.mpr h)

end Grammar

/-! ## Choices -/

/-- A grammar that stands as a choice leaves no choice itself. -/
def Checker.IsSure : Checker → Prop
  | .grammar g => g.isDeterministic = some true
  | _ => True

/-- The choices of an alternative, and its fallback, leave no choice themselves. -/
def Checker.HasSureChoices : Checker → Prop
  | .oneOf choices fallback =>
    (∀ c ∈ choices, c.IsSure) ∧ ∀ c, fallback = some c → c.IsSure
  | _ => True

/-- All alternatives in the grammar have choices that leave none themselves. -/
def Grammar.SureChoices (g : Grammar) : Prop :=
  g.Throughout Checker.HasSureChoices fun _ => True

theorem Checker.isSure_levelled (c : Checker) : c.levelled.IsSure ↔ c.IsSure := by
  cases c with
  | grammar g =>
    simp only [Checker.levelled, Checker.IsSure, Grammar.isDeterministic_levelled]
  | _ => exact Iff.rfl

theorem Checker.levelledAll_eq_map (cs : List Checker) :
    Checker.levelledAll cs = cs.map Checker.levelled := by
  induction cs with
  | nil => rfl
  | cons c cs ih => rw [Checker.levelledAll, ih, List.map_cons]

theorem Checker.hasSureChoices_levelled (c : Checker) :
    c.levelled.HasSureChoices ↔ c.HasSureChoices := by
  cases c with
  | oneOf choices fallback =>
    simp only [Checker.levelled, Checker.HasSureChoices, Checker.levelledAll_eq_map,
      List.forall_mem_map, Checker.isSure_levelled]
    cases fallback with
    | none => simp [Checker.levelledOption]
    | some c => simp [Checker.levelledOption, Checker.isSure_levelled]
  | _ => exact Iff.rfl

theorem Grammar.SureChoices.of_levelled {g g' : Grammar} (same : g.levelled = g'.levelled)
    (h : g.SureChoices) : g'.SureChoices := by
  have hiff (g : Grammar) : g.levelled.SureChoices ↔ g.SureChoices :=
    Grammar.levelled_eq_reshaped g ▸ Grammar.throughout_reshaped
      (fun c => Checker.levelled_eq_reshaped c ▸ c.hasSureChoices_levelled) fun _ => Iff.rfl
  exact (hiff g').mp (same ▸ (hiff g).mpr h)

end TextGrammar
