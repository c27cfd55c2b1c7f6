/-
Conditions on all checkers and entries that a grammar is written with, however
deep they lie, but not on what its types supply; and when equal expressions are
the same grammar.
-/
import TextGrammar.Grammar.Simplify

namespace TextGrammar

section

variable (checkerOk : Checker → Prop) (entryOk : Entry → Prop)

mutual

def Checker.Throughout : Checker → Prop
  | .char set => checkerOk (.char set)
  | .word word => checkerOk (.word word)
  | .oneOf choices fallback =>
    checkerOk (.oneOf choices fallback) ∧ Checker.ThroughoutAll choices ∧
      Checker.ThroughoutOption fallback
  | .any width => checkerOk (.any width)
  | .not item => checkerOk (.not item) ∧ Checker.Throughout item
  | .fixed regions => checkerOk (.fixed regions) ∧ Region.ThroughoutAll regions
  | .grammar g => checkerOk (.grammar g) ∧ Grammar.Throughout g

def Checker.ThroughoutAll : List Checker → Prop
  | [] => True
  | c :: cs => Checker.Throughout c ∧ Checker.ThroughoutAll cs

def Checker.ThroughoutOption : Option Checker → Prop
  | none => True
  | some c => Checker.Throughout c

def Region.Throughout : Region → Prop
  | ⟨_, _, g⟩ => Grammar.ThroughoutOption g

def Region.ThroughoutAll : List Region → Prop
  | [] => True
  | r :: rs => Region.Throughout r ∧ Region.ThroughoutAll rs

def Grammar.Throughout : Grammar → Prop
  | ⟨entries⟩ => Entry.ThroughoutAll entries

def Grammar.ThroughoutOption : Option Grammar → Prop
  | none => True
  | some g => Grammar.Throughout g

def Entry.ThroughoutAll : List Entry → Prop
  | [] => True
  | e :: es => Entry.Throughout e ∧ Entry.ThroughoutAll es

def Entry.Throughout : Entry → Prop
  | ⟨capture, target, q, secondary⟩ =>
    entryOk ⟨capture, target, q, secondary⟩ ∧ Target.Throughout target ∧
      Grammar.ThroughoutOption secondary

def Target.Throughout : Target → Prop
  | .checker c => Checker.Throughout c
  | .ref _ | .type _ => True

end

end

section

variable {checkerOk checkerOk' : Checker → Prop} {entryOk entryOk' : Entry → Prop}

theorem Checker.throughoutAll_iff {cs : List Checker} :
    Checker.ThroughoutAll checkerOk entryOk cs ↔ ∀ c ∈ cs, c.Throughout checkerOk entryOk := by
  induction cs with
  | nil => exact ⟨fun _ _ h => (nomatch h), fun _ => trivial⟩
  | cons c cs ih => rw [Checker.ThroughoutAll, ih, List.forall_mem_cons]

theorem Entry.throughoutAll_iff {es : List Entry} :
    Entry.ThroughoutAll checkerOk entryOk es ↔ ∀ e ∈ es, e.Throughout checkerOk entryOk := by
  induction es with
  | nil => exact ⟨fun _ _ h => (nomatch h), fun _ => trivial⟩
  | cons e es ih => rw [Entry.ThroughoutAll, ih, List.forall_mem_cons]

theorem Checker.Throughout.checker : ∀ {c : Checker}, c.Throughout checkerOk entryOk → checkerOk c
  | .char _, h | .word _, h | .any _, h => h
  | .oneOf _ _, h | .not _, h | .fixed _, h | .grammar _, h => h.1

variable (checkers : ∀ c, checkerOk c → checkerOk' c) (entries : ∀ e, entryOk e → entryOk' e)
include checkers entries

set_option linter.unusedSectionVars false in
mutual

/-- What a condition implies of checkers and entries, it implies throughout. -/
theorem Checker.Throughout.mono : ∀ {c : Checker}, c.Throughout checkerOk entryOk →
    c.Throughout checkerOk' entryOk'
  | .char _, h | .word _, h | .any _, h => checkers _ h
  | .oneOf _ _, h =>
    ⟨checkers _ h.1, Checker.ThroughoutAll.mono h.2.1, Checker.ThroughoutOption.mono h.2.2⟩
  | .not item, h => ⟨checkers _ h.1, Checker.Throughout.mono (c := item) h.2⟩
  | .fixed _, h => ⟨checkers _ h.1, Region.ThroughoutAll.mono h.2⟩
  | .grammar g, h => ⟨checkers _ h.1, Grammar.Throughout.mono (g := g) h.2⟩

theorem Checker.ThroughoutAll.mono : ∀ {cs : List Checker},
    Checker.ThroughoutAll checkerOk entryOk cs → Checker.ThroughoutAll checkerOk' entryOk' cs
  | [], _ => trivial
  | _ :: _, h => ⟨Checker.Throughout.mono h.1, Checker.ThroughoutAll.mono h.2⟩

theorem Checker.ThroughoutOption.mono : ∀ {c : Option Checker},
    Checker.ThroughoutOption checkerOk entryOk c → Checker.ThroughoutOption checkerOk' entryOk' c
  | none, _ => trivial
  | some c, h => Checker.Throughout.mono (c := c) h

theorem Region.ThroughoutAll.mono : ∀ {rs : List Region},
    Region.ThroughoutAll checkerOk entryOk rs → Region.ThroughoutAll checkerOk' entryOk' rs
  | [], _ => trivial
  | ⟨_, _, _⟩ :: _, h => ⟨Grammar.ThroughoutOption.mono h.1, Region.ThroughoutAll.mono h.2⟩

theorem Grammar.Throughout.mono : ∀ {g : Grammar}, g.Throughout checkerOk entryOk →
    g.Throughout checkerOk' entryOk'
  | ⟨_⟩, h => Entry.ThroughoutAll.mono h

theorem Grammar.ThroughoutOption.mono : ∀ {g : Option Grammar},
    Grammar.ThroughoutOption checkerOk entryOk g → Grammar.ThroughoutOption checkerOk' entryOk' g
  | none, _ => trivial
  | some g, h => Grammar.Throughout.mono (g := g) h

theorem Entry.ThroughoutAll.mono : ∀ {es : List Entry},
    Entry.ThroughoutAll checkerOk entryOk es → Entry.ThroughoutAll checkerOk' entryOk' es
  | [], _ => trivial
  | _ :: _, h => ⟨Entry.Throughout.mono h.1, Entry.ThroughoutAll.mono h.2⟩

theorem Entry.Throughout.mono : ∀ {e : Entry}, e.Throughout checkerOk entryOk →
    e.Throughout checkerOk' entryOk'
  | ⟨_, _, _, _⟩, h =>
    ⟨entries _ h.1, Target.Throughout.mono h.2.1, Grammar.ThroughoutOption.mono h.2.2⟩

theorem Target.Throughout.mono : ∀ {t : Target}, t.Throughout checkerOk entryOk →
    t.Throughout checkerOk' entryOk'
  | .checker c, h => Checker.Throughout.mono (c := c) h
  | .ref _, _ | .type _, _ => trivial

end

end

/-! ## Conditions that simplification keeps -/

/-- A condition that outlasts simplification: every set, alternative and negation meets it, since
these are what simplification builds, and simplified records, grammars and entries still do. -/
structure SimplifyKeeps (checkerOk : Checker → Prop) (entryOk : Entry → Prop) : Prop where
  char : ∀ set, checkerOk (.char set)
  oneOf : ∀ cs fallback, checkerOk (.oneOf cs fallback)
  not : ∀ item, checkerOk (.not item)
  fixed : ∀ regions, checkerOk (.fixed regions) → checkerOk (.fixed (Region.simplifyAll regions))
  grammar : ∀ g, checkerOk (.grammar g) → checkerOk (.grammar g.simplify)
  entry : ∀ e, entryOk e → entryOk e.simplify

theorem Checker.mem_of_mem_keepLast {c : Checker} {cs : List Checker} (h : c ∈ keepLast cs) :
    c ∈ cs := by
  induction cs with
  | nil => cases h
  | cons d ds ih =>
    rw [keepLast] at h
    split at h
    · exact List.mem_cons_of_mem d (ih h)
    · rcases List.mem_cons.mp h with rfl | h
      · exact List.mem_cons_self
      · exact List.mem_cons_of_mem d (ih h)

section

variable {checkerOk : Checker → Prop} {entryOk : Entry → Prop}
  (keeps : SimplifyKeeps checkerOk entryOk)
include keeps

theorem Checker.Throughout.alternative {cs : List Checker}
    (h : ∀ c ∈ cs, c.Throughout checkerOk entryOk) {fallback : Option Checker}
    (hfallback : ThroughoutOption checkerOk entryOk fallback) :
    (Checker.oneOf (cs.flatMap choiceParts) fallback).Throughout checkerOk entryOk := by
  refine ⟨keeps.oneOf _ _, throughoutAll_iff.mpr fun part hpart => ?_, hfallback⟩
  obtain ⟨c, hc, hpart⟩ := List.mem_flatMap.mp hpart
  have hc := h c hc
  unfold choiceParts at hpart
  split at hpart
  · exact throughoutAll_iff.mp hc.2.1 part hpart
  · exact List.mem_singleton.mp hpart ▸ hc

theorem Checker.Throughout.chooseSimple {cs : List Checker}
    (h : ∀ c ∈ cs, c.Throughout checkerOk entryOk) {fallback : Option Checker}
    (hfallback : ThroughoutOption checkerOk entryOk fallback) :
    (Checker.chooseSimple cs fallback).Throughout checkerOk entryOk := by
  have hkept : ∀ c ∈ keepLast cs, c.Throughout checkerOk entryOk :=
    fun c hc => h c (mem_of_mem_keepLast hc)
  unfold Checker.chooseSimple
  split
  · next c hkeep => exact hkept c (hkeep ▸ List.mem_cons_self)
  · exact hfallback
  · exact .alternative keeps hkept hfallback
  · exact .alternative keeps hkept hfallback

set_option linter.unusedSectionVars false in
mutual

/-- What simplification keeps of checkers and entries, it keeps throughout. -/
theorem Checker.Throughout.simplify : ∀ {c : Checker}, c.Throughout checkerOk entryOk →
    c.simplify.Throughout checkerOk entryOk
  | .char _, _ | .word ⟨_, []⟩, _ => keeps.char _
  | .word ⟨_, _ :: _⟩, h | .any _, h => h
  | .oneOf _ _, h =>
    .chooseSimple keeps (Checker.throughoutAll_iff.mp (Checker.ThroughoutAll.simplify h.2.1))
      (Checker.ThroughoutOption.simplify h.2.2)
  | .not (.not item), h => Checker.Throughout.simplify (c := item) h.2.2
  | .not (.char _), _ | .not (.word ⟨_, []⟩), _ => ⟨keeps.not _, keeps.char _⟩
  | .not (.word ⟨_, _ :: _⟩), h | .not (.any _), h => h
  | .not (.oneOf _ _), h => ⟨keeps.not _, Checker.Throughout.simplify h.2⟩
  | .not (.fixed _), h =>
    ⟨keeps.not _, keeps.fixed _ h.2.1, Region.ThroughoutAll.simplify h.2.2⟩
  | .not (.grammar g), h =>
    ⟨keeps.not _, keeps.grammar _ h.2.1, Grammar.Throughout.simplify (g := g) h.2.2⟩
  | .fixed _, h => ⟨keeps.fixed _ h.1, Region.ThroughoutAll.simplify h.2⟩
  | .grammar g, h => ⟨keeps.grammar _ h.1, Grammar.Throughout.simplify (g := g) h.2⟩

theorem Checker.ThroughoutAll.simplify : ∀ {cs : List Checker},
    Checker.ThroughoutAll checkerOk entryOk cs →
      Checker.ThroughoutAll checkerOk entryOk (Checker.simplifyAll cs)
  | [], _ => trivial
  | _ :: _, h => ⟨Checker.Throughout.simplify h.1, Checker.ThroughoutAll.simplify h.2⟩

theorem Checker.ThroughoutOption.simplify : ∀ {c : Option Checker},
    Checker.ThroughoutOption checkerOk entryOk c →
      Checker.ThroughoutOption checkerOk entryOk (Checker.simplifyOption c)
  | none, _ => trivial
  | some c, h => Checker.Throughout.simplify (c := c) h

theorem Region.ThroughoutAll.simplify : ∀ {rs : List Region},
    Region.ThroughoutAll checkerOk entryOk rs →
      Region.ThroughoutAll checkerOk entryOk (Region.simplifyAll rs)
  | [], _ => trivial
  | ⟨_, _, _⟩ :: _, h => ⟨Grammar.ThroughoutOption.simplify h.1, Region.ThroughoutAll.simplify h.2⟩

theorem Grammar.Throughout.simplify : ∀ {g : Grammar}, g.Throughout checkerOk entryOk →
    g.simplify.Throughout checkerOk entryOk
  | ⟨_⟩, h => Entry.ThroughoutAll.simplify h

theorem Grammar.ThroughoutOption.simplify : ∀ {g : Option Grammar},
    Grammar.ThroughoutOption checkerOk entryOk g →
      Grammar.ThroughoutOption checkerOk entryOk (Grammar.simplifyOption g)
  | none, _ => trivial
  | some g, h => Grammar.Throughout.simplify (g := g) h

theorem Entry.ThroughoutAll.simplify : ∀ {es : List Entry},
    Entry.ThroughoutAll checkerOk entryOk es →
      Entry.ThroughoutAll checkerOk entryOk (Entry.simplifyAll es)
  | [], _ => trivial
  | ⟨_, .checker c, _, _⟩ :: _, h =>
    ⟨⟨keeps.entry _ h.1.1, Checker.Throughout.simplify (c := c) h.1.2.1,
      Grammar.ThroughoutOption.simplify h.1.2.2⟩, Entry.ThroughoutAll.simplify h.2⟩
  | ⟨_, .ref _, _, _⟩ :: _, h | ⟨_, .type _, _, _⟩ :: _, h =>
    ⟨⟨keeps.entry _ h.1.1, trivial, Grammar.ThroughoutOption.simplify h.1.2.2⟩,
      Entry.ThroughoutAll.simplify h.2⟩

end

end

/-! ## Types held by a grammar -/

/-- A type that the entry itself holds is the one that goes by its name. -/
def Entry.HoldsByName (types : String → ParserType) (entry : Entry) : Prop :=
  ∀ t, entry.target = .type t → types t.name = t

section

variable {types : String → ParserType}

theorem Entry.holdsByName_simplify : SimplifyKeeps (fun _ => True) (Entry.HoldsByName types) where
  char _ := trivial
  oneOf _ _ := trivial
  not _ := trivial
  fixed _ _ := trivial
  grammar _ _ := trivial
  entry e h := by
    obtain ⟨capture, target, q, secondary⟩ := e
    cases target with
    | checker c => exact fun _ ht => nomatch ht
    | ref r => exact fun _ ht => nomatch ht
    | type t => exact h

mutual

/-- Where names tell the types apart, equal expressions are the same. -/
theorem Checker.eq_of_same : ∀ {a b : Checker},
    a.Throughout (fun _ => True) (Entry.HoldsByName types) →
      b.Throughout (fun _ => True) (Entry.HoldsByName types) → Checker.same a b = true → a = b
  | .char _, b, _, _, h => by
    cases b <;> first | exact congrArg Checker.char (beq_iff_eq.mp h) | cases h
  | .word _, b, _, _, h => by
    cases b <;> first | exact congrArg Checker.word (beq_iff_eq.mp h) | cases h
  | .oneOf _ _, b, ha, hb, h => by
    cases b
    case oneOf =>
      rw [Checker.same, Bool.and_eq_true] at h
      rw [Checker.eq_of_sameAll ha.2.1 hb.2.1 h.1, Checker.eq_of_sameOption ha.2.2 hb.2.2 h.2]
    all_goals cases h
  | .any _, b, _, _, h => by
    cases b <;> first | exact congrArg Checker.any (beq_iff_eq.mp h) | cases h
  | .not _, b, ha, hb, h => by
    cases b
    case not => exact congrArg Checker.not (Checker.eq_of_same ha.2 hb.2 h)
    all_goals cases h
  | .fixed _, b, ha, hb, h => by
    cases b
    case fixed => exact congrArg Checker.fixed (Region.eq_of_sameAll ha.2 hb.2 h)
    all_goals cases h
  | .grammar _, b, ha, hb, h => by
    cases b
    case grammar => exact congrArg Checker.grammar (Grammar.eq_of_same ha.2 hb.2 h)
    all_goals cases h

theorem Checker.eq_of_sameAll : ∀ {as bs : List Checker},
    Checker.ThroughoutAll (fun _ => True) (Entry.HoldsByName types) as →
      Checker.ThroughoutAll (fun _ => True) (Entry.HoldsByName types) bs →
        Checker.sameAll as bs = true → as = bs
  | [], [], _, _, _ => rfl
  | _ :: _, _ :: _, ha, hb, h => by
    rw [Checker.sameAll, Bool.and_eq_true] at h
    rw [Checker.eq_of_same ha.1 hb.1 h.1, Checker.eq_of_sameAll ha.2 hb.2 h.2]
  | [], _ :: _, _, _, h | _ :: _, [], _, _, h => nomatch h

theorem Checker.eq_of_sameOption : ∀ {a b : Option Checker},
    Checker.ThroughoutOption (fun _ => True) (Entry.HoldsByName types) a →
      Checker.ThroughoutOption (fun _ => True) (Entry.HoldsByName types) b →
        Checker.sameOption a b = true → a = b
  | none, none, _, _, _ => rfl
  | some a, some b, ha, hb, h => congrArg some (Checker.eq_of_same (a := a) (b := b) ha hb h)
  | none, some _, _, _, h | some _, none, _, _, h => nomatch h

theorem Region.eq_of_sameAll : ∀ {as bs : List Region},
    Region.ThroughoutAll (fun _ => True) (Entry.HoldsByName types) as →
      Region.ThroughoutAll (fun _ => True) (Entry.HoldsByName types) bs →
        Region.sameAll as bs = true → as = bs
  | [], [], _, _, _ => rfl
  | ⟨_, _, _⟩ :: _, ⟨_, _, _⟩ :: _, ha, hb, h => by
    simp only [Region.sameAll, Region.same, Bool.and_eq_true, beq_iff_eq] at h
    obtain ⟨⟨⟨rfl, rfl⟩, hg⟩, hrest⟩ := h
    rw [Grammar.eq_of_sameOption ha.1 hb.1 hg, Region.eq_of_sameAll ha.2 hb.2 hrest]
  | [], _ :: _, _, _, h | _ :: _, [], _, _, h => nomatch h

theorem Grammar.eq_of_same : ∀ {a b : Grammar},
    a.Throughout (fun _ => True) (Entry.HoldsByName types) →
      b.Throughout (fun _ => True) (Entry.HoldsByName types) → Grammar.same a b = true → a = b
  | ⟨_⟩, ⟨_⟩, ha, hb, h => congrArg Grammar.mk (Entry.eq_of_sameAll ha hb h)

theorem Grammar.eq_of_sameOption : ∀ {a b : Option Grammar},
    Grammar.ThroughoutOption (fun _ => True) (Entry.HoldsByName types) a →
      Grammar.ThroughoutOption (fun _ => True) (Entry.HoldsByName types) b →
        Grammar.sameOption a b = true → a = b
  | none, none, _, _, _ => rfl
  | some a, some b, ha, hb, h => congrArg some (Grammar.eq_of_same (a := a) (b := b) ha hb h)
  | none, some _, _, _, h | some _, none, _, _, h => nomatch h

theorem Entry.eq_of_sameAll : ∀ {as bs : List Entry},
    Entry.ThroughoutAll (fun _ => True) (Entry.HoldsByName types) as →
      Entry.ThroughoutAll (fun _ => True) (Entry.HoldsByName types) bs →
        Entry.sameAll as bs = true → as = bs
  | [], [], _, _, _ => rfl
  | ⟨_, t, _, _⟩ :: _, ⟨_, t', _, _⟩ :: _, ha, hb, h => by
    simp only [Entry.sameAll, Entry.same, Bool.and_eq_true, beq_iff_eq] at h
    obtain ⟨⟨⟨⟨rfl, ht⟩, rfl⟩, hg⟩, hrest⟩ := h
    have htarget : t = t' := by
      cases t with
      | checker c =>
        cases t'
        case checker c' => exact congrArg Target.checker (Checker.eq_of_same ha.1.2.1 hb.1.2.1 ht)
        all_goals cases ht
      | ref r => cases t' <;> first | exact congrArg Target.ref (beq_iff_eq.mp ht) | cases ht
      | type t =>
        cases t'
        case type t' =>
          have hname : t.name = t'.name := beq_iff_eq.mp ht
          rw [← ha.1.1 t rfl, ← hb.1.1 t' rfl, hname]
        all_goals cases ht
    rw [htarget, Grammar.eq_of_sameOption ha.1.2.2 hb.1.2.2 hg,
      Entry.eq_of_sameAll ha.2 hb.2 hrest]
  | [], _ :: _, _, _, h | _ :: _, [], _, _, h => nomatch h

end

end

end TextGrammar
