/-
A search that follows another one. The first may start later, in a text of which
the second has the tail; it may know its types otherwise, or keep their checkers
otherwise. As long as types give both the same checkers, the two find the same,
but for the offsets, unless the first ends early with a fault that the second is
spared. Here this is said of single attempts, given that it holds of the searches
within them.
-/
import TextGrammar.Proofs.Shift
import TextGrammar.Proofs.States
import TextGrammar.Proofs.TiledAttempts

namespace TextGrammar

/-! ## Results that follow -/

/-- The first result follows the second: it is an early end, or both are errors or values that
belong together. -/
inductive Follows {ε α β : Type} (early : ε → Prop) (alike : ε → ε → Prop) (same : α → β → Prop) :
    Except ε α → Except ε β → Prop where
  | early {e : ε} {y : Except ε β} : early e → Follows early alike same (.error e) y
  | error {e e' : ε} : alike e e' → Follows early alike same (.error e) (.error e')
  | ok {a : α} {b : β} : same a b → Follows early alike same (.ok a) (.ok b)

namespace Follows

variable {ε α β γ δ : Type} {early : ε → Prop} {alike : ε → ε → Prop} {same same' : α → β → Prop}
  {x : Except ε α} {y : Except ε β}

theorem bind {next : γ → δ → Prop} {f : α → Except ε γ} {g : β → Except ε δ}
    (h : Follows early alike same x y)
    (hfg : ∀ a b, same a b → Follows early alike next (f a) (g b)) :
    Follows early alike next (x >>= f) (y >>= g) := by
  cases h with
  | early h => exact .early h
  | error h => exact .error h
  | ok h => exact hfg _ _ h

end Follows

/-- The search ends with such a fault. -/
def Stop.IsFault (early : Fault → Prop) : Stop → Prop
  | .fault f => early f
  | .refused _ => False

/-- A result that is the other one, with a fault of the common ones if it is a fault, or else ends
early. -/
inductive SameUnless {α : Type} (early common : Fault → Prop) :
    Except Stop α → Except Stop α → Prop where
  | early {y : Except Stop α} (f : Fault) : early f → SameUnless early common (.error (.fault f)) y
  | same {x : Except Stop α} : (∀ f, x = .error (.fault f) → common f) →
    SameUnless early common x x

theorem SameUnless.or {α : Type} {early common : Fault → Prop} {x y : Except Stop α}
    (h : SameUnless early common x y) : (∃ f, early f ∧ x = .error (.fault f)) ∨
      x = y ∧ ∀ f, x = .error (.fault f) → common f := by
  cases h with
  | early f hf => exact .inl ⟨f, hf, rfl⟩
  | same hcommon => exact .inr ⟨rfl, hcommon⟩

/-- The same end, but for the offset at which a type is not known. The faults that both searches
may end with are limited. -/
inductive Stop.Shifts (common : Fault → Prop) (n : Nat) : Stop → Stop → Prop where
  | refused (error : ParseError) : Stop.Shifts common n (.refused error) (.refused error)
  | fault (f : Fault) : common f → Stop.Shifts common n (.fault f) (.fault f)
  | unknown (name : String) (offset : Nat) : Stop.Shifts common n
    (.refused (.unknownType name (offset + n))) (.refused (.unknownType name offset))

/-- The same at other offsets, the failures included. -/
def Seen.shift {α : Type} (n : Nat) (move : α → α) (seen : Seen (Option Failure) (Option α)) :
    Seen (Option Failure) (Option α) :=
  ⟨seen.value.map move, seen.failures.map (Failure.shift n)⟩

/-! ## Types held by grammars -/

/-- The type the entry is matched with, if it holds one, is such. -/
def Entry.Holds (typeOk : ParserType → Prop) (entry : Entry) : Prop :=
  ∀ type, entry.target = .type type → typeOk type

section

variable (typeOk : ParserType → Prop)

/-- All types held by the grammar, however deep they lie, are such. -/
def Grammar.HoldsOnly (g : Grammar) : Prop := g.Every (Entry.Holds typeOk) fun _ => True

def Entry.HoldsOnly (entry : Entry) : Prop := entry.Every (Entry.Holds typeOk) fun _ => True

def Checker.HoldsOnly (c : Checker) : Prop := c.Every (Entry.Holds typeOk) fun _ => True

/-- The type and all that the checkers it gives hold are such. -/
def ParserType.HoldsOnly (type : ParserType) : Prop :=
  typeOk type ∧ type.Every (Entry.Holds typeOk) fun _ => True

end

section

variable {typeOk : ParserType → Prop}

theorem Entry.HoldsOnly.ofChecker {c : Checker} (h : Checker.HoldsOnly typeOk c) :
    Entry.HoldsOnly typeOk (.ofChecker c) :=
  ⟨fun _ ht => (nomatch ht), h, trivial⟩

theorem Entry.HoldsOnly.ref (name : String) (param : Option String) :
    Entry.HoldsOnly typeOk (.ref name param) :=
  ⟨fun _ ht => (nomatch ht), trivial, trivial⟩

/-- Neither the name nor the repeats of an entry matter. -/
theorem Entry.HoldsOnly.of_parts {e e' : Entry} (h : Entry.HoldsOnly typeOk e)
    (htarget : e'.target = e.target)
    (hsecond : e'.secondary = e.secondary) : Entry.HoldsOnly typeOk e' := by
  obtain ⟨capture, target, q, second⟩ := e
  obtain ⟨capture', target', q', second'⟩ := e'
  obtain rfl : target' = target := htarget
  obtain rfl : second' = second := hsecond
  exact h

theorem Entry.HoldsOnly.quantified {e : Entry} (h : Entry.HoldsOnly typeOk e) (q : Quantifier) :
    Entry.HoldsOnly typeOk (e.quantified q) := h.of_parts rfl rfl

theorem Entry.HoldsOnly.withSecondary {e : Entry} (h : Entry.HoldsOnly typeOk e) {g : Grammar}
    (hg : Grammar.HoldsOnly typeOk g) : Entry.HoldsOnly typeOk (e.withSecondary g) := by
  obtain ⟨capture, target, q, second⟩ := e
  exact ⟨h.1, h.2.1, hg⟩

end

/-- What is found under names, and what has been compiled, holds only such types. -/
structure TypeEnv.HoldsOnly (typeOk : ParserType → Prop) (types : TypeEnv) : Prop where
  found : ∀ name type, types.find? name = some type → type.HoldsOnly typeOk
  compiled : ∀ cell c, types.compiled? cell = some (.ok c) → c.HoldsOnly typeOk

/-- What a type gives is like what the type may give, and like what has been compiled. -/
theorem TypeEnv.every_supplied {types : TypeEnv} {entryOk : Entry → Prop}
    {columnsOk : List Region → Prop}
    (hcompiled : ∀ cell c, types.compiled? cell = some (.ok c) → c.Every entryOk columnsOk)
    {type : ParserType} (htype : type.Every entryOk columnsOk) {host : Host}
    {param : Option String} {c : Checker} (hc : types.supply host param type = .ok (.ok c)) :
    c.Every entryOk columnsOk := by
  cases type with
  | computed name hostDependent supply accepts evaluate =>
    have hgiven := htype types.vocabulary host param
    rwa [Except.ok.inj hc] at hgiven
  | pattern name text cell =>
    simp only [TypeEnv.supply] at hc
    split at hc
    · next result hresult => exact hcompiled cell c (Except.ok.inj hc ▸ hresult)
    · cases hc

/-- The types that the entry itself may be matched with are such, together with the parameters that
they are asked with. -/
def Entry.Asks (types : TypeEnv) (useOk : TypeUse → Prop) (entry : Entry) : Prop :=
  (∀ type, entry.target = .type type → useOk ⟨type, none⟩) ∧
    ∀ r type, entry.target = .ref r → types.find? r.name = some type → useOk ⟨type, r.param⟩

section

variable {typeOk typeOk' : ParserType → Prop} (hmono : ∀ type, typeOk type → typeOk' type)
include hmono

theorem Grammar.HoldsOnly.mono {g : Grammar} (h : g.HoldsOnly typeOk) : g.HoldsOnly typeOk' :=
  h.combine (fun _ he _ type ht => hmono type (he type ht)) (fun _ _ _ => trivial) h

theorem TypeEnv.HoldsOnly.mono {types : TypeEnv} (h : types.HoldsOnly typeOk) :
    types.HoldsOnly typeOk' where
  found name type hfind :=
    have hfound := h.found name type hfind
    ⟨hmono type hfound.1, hfound.2.combine (fun _ he _ type ht => hmono type (he type ht))
      (fun _ _ _ => trivial) hfound.2⟩
  compiled cell c hc :=
    have hcompiled := h.compiled cell c hc
    hcompiled.combine (fun _ he _ type ht => hmono type (he type ht)) (fun _ _ _ => trivial)
      hcompiled

end

namespace TypeEnv.HoldsOnly

variable {typeOk : ParserType → Prop} {types : TypeEnv} (h : types.HoldsOnly typeOk)
include h

theorem asks {e : Entry} (he : e.Holds typeOk) : e.Asks types fun use => typeOk use.type :=
  ⟨he, fun r type _ hfind => (h.found r.name type hfind).1⟩

theorem grammar_asks {g : Grammar} (hg : g.HoldsOnly typeOk) :
    g.Every (Entry.Asks types fun use => typeOk use.type) fun _ => True :=
  hg.combine (fun _ he _ => h.asks he) (fun _ _ _ => trivial) hg

theorem checker_asks {c : Checker} (hc : c.HoldsOnly typeOk) :
    c.Every (Entry.Asks types fun use => typeOk use.type) fun _ => True :=
  hc.combine (fun _ he _ => h.asks he) (fun _ _ _ => trivial) hc

theorem type_asks {type : ParserType} (htype : type.HoldsOnly typeOk) :
    type.Every (Entry.Asks types fun use => typeOk use.type) fun _ => True :=
  htype.2.combine (fun _ he _ => h.asks he) (fun _ _ _ => trivial) htype.2

/-- What such a type gives only asks such types. -/
theorem supplied_asks {type : ParserType} (htype : typeOk type ∧
      type.Every (Entry.Asks types fun use => typeOk use.type) fun _ => True) {host : Host}
    {param : Option String} {c : Checker} (hc : types.supply host param type = .ok (.ok c)) :
    c.Every (Entry.Asks types fun use => typeOk use.type) fun _ => True := by
  have hholds : type.HoldsOnly typeOk :=
    ⟨htype.1, htype.2.combine (fun _ he _ => he.1) (fun _ _ _ => trivial) htype.2⟩
  exact h.checker_asks (every_supplied h.compiled hholds.2 hc)

end TypeEnv.HoldsOnly

/-! ## Two ways to search -/

/-- A way to search, and another one that it is to follow. -/
structure Pairing where
  types : TypeEnv
  types' : TypeEnv
  strategy : Strategy
  strategy' : Strategy
  /-- Faults with which a search may end where the other one goes on. -/
  early : Fault → Prop
  /-- Faults with which both may end. -/
  common : Fault → Prop
  /-- How much later a search may start. -/
  late : Nat → Prop
  /-- What there may be around the two searches when the first starts so much later. -/
  around : Nat → List Trail → List Trail → Prop
  /-- What the two searches keep of checkers. -/
  kept : List ((String × Option String) × Checker) → List ((String × Option String) × Checker) →
    Prop
  /-- Types that a grammar may ask, with their parameters. -/
  useOk : TypeUse → Prop

namespace Pairing

variable (p : Pairing)

/-- The type of the entry may be asked, if it has one. -/
def Asks (entry : Entry) : Prop := entry.Asks p.types' p.useOk

abbrev GrammarOk (g : Grammar) : Prop := g.Every p.Asks fun _ => True

abbrev EntryOk (entry : Entry) : Prop := entry.Every p.Asks fun _ => True

abbrev CheckerOk (c : Checker) : Prop := c.Every p.Asks fun _ => True

/-- A type that may be asked, whose checkers only ask such types. -/
def UseOk (use : TypeUse) : Prop := p.useOk use ∧ use.type.Every p.Asks fun _ => True

/-- The surroundings of a search, and those of the search it follows. -/
structure Apart (n : Nat) (setting setting' : Setting) : Prop where
  late : p.late n
  types : setting.types = p.types
  types' : setting'.types = p.types'
  strategy : setting.strategy = p.strategy
  strategy' : setting'.strategy = p.strategy'
  text : Text.Tail n setting.text setting'.text
  outer : p.around n setting.outer setting'.outer

/-- A result of a search, or of a part of one, follows another one. -/
def Stops (n : Nat) {α β : Type} (same : α → β → Prop) : Except Stop α → Except Stop β → Prop :=
  Follows (Stop.IsFault p.early) (Stop.Shifts p.common n) same

/-- The same where only faults are left of the errors. -/
def Faults {α β : Type} (same : α → β → Prop) : Except Fault α → Except Fault β → Prop :=
  Follows p.early (fun f f' => f = f' ∧ p.common f') same

/-- A search follows another one that starts so much earlier: it finds the same. -/
def Runs (run run' : Runner (Option Failure)) : Prop :=
  ∀ (n : Nat) (setting setting' : Setting) (mode : Mode) (g : Grammar) (offset : Nat),
    p.Apart n setting setting' → p.GrammarOk g →
      p.Stops n (fun a b => a = b.shift n (Match.shift n)) (run setting mode g (offset + n))
        (run' setting' mode g offset)

/-- The searches differ in where they start and what they know of types, but not in the types they
find nor in the checkers that these give. -/
structure Shared : Prop where
  zero : p.late 0
  nothing : ∀ n, p.around n [] []
  levels : ∀ {n : Nat} {outer outer' : List Trail} (scopes : List Trail), p.around n outer outer' →
    p.around n (scopes.map (Trail.shift n) ++ outer) (scopes ++ outer')
  outOfFuel : p.common .outOfFuel
  outOfRange : p.common .outOfRange
  classes : p.types.classes = p.types'.classes
  find : p.types.find? = p.types'.find?
  found : ∀ name type, p.types'.find? name = some type → type.Every p.Asks fun _ => True
  opens : p.strategy.opens = p.strategy'.opens
  accepts : ∀ (n : Nat) (use : TypeUse), p.late n → p.UseOk use →
    ∀ (text tail : Text) (offset : Nat) (outer outer' : List Trail) (node : Node),
      Text.Tail n text tail → p.around n outer outer' →
        use.type.accepts ⟨text, offset + n, outer⟩ ⟨text, node.shift n, 0⟩ =
          use.type.accepts ⟨tail, offset, outer'⟩ ⟨tail, node, 0⟩

end Pairing

variable {p : Pairing} {n : Nat} {setting setting' : Setting} {run run' : Runner (Option Failure)}
  {offset : Nat}

/-- Goes on from a result that may be a fault. -/
def lifting {α γ : Type} (f : α → Except Stop γ) : Except Fault α → Except Stop γ
  | .ok a => f a
  | .error fault => .error (.fault fault)

theorem Pairing.Faults.lifting {α β γ δ : Type} {same : α → β → Prop} {same' : γ → δ → Prop}
    {x : Except Fault α} {y : Except Fault β} {f : α → Except Stop γ} {g : β → Except Stop δ}
    (h : p.Faults same x y) (hfg : ∀ a b, same a b → p.Stops n same' (f a) (g b)) :
    p.Stops n same' (lifting f x) (lifting g y) := by
  cases h with
  | early h => exact .early h
  | error h =>
    obtain ⟨rfl, hcommon⟩ := h
    exact .error (.fault _ hcommon)
  | ok h => exact hfg _ _ h

/-- Goes on from a result where an error of a type counts as an answer. -/
def answering {α γ : Type} (refused : γ) (f : α → γ) : Except Stop α → Except Fault γ
  | .ok a => .ok (f a)
  | .error (.refused _) => .ok refused
  | .error (.fault fault) => .error fault

theorem Pairing.Stops.answering {α β γ : Type} {same : α → β → Prop} {x : Except Stop α}
    {y : Except Stop β} {f : α → γ} {g : β → γ} {refused : γ} (h : p.Stops n same x y)
    (hfg : ∀ a b, same a b → f a = g b) :
    p.Faults Eq (answering refused f x) (answering refused g y) := by
  cases h with
  | early h =>
    next stop =>
    cases stop with
    | fault f => exact .early h
    | refused error => exact h.elim
  | error h =>
    next stop stop' =>
    cases stop with
    | fault f =>
      cases h with
      | fault _ hf => exact .error ⟨rfl, hf⟩
    | refused error => cases h <;> exact .ok rfl
  | ok hab => exact .ok (hfg _ _ hab)

/-- The same is around both searches, but for the offsets. -/
def SameAround (n : Nat) (outer outer' : List Trail) : Prop := outer = outer'.map (Trail.shift n)

namespace SameAround

theorem nothing (n : Nat) : SameAround n [] [] := rfl

theorem levels {outer outer' : List Trail} (scopes : List Trail) (h : SameAround n outer outer') :
    SameAround n (scopes.map (Trail.shift n) ++ outer) (scopes ++ outer') := by
  rw [SameAround, List.map_append, ← h]

theorem of_zero (outer : List Trail) : SameAround 0 outer outer := by
  have hscopes : Trail.shift 0 = id := funext Trail.shift_zero
  rw [SameAround, hscopes, List.map_id]

theorem eq_of_zero {outer outer' : List Trail} (h : SameAround 0 outer outer') :
    outer = outer' := h.trans (of_zero outer').symm

end SameAround

/-- At no distance there is nothing to ask of types. -/
theorem accepts_at_zero (type : ParserType) {text tail : Text} (htext : Text.Tail 0 text tail)
    {outer outer' : List Trail} (hout : SameAround 0 outer outer') (offset : Nat) (node : Node) :
    type.accepts ⟨text, offset + 0, outer⟩ ⟨text, node.shift 0, 0⟩ =
      type.accepts ⟨tail, offset, outer'⟩ ⟨tail, node, 0⟩ := by
  rw [htext.eq_of_zero, hout.eq_of_zero, Node.shift_zero, Nat.add_zero]

theorem Pairing.Apart.alone (shared : p.Shared) (h : p.Apart n setting setting') :
    p.Apart n setting.alone setting'.alone :=
  ⟨h.late, h.types, h.types', h.strategy, h.strategy', h.text, shared.nothing n⟩

/-! ## Lengths -/

theorem Grammar.lengthAt_follows (hrun : p.Runs run run') (shared : p.Shared)
    (h : p.Apart n setting setting') {g : Grammar} (hg : p.GrammarOk g) (offset : Nat) :
    p.Faults Eq (g.lengthAt run setting (offset + n)) (g.lengthAt run' setting' offset) := by
  have hlength (run : Runner (Option Failure)) (setting : Setting) (offset : Nat) :
      g.lengthAt run setting offset = answering none
        (fun seen => seen.value.map (·.stop - offset)) (run setting.alone .beginning g offset) := by
    simp only [Grammar.lengthAt, answering]
    split <;> simp only [*]
  rw [hlength, hlength]
  refine (hrun n _ _ .beginning g offset (h.alone shared) hg).answering fun a b hab => ?_
  rw [hab]
  cases hb : b.value with
  | none => simp only [Seen.shift, hb, Option.map_none]
  | some m => simp only [Seen.shift, hb, Option.map_some, Match.shift, Nat.add_sub_add_right]

/-- Columns are matched as texts of their own, at no distance. -/
theorem Region.fits_follows (hrun : p.Runs run run') (shared : p.Shared)
    (h : p.Apart n setting setting') {region : Region}
    (hregion : Region.Every p.Asks (fun _ => True) region) (text : Text) :
    p.Faults Eq (region.fits run setting text) (region.fits run' setting' text) := by
  obtain ⟨name, width, _ | g⟩ := region
  · exact .ok rfl
  have hfits (run : Runner (Option Failure)) (setting : Setting) :
      Region.fits run setting text ⟨name, width, some g⟩ = answering false
        (fun seen => seen.value.isSome) (run { setting.alone with text } .whole g 0) := by
    simp only [Region.fits, Grammar.matchesAll, answering]
    split <;> simp only [*]
  have hfollows := hrun 0 { setting.alone with text } { setting'.alone with text } .whole g 0
    ⟨shared.zero, h.types, h.types', h.strategy, h.strategy', .refl text,
      shared.nothing 0⟩ hregion
  rw [hfits, hfits]
  refine hfollows.answering fun a b hab => ?_
  rw [hab, Seen.shift, Option.isSome_map]

theorem Region.spansFrom_follows (hrun : p.Runs run run') (shared : p.Shared)
    (h : p.Apart n setting setting')
    {regions : List Region}
    (hregions : Region.EveryOf p.Asks (fun _ => True) regions) (start : Nat) :
    p.Faults (fun a b => a = b.map (List.map fun span => (span.1 + n, span.2 + n)))
      (Region.spansFrom run setting (start + n) regions)
      (Region.spansFrom run' setting' start regions) := by
  induction regions generalizing start with
  | nil => exact .ok rfl
  | cons region regions ih =>
    simp only [Region.spansFrom_cons]
    have hstop : region.width.elim setting.text.size (start + n + ·) =
        region.width.elim setting'.text.size (start + ·) + n := by
      cases region.width with
      | none => exact h.text.size
      | some width => exact Nat.add_right_comm start n width
    rw [hstop, h.text.slice]
    refine (Region.fits_follows hrun shared h hregions.1 _).bind fun fits _ heq => ?_
    obtain rfl := heq
    split
    · refine (ih hregions.2 _).bind fun spans spans' hspans => .ok ?_
      rw [hspans, Option.map_map, Option.map_map]
      rfl
    · exact .ok rfl

theorem Region.spansAt_follows (hrun : p.Runs run run') (shared : p.Shared)
    (h : p.Apart n setting setting')
    {regions : List Region}
    (hregions : Region.EveryOf p.Asks (fun _ => True) regions) (offset : Nat) :
    p.Faults (fun a b => a = b.map (List.map fun span => (span.1 + n, span.2 + n)))
      (Region.spansAt run setting (offset + n) regions)
      (Region.spansAt run' setting' offset regions) := by
  have hfit : offset + n + Region.declaredWidth regions ≤ setting.text.size ↔
      offset + Region.declaredWidth regions ≤ setting'.text.size := by
    rw [h.text.size]
    omega
  simp only [Region.spansAt, hfit]
  split
  · exact Region.spansFrom_follows hrun shared h hregions offset
  · exact .ok rfl

theorem Checker.anyLengthAt_follows (h : p.Apart n setting setting') (width : Option Nat)
    (offset : Nat) :
    Checker.anyLengthAt width setting.text (offset + n) =
      Checker.anyLengthAt width setting'.text offset := by
  have hsize := h.text.size
  match width with
  | some 0 => rfl
  | some (k + 1) =>
    have hiff :
        offset + n + (k + 1) ≤ setting.text.size ↔ offset + (k + 1) ≤ setting'.text.size := by
      omega
    simp only [Checker.anyLengthAt, hiff]
  | none =>
    simp only [Checker.anyLengthAt, hsize, Nat.add_le_add_iff_right, Nat.add_sub_add_right]

mutual

/-- A checker has the same length in both texts. -/
theorem Checker.lengthAt_follows (hrun : p.Runs run run') (shared : p.Shared)
    (h : p.Apart n setting setting') :
    ∀ {c : Checker}, p.CheckerOk c → ∀ offset,
      p.Faults Eq (c.lengthAt run setting (offset + n)) (c.lengthAt run' setting' offset)
  | .char set, _, offset => by
    simp only [Checker.lengthAt, h.text.char, h.types, h.types', shared.classes]
    exact .ok rfl
  | .word _, _, offset => by
    simp only [Checker.lengthAt, Word.lengthAt, h.text.hasAt]
    exact .ok rfl
  | .any width, _, offset => by
    simp only [Checker.lengthAt, Checker.anyLengthAt_follows h]
    exact .ok rfl
  | .oneOf choices fallback, hc, offset => by
    simp only [Checker.lengthAt]
    refine (Checker.longestAt_follows hrun shared h hc.1 offset).bind fun longest _ heq => ?_
    obtain rfl := heq
    cases longest with
    | some length => exact .ok rfl
    | none => exact Checker.fallbackLengthAt_follows hrun shared h hc.2 offset
  | .not item, hc, offset => by
    have hend : setting.text.size ≤ offset + n ↔ setting'.text.size ≤ offset := by
      rw [h.text.size]
      omega
    simp only [Checker.lengthAt, hend]
    split
    · exact .ok rfl
    · refine (Checker.lengthAt_follows hrun shared h (c := item) hc offset).bind
        fun length _ heq => ?_
      obtain rfl := heq
      cases length <;> exact .ok rfl
  | .fixed regions, hc, offset => by
    simp only [Checker.lengthAt]
    refine (Region.spansAt_follows hrun shared h hc.2 offset).bind fun spans spans' heq => .ok ?_
    rw [heq, Option.map_map]
    congr 1
    funext spans
    simp only [Function.comp_apply, lastStop_shift, Nat.add_sub_add_right]
  | .grammar g, hc, offset => Grammar.lengthAt_follows hrun shared h (g := g) hc offset

theorem Checker.longestAt_follows (hrun : p.Runs run run') (shared : p.Shared)
    (h : p.Apart n setting setting') :
    ∀ {cs : List Checker}, Checker.EveryOf p.Asks (fun _ => True) cs → ∀ offset,
      p.Faults Eq (Checker.longestAt run setting (offset + n) cs)
        (Checker.longestAt run' setting' offset cs)
  | [], _, _ => .ok rfl
  | c :: cs, hcs, offset => by
    simp only [Checker.longestAt]
    refine (Checker.longestAt_follows hrun shared h hcs.2 offset).bind fun later _ hlater => ?_
    obtain rfl := hlater
    refine (Checker.lengthAt_follows hrun shared h hcs.1 offset).bind fun here _ hhere => .ok ?_
    rw [hhere]

theorem Checker.fallbackLengthAt_follows (hrun : p.Runs run run') (shared : p.Shared)
    (h : p.Apart n setting setting') :
    ∀ {fallback : Option Checker},
      Checker.EveryIn p.Asks (fun _ => True) fallback → ∀ offset,
      p.Faults Eq (Checker.fallbackLengthAt run setting (offset + n) fallback)
        (Checker.fallbackLengthAt run' setting' offset fallback)
  | none, _, _ => .ok rfl
  | some c, hc, offset => Checker.lengthAt_follows hrun shared h (c := c) hc offset

end

/-! ## Nodes -/

theorem Checker.choiceAt_eq_lifting {c : Checker} (hg : ∀ g, c ≠ .grammar g)
    (hc : ∀ cs fb, c ≠ .oneOf cs fb) (run : Runner (Option Failure)) (setting : Setting)
    (offset : Nat) :
    c.choiceAt run setting offset =
      lifting (fun length => .ok (.of (length.map fun k => ⟨offset + k, [], false⟩)))
        (c.lengthAt run setting offset) := by
  rw [Checker.choiceAt_of_lengthAt hg hc]
  cases c.lengthAt run setting offset <;> rfl

theorem Checker.choiceAt_follows_of_lengthAt (hrun : p.Runs run run') (shared : p.Shared)
    (h : p.Apart n setting setting') {c : Checker} (hg : ∀ g, c ≠ .grammar g)
    (hc : ∀ cs fb, c ≠ .oneOf cs fb) (hok : p.CheckerOk c) (offset : Nat) :
    p.Stops n (fun a b => a = b.shift n (Found.shift n)) (c.choiceAt run setting (offset + n))
      (c.choiceAt run' setting' offset) := by
  rw [Checker.choiceAt_eq_lifting hg hc, Checker.choiceAt_eq_lifting hg hc]
  refine (Checker.lengthAt_follows hrun shared h hok offset).lifting fun length _ heq => .ok ?_
  obtain rfl := heq
  simp only [Seen.of, Seen.shift, FailureLog.empty, Option.map_none, Option.map_map]
  congr 2
  funext k
  simp only [Function.comp_apply, Found.shift, Node.shiftAll, Nat.add_right_comm]

theorem Seen.shift_merge {α β γ : Type} (n : Nat) (move : α → α) (value : Option α)
    (a : Seen (Option Failure) β) (b : Seen (Option Failure) γ) :
    (⟨value.map move, FailureLog.merge (a.failures.map (Failure.shift n))
        (b.failures.map (Failure.shift n))⟩ : Seen (Option Failure) (Option α)) =
      Seen.shift n move ⟨value, FailureLog.merge a.failures b.failures⟩ := by
  simp only [Seen.shift, FailureLog.merge, furthest_shift]

mutual

/-- A choice has the same match in both texts. -/
theorem Checker.choiceAt_follows (hrun : p.Runs run run') (shared : p.Shared)
    (h : p.Apart n setting setting') : ∀ {c : Checker}, p.CheckerOk c → ∀ offset,
      p.Stops n (fun a b => a = b.shift n (Found.shift n)) (c.choiceAt run setting (offset + n))
        (c.choiceAt run' setting' offset)
  | .char _, hc, offset | .word _, hc, offset | .any _, hc, offset | .not _, hc, offset
  | .fixed _, hc, offset =>
    Checker.choiceAt_follows_of_lengthAt hrun shared h (by simp) (by simp) hc offset
  | .grammar g, hc, offset => by
    refine (hrun n _ _ .beginning g offset h hc).bind fun a b hab => .ok ?_
    rw [hab]
    simp only [Seen.shift, Option.map_map]
    rfl
  | .oneOf choices fallback, hc, offset => by
    simp only [Checker.choiceAt]
    refine (Checker.choicesAt_follows hrun shared h hc.1 offset).bind fun chosen chosen' heq => ?_
    subst heq
    obtain ⟨_ | found, failures⟩ := chosen'
    · refine (Checker.fallbackAt_follows hrun shared h hc.2 offset).bind fun other other' heq => ?_
      subst heq
      exact .ok (Seen.shift_merge n _ _ (⟨none, failures⟩ : Seen _ (Option Found)) other')
    · exact .ok rfl

theorem Checker.choicesAt_follows (hrun : p.Runs run run') (shared : p.Shared)
    (h : p.Apart n setting setting') : ∀ {cs : List Checker},
      Checker.EveryOf p.Asks (fun _ => True) cs → ∀ offset,
        p.Stops n (fun a b => a = b.shift n (Found.shift n))
          (Checker.choicesAt run setting (offset + n) cs)
          (Checker.choicesAt run' setting' offset cs)
  | [], _, _ => .ok rfl
  | c :: cs, hcs, offset => by
    simp only [Checker.choicesAt]
    refine (Checker.choicesAt_follows hrun shared h hcs.2 offset).bind fun later later' hlater => ?_
    refine (Checker.choiceAt_follows hrun shared h hcs.1 offset).bind fun here here' hhere => ?_
    subst hlater hhere
    refine .ok (Eq.trans ?_ (Seen.shift_merge n (Found.shift n) _ later' here'))
    simp only [Seen.shift, longer_shift]

theorem Checker.fallbackAt_follows (hrun : p.Runs run run') (shared : p.Shared)
    (h : p.Apart n setting setting') : ∀ {fallback : Option Checker},
      Checker.EveryIn p.Asks (fun _ => True) fallback → ∀ offset,
        p.Stops n (fun a b => a = b.shift n (Found.shift n))
          (Checker.fallbackAt run setting (offset + n) fallback)
          (Checker.fallbackAt run' setting' offset fallback)
  | none, _, _ => .ok rfl
  | some c, hc, offset => Checker.choiceAt_follows hrun shared h (c := c) hc offset

end

/-- A checker finds the same in both texts. -/
theorem Checker.foundAt_follows (hrun : p.Runs run run') (shared : p.Shared)
    (h : p.Apart n setting setting') {c : Checker} (hc : p.CheckerOk c) (offset : Nat) :
    p.Stops n (fun a b => a = b.shift n (Found.shift n)) (c.foundAt run setting (offset + n))
      (c.foundAt run' setting' offset) := by
  cases c with
  | fixed regions =>
    have hfixed (run : Runner (Option Failure)) (setting : Setting) (offset : Nat) :
        (Checker.fixed regions).foundAt run setting offset =
          lifting (fun spans? => .ok (.of (spans?.map fun spans =>
            ⟨lastStop offset spans, Region.nodes regions spans, false⟩)))
            (Region.spansAt run setting offset regions) := by
      simp only [Checker.foundAt]
      cases Region.spansAt run setting offset regions <;> rfl
    rw [hfixed, hfixed]
    refine (Region.spansAt_follows hrun shared h hc.2 offset).lifting fun spans spans' heq => .ok ?_
    subst heq
    simp only [Seen.of, Seen.shift, FailureLog.empty, Option.map_none, Option.map_map]
    congr 2
    funext spans
    simp only [Function.comp_apply, Found.shift, lastStop_shift, Region.nodes_shift]
  | _ => exact Checker.choiceAt_follows hrun shared h hc offset

/-! ## Completing a match -/

theorem Entry.reread_follows (hrun : p.Runs run run') (shared : p.Shared)
    (h : p.Apart n setting setting') {entry : Entry} (hentry : p.EntryOk entry)
    (start : Nat) (found : Found) :
    p.Stops n (fun a b => a = b.shift n (Found.shift n))
      (entry.reread run setting (start + n) (found.shift n))
      (entry.reread run' setting' start found) := by
  obtain ⟨capture, target, q, _ | g⟩ := entry
  · exact .ok rfl
  have hstop : (found.shift n).stop ≤ setting.text.size ↔ found.stop ≤ setting'.text.size := by
    have hsize := h.text.size
    simp only [Found.shift]
    omega
  simp only [Entry.reread, hstop]
  split
  · next hle =>
    have hpart : p.Apart n { setting with text := setting.text.slice 0 (found.stop + n) }
        { setting' with text := setting'.text.slice 0 found.stop } :=
      ⟨h.late, h.types, h.types', h.strategy, h.strategy', h.text.beginning hle, h.outer⟩
    refine (hrun n _ _ .whole g start hpart hentry.2.2).bind fun a b hab => .ok ?_
    subst hab
    simp only [Seen.shift, Option.map_map]
    rfl
  · exact .error (.fault _ shared.outOfRange)

/-- A match is completed, or rejected, in both texts. -/
theorem Entry.complete_follows (hrun : p.Runs run run') (shared : p.Shared)
    (h : p.Apart n setting setting') {entry : Entry} (hentry : p.EntryOk entry)
    (start : Nat)
    (found : Found) {use : Option TypeUse} (huse : ∀ u, use = some u → p.UseOk u) :
    p.Stops n (fun a b => a = b.shift n (Node.shiftAll n))
      (entry.complete run setting (start + n) (found.shift n) use)
      (entry.complete run' setting' start found use) := by
  simp only [Entry.complete]
  refine (Entry.reread_follows hrun shared h hentry start found).bind fun seen seen' heq => ?_
  subst heq
  obtain ⟨_ | found, failures⟩ := seen'
  · exact .ok rfl
  cases use with
  | none => exact .ok (by simp only [Seen.shift, Option.map_some, Entry.untypedNodes_shift])
  | some use =>
    have haccepts := shared.accepts n use h.late (huse use rfl) setting.text setting'.text start
      setting.outer setting'.outer (entry.typedNode start found use) h.text h.outer
    simp only [Seen.shift, Option.map_some, Entry.typedNode_shift, haccepts]
    split
    · refine .ok ?_
      simp only [Option.map_some, Node.shiftAll]
      split <;> rfl
    · exact .ok rfl

end TextGrammar
