/-
Attempts that come to an end. When the searches within an attempt end, each with
the same result whatever the number of steps it is allowed beyond some number,
the attempt does too. It comes to an answer, or to the one fault there may be:
a match that ends past the text cannot be read again by a secondary grammar.
Types are asked as they may be: each that is referred to is there and gives a
checker that is matched at once.
-/
import TextGrammar.Proofs.PlacedSearch
import TextGrammar.Proofs.RecordLayout

open Filter (atTop)

namespace TextGrammar

/-! ## Results that stay the same -/

/-- With enough steps the result is always the same: a value with the property, or an error of those
that there may be. -/
def Concludes {ε α : Type} (may : ε → Prop) (p : α → Prop) (x : Nat → Except ε α) : Prop :=
  (∃ a, p a ∧ ∀ᶠ fuel in atTop, x fuel = .ok a) ∨
    ∃ e, may e ∧ ∀ᶠ fuel in atTop, x fuel = .error e

namespace Concludes

variable {ε ε' α β : Type} {may : ε → Prop} {may' : ε' → Prop} {p p' : α → Prop} {q : β → Prop}
  {x : Nat → Except ε α}

theorem ok {a : α} (h : p a) : Concludes may p fun _ => .ok a :=
  .inl ⟨a, h, Filter.Eventually.of_forall fun _ => rfl⟩

theorem error {e : ε} (h : may e) : Concludes may p fun _ => .error e :=
  .inr ⟨e, h, Filter.Eventually.of_forall fun _ => rfl⟩

theorem mono (h : Concludes may p x) (hp : ∀ a, p a → p' a) : Concludes may p' x :=
  h.imp_left fun ⟨a, ha, hx⟩ => ⟨a, hp a ha, hx⟩

theorem congr {x' : Nat → Except ε α} (h : Concludes may p x) (heq : ∀ fuel, x' fuel = x fuel) :
    Concludes may p x' := by
  rwa [show x' = x from funext heq]

theorem bind {f : Nat → α → Except ε β} (h : Concludes may p x)
    (hf : ∀ a, p a → Concludes may q fun fuel => f fuel a) :
    Concludes may q fun fuel => x fuel >>= f fuel := by
  rcases h with ⟨a, ha, hx⟩ | ⟨e, he, hx⟩
  · rcases hf a ha with ⟨b, hb, hy⟩ | ⟨e, he, hy⟩
    · exact .inl ⟨b, hb, eventually_bind_of_ok hx hy⟩
    · exact .inr ⟨e, he, eventually_bind_of_ok hx hy⟩
  · exact .inr ⟨e, he, eventually_bind_of_error hx⟩

/-- What is known of every value is known of this one. -/
theorem and (h : Concludes may p x) (hgives : ∀ fuel, Gives p' (x fuel)) :
    Concludes may (fun a => p a ∧ p' a) x := by
  refine h.imp_left fun ⟨a, ha, hx⟩ => ?_
  obtain ⟨fuel, hfuel⟩ := hx.exists
  exact ⟨a, ⟨ha, hgives fuel a hfuel⟩, hx⟩

/-- A result that is read off another one. -/
theorem reads {y : Nat → Except ε' β} (h : Concludes may p x) (f : α → β)
    (hf : ∀ a, p a → q (f a)) (hy : ∀ fuel a, x fuel = .ok a → y fuel = .ok (f a))
    (hmay : ∀ e, may e → ∃ e', may' e' ∧ ∀ fuel, x fuel = .error e → y fuel = .error e') :
    Concludes may' q y := by
  rcases h with ⟨a, ha, hx⟩ | ⟨e, he, hx⟩
  · exact .inl ⟨f a, hf a ha, hx.mono fun fuel hfuel => hy fuel a hfuel⟩
  · obtain ⟨e', he', hread⟩ := hmay e he
    exact .inr ⟨e', he', hx.mono fun fuel hfuel => hread fuel hfuel⟩

/-- One step more makes no difference. -/
theorem of_succ (h : Concludes may p fun fuel => x (fuel + 1)) : Concludes may p x := by
  rcases h with ⟨a, ha, hx⟩ | ⟨e, he, hx⟩
  · exact .inl ⟨a, ha, eventually_of_succ hx⟩
  · exact .inr ⟨e, he, eventually_of_succ hx⟩

/-- A result that is put together from those of the members of a list, the last of them first. -/
theorem foldrM {γ : Type} {f : Nat → γ → α → Except ε α} {a₀ : α} (h₀ : p a₀) {cs : List γ}
    (h : ∀ c ∈ cs, ∀ later, p later → Concludes may p fun fuel => f fuel c later) :
    Concludes may p fun fuel => cs.foldrM (f fuel) a₀ := by
  induction cs with
  | nil => exact .ok h₀
  | cons c cs ih =>
    obtain ⟨hc, hcs⟩ := List.forall_mem_cons.mp h
    simp only [List.foldrM_cons]
    exact (ih hcs).bind hc

/-- A result that is that of a member, if there is one. -/
theorem elim {γ : Type} {f : Nat → γ → Except ε α} {a₀ : α} (h₀ : p a₀) {c? : Option γ}
    (h : ∀ c, c? = some c → Concludes may p fun fuel => f fuel c) :
    Concludes may p fun fuel => c?.elim (.ok a₀) (f fuel) := by
  cases c? with
  | none => exact .ok h₀
  | some c => exact h c rfl

end Concludes

/-- Out of range, if that may be. -/
def Fault.Beyond (may : Prop) (f : Fault) : Prop := may ∧ f = .outOfRange

def Stop.Beyond (may : Prop) (stop : Stop) : Prop := may ∧ stop = .fault .outOfRange

/-! ## Entries that are read again -/

mutual

/-- Some entry of the grammar has a secondary grammar, other than in columns and in what must not
match. -/
def Grammar.rereads : Grammar → Bool
  | ⟨entries⟩ => Entry.anyRereads entries

def Entry.anyRereads : List Entry → Bool
  | [] => false
  | entry :: entries => Entry.rereads entry || Entry.anyRereads entries

def Entry.rereads : Entry → Bool
  | ⟨_, target, _, second⟩ => second.isSome || Target.rereads target

def Target.rereads : Target → Bool
  | .checker c => Checker.rereads c
  | .ref _ | .type _ => false

def Checker.rereads : Checker → Bool
  | .char _ | .word _ | .any _ | .not _ | .fixed _ => false
  | .oneOf choices fallback => Checker.anyRereads choices || Checker.fallbackRereads fallback
  | .grammar g => Grammar.rereads g

def Checker.anyRereads : List Checker → Bool
  | [] => false
  | c :: cs => Checker.rereads c || Checker.anyRereads cs

def Checker.fallbackRereads : Option Checker → Bool
  | none => false
  | some c => Checker.rereads c

end

theorem Entry.rereads_of_target {entry : Entry} {c : Checker} (ht : entry.target = .checker c)
    (h : c.rereads = true) : entry.rereads = true := by
  obtain ⟨capture, target, q, second⟩ := entry
  obtain rfl : target = .checker c := ht
  simp only [Entry.rereads, Target.rereads, h, Bool.or_true]

theorem Entry.rereads_of_second {entry : Entry} {g : Grammar} (hg : entry.secondary = some g) :
    entry.rereads = true := by
  obtain ⟨capture, target, q, second⟩ := entry
  obtain rfl : second = some g := hg
  rfl

theorem Checker.rereads_of_mem {c : Checker} {cs : List Checker} (hmem : c ∈ cs)
    (h : c.rereads = true) : Checker.anyRereads cs = true := by
  induction hmem with
  | head cs => rw [Checker.anyRereads, h, Bool.true_or]
  | tail c _ ih => rw [Checker.anyRereads, ih, Bool.or_true]

/-! ## Where matches end -/

/-- A match from `offset` ends no earlier, and right there if there is no character. -/
structure Text.Onward (text : Text) (offset stop : Nat) : Prop where
  le : offset ≤ stop
  stays : text.size ≤ offset → stop = offset

/-- What is found from `offset` on, if anything, ends there or later. -/
def Text.AllOnward {α : Type} (text : Text) (offset : Nat) (stop : α → Nat) (found : Option α) :
    Prop :=
  ∀ a ∈ found, text.Onward offset (stop a)

section

variable {text : Text} {offset : Nat}

theorem Text.Onward.refl : text.Onward offset offset := ⟨Nat.le_refl offset, fun _ => rfl⟩

theorem Text.Onward.trans {stop later : Nat} (h : text.Onward offset stop)
    (h' : text.Onward stop later) : text.Onward offset later := by
  refine ⟨Nat.le_trans h.le h'.le, fun hsize => ?_⟩
  rw [h'.stays (h.stays hsize ▸ hsize), h.stays hsize]

/-- There is a character where a match begins that takes some. -/
theorem Text.Onward.lt_size {stop : Nat} (h : text.Onward offset stop) (hlt : offset < stop) :
    offset < text.size := by
  by_contra hsize
  exact Nat.ne_of_gt hlt (h.stays (Nat.le_of_not_lt hsize))

theorem Text.Onward.of_length {n : Nat} (h : text.size ≤ offset → n = 0) :
    text.Onward offset (offset + n) :=
  ⟨Nat.le_add_right _ _, fun hsize => by rw [h hsize, Nat.add_zero]⟩

variable {α : Type} {stop : α → Nat}

theorem Text.AllOnward.none : text.AllOnward offset stop none := by
  rintro _ ⟨⟩

theorem Text.AllOnward.some {a : α} (h : text.Onward offset (stop a)) :
    text.AllOnward offset stop (some a) := by
  rintro _ ⟨⟩
  exact h

/-- What is read off a match ends where it does. -/
theorem Text.AllOnward.map {β : Type} {found : Option α} {f : α → β} {stop' : β → Nat}
    (h : text.AllOnward offset stop found)
    (hf : ∀ a, text.Onward offset (stop a) → text.Onward offset (stop' (f a))) :
    text.AllOnward offset stop' (found.map f) := by
  intro b hb
  obtain ⟨a, ha, rfl⟩ := Option.map_eq_some_iff.mp hb
  exact hf a (h a ha)

theorem Text.AllOnward.further {reach : α → Nat} {a b : Option α}
    (ha : text.AllOnward offset stop a) (hb : text.AllOnward offset stop b) :
    text.AllOnward offset stop (TextGrammar.further reach a b) :=
  fun found hfound => (eq_or_eq_of_further hfound).elim (ha found) (hb found)

theorem Text.AllOnward.longer {a b : Option Nat} (ha : text.AllOnward offset (offset + ·) a)
    (hb : text.AllOnward offset (offset + ·) b) :
    text.AllOnward offset (offset + ·) (longerLength a b) := by
  cases a with
  | none => exact hb
  | some n =>
    cases b with
    | none => exact ha
    | some m =>
      refine .some (.of_length fun hsize => ?_)
      obtain rfl := Nat.add_eq_left.mp ((ha n rfl).stays hsize)
      obtain rfl := Nat.add_eq_left.mp ((hb m rfl).stays hsize)
      rfl

end

variable {L : Type} [FailureLog L] {env : TypeEnv} {may : Prop} {setting : Setting} {offset : Nat}

/-- A search can be made from this offset, with these types and in the standard way. It may come to
something out of range, or there is no character left and nothing past the end is read again. -/
structure Setting.Ready (env : TypeEnv) (may : Prop) (rereads : Bool) (setting : Setting)
    (offset : Nat) : Prop where
  known : setting.types = env
  standard : setting.strategy = .standard
  reach : may ∨ setting.text.size ≤ offset ∧ (rereads = true → offset ≤ setting.text.size)

namespace Setting.Ready

variable {rereads rereads' : Bool}

theorem mono (h : setting.Ready env may rereads offset)
    (hrereads : rereads' = true → may ∨ rereads = true) :
    setting.Ready env may rereads' offset := by
  refine ⟨h.known, h.standard, ?_⟩
  rcases h.reach with hmay | ⟨hsize, hlast⟩
  · exact .inl hmay
  by_cases hmay : may
  · exact .inl hmay
  · exact .inr ⟨hsize, fun hr => hlast ((hrereads hr).resolve_left hmay)⟩

/-- What may be asked for by parts of a checker may be by each. -/
theorem or (h : setting.Ready env may (rereads || rereads') offset) :
    setting.Ready env may rereads offset ∧ setting.Ready env may rereads' offset :=
  ⟨h.mono fun hr => .inr (by rw [hr, Bool.true_or]),
    h.mono fun hr => .inr (by rw [hr, Bool.or_true])⟩

/-- Before the end of the text anything may be read again. -/
theorem inside (h : setting.Ready env may rereads offset) (hsize : ¬ setting.text.size ≤ offset) :
    setting.Ready env may rereads' offset :=
  ⟨h.known, h.standard, .inl (h.reach.resolve_right fun hpast => hsize hpast.1)⟩

theorem alone (h : setting.Ready env may rereads offset) :
    setting.alone.Ready env may rereads offset :=
  ⟨h.known, h.standard, h.reach⟩

omit [FailureLog L] in
/-- The state of a search is no matter. -/
theorem inner (h : setting.Ready env may rereads offset) (m : Machine L) :
    (m.inner setting).Ready env may rereads offset :=
  ⟨h.known, h.standard, h.reach⟩

theorem onward (h : setting.Ready env may rereads offset) {stop : Nat}
    (honward : setting.text.Onward offset stop) : setting.Ready env may rereads stop := by
  refine ⟨h.known, h.standard, h.reach.imp_right fun hpast => ?_⟩
  rwa [honward.stays hpast.1]

/-- A column is searched as a text of its own. -/
theorem column (h : setting.Ready env may false offset) (stop : Nat) :
    ({ setting.alone with text := setting.text.slice offset stop } : Setting).Ready env may rereads
      0 := by
  refine ⟨h.known, h.standard, h.reach.imp_right fun hpast => ⟨?_, fun _ => Nat.zero_le _⟩⟩
  simp only [Text.slice, Array.size_extract]
  omega

/-- What was matched is searched again up to where it ends. -/
theorem part (h : setting.Ready env may rereads offset) {stop : Nat}
    (honward : setting.text.Onward offset stop) (hstop : stop ≤ setting.text.size) :
    ({ setting with text := setting.text.slice 0 stop } : Setting).Ready env may rereads'
      offset := by
  refine ⟨h.known, h.standard, h.reach.imp_right fun hpast => ?_⟩
  simp only [Text.size_slice_zero hstop]
  exact ⟨Nat.le_trans hstop hpast.1, fun _ => honward.le⟩

/-- What was matched does not end past the text, or that may be. -/
theorem beyond (h : setting.Ready env may true offset) {stop : Nat}
    (honward : setting.text.Onward offset stop) (hstop : ¬ stop ≤ setting.text.size) : may := by
  refine h.reach.resolve_right fun hpast => hstop ?_
  rw [honward.stays hpast.1]
  exact hpast.2 rfl

end Setting.Ready

/-- Every search for the grammar comes to an end. -/
def Grammar.Halts (L : Type) [FailureLog L] (env : TypeEnv) (may : Prop) (g : Grammar) : Prop :=
  ∀ (setting : Setting) (mode : Mode) (offset : Nat), setting.Ready env may g.rereads offset →
    Concludes (Stop.Beyond may)
      (fun seen : Seen L (Option Match) => setting.text.AllOnward offset Match.stop seen.value)
      fun fuel => runWithin fuel setting mode g offset

/-! ## Lengths -/

theorem Grammar.Halts.lengthAt {g : Grammar} (h : g.Halts L env may)
    (ready : setting.Ready env may g.rereads offset) :
    Concludes (Fault.Beyond may) (setting.text.AllOnward offset (offset + ·))
      fun fuel => g.lengthAt (runWithin (L := L) fuel) setting offset := by
  refine (h setting.alone .beginning offset ready.alone).reads
    (fun seen => seen.value.map (·.stop - offset)) (fun seen hseen => ?_)
    (fun fuel seen hrun => ?_) ?_
  · refine hseen.map fun m hm => .of_length fun hsize => ?_
    rw [hm.stays hsize, Nat.sub_self]
  · simp only [Grammar.lengthAt, hrun]
  · rintro _ ⟨hmay, rfl⟩
    exact ⟨_, ⟨hmay, rfl⟩, fun fuel hrun => by simp only [Grammar.lengthAt, hrun]⟩

/-- Whether a column is taken. -/
theorem Region.fits_concludes {region : Region}
    (h : ∀ g, region.grammar = some g → g.Halts L env may)
    (ready : setting.Ready env may false offset) (stop : Nat) :
    Concludes (Fault.Beyond may) (fun _ => True) fun fuel =>
      region.fits (runWithin (L := L) fuel) setting (setting.text.slice offset stop) := by
  cases hg : region.grammar with
  | none =>
    simp only [Region.fits, hg]
    exact .ok trivial
  | some g =>
    refine (h g hg _ .whole 0 (ready.column stop)).reads (fun seen => seen.value.isSome)
      (fun _ _ => trivial) (fun fuel seen hrun => ?_) ?_
    · simp only [Region.fits, hg, Grammar.matchesAll, hrun]
    · rintro _ ⟨hmay, rfl⟩
      exact ⟨_, ⟨hmay, rfl⟩, fun fuel hrun => by
        simp only [Region.fits, hg, Grammar.matchesAll, hrun]⟩

theorem Region.spansFrom_concludes {regions : List Region}
    (h : ∀ region ∈ regions, ∀ g, region.grammar = some g → g.Halts L env may)
    (ready : setting.Ready env may false offset) :
    Concludes (Fault.Beyond may) (fun _ => True)
      fun fuel => Region.spansFrom (runWithin (L := L) fuel) setting offset regions := by
  induction regions generalizing offset with
  | nil => exact .ok trivial
  | cons region regions ih =>
    obtain ⟨hregion, hregions⟩ := List.forall_mem_cons.mp h
    simp only [Region.spansFrom_cons]
    refine (Region.fits_concludes hregion ready _).bind fun fits _ => ?_
    -- If there is no character left for a column, there is none for the next.
    have hnext : setting.Ready env may false
        (region.width.elim setting.text.size (offset + ·)) := by
      refine ⟨ready.known, ready.standard, ready.reach.imp_right fun hpast => ⟨?_, nofun⟩⟩
      cases region.width with
      | none => exact Nat.le_refl _
      | some width => exact Nat.le_trans hpast.1 (Nat.le_add_right _ _)
    cases fits with
    | false => exact .ok trivial
    | true =>
      simp only [if_true]
      exact (ih hregions hnext).bind fun spans _ => .ok trivial

/-- A record fits at the end of the text only if its columns have no width. -/
theorem Region.spansAt_concludes {regions : List Region}
    (h : ∀ region ∈ regions, ∀ g, region.grammar = some g → g.Halts L env may)
    (ready : setting.Ready env may false offset) :
    Concludes (Fault.Beyond may) (setting.text.AllOnward offset (lastStop offset))
      fun fuel => Region.spansAt (runWithin (L := L) fuel) setting offset regions := by
  simp only [Region.spansAt]
  split
  · next hroom =>
    have hlaid (fuel : Nat) : Gives (fun spans => ∀ each ∈ spans,
        Region.LaidOut setting.text.size offset regions each)
          (Region.spansFrom (runWithin (L := L) fuel) setting offset regions) :=
      fun spans hspans each heach => (Region.spansFrom_eq_some_iff.mp (heach ▸ hspans)).1
    refine ((Region.spansFrom_concludes h ready).and hlaid).mono fun spans hspans each heach => ?_
    rcases lastStop_cases offset each with hlast | ⟨span, hspan, hlast⟩
    · rw [hlast]
      exact .refl
    · have hbounds := (hspans.2 each heach).each span hspan
      refine ⟨by omega, fun hsize => ?_⟩
      have hdeclared : Region.declaredWidth regions = 0 := by omega
      have hsum : Region.declaredWidth regions = (regions.filterMap Region.width).sum :=
        Region.declaredWidth_eq (by rw [hdeclared]; decide)
      omega
  · exact .ok .none

/-! ## Checkers -/

/-- All that a search does with the checker comes to an end. -/
structure Checker.Halts (L : Type) [FailureLog L] (env : TypeEnv) (may : Prop) (c : Checker) :
    Prop where
  length : ∀ {setting offset}, setting.Ready env may c.rereads offset →
    Concludes (Fault.Beyond may) (setting.text.AllOnward offset (offset + ·))
      fun fuel => c.lengthAt (runWithin (L := L) fuel) setting offset
  choice : ∀ {setting offset}, setting.Ready env may c.rereads offset →
    Concludes (Stop.Beyond may) (fun seen => setting.text.AllOnward offset Found.stop seen.value)
      fun fuel => c.choiceAt (runWithin (L := L) fuel) setting offset
  found : ∀ {setting offset}, setting.Ready env may c.rereads offset →
    Concludes (Stop.Beyond may) (fun seen => setting.text.AllOnward offset Found.stop seen.value)
      fun fuel => c.foundAt (runWithin (L := L) fuel) setting offset

namespace Checker.Halts

variable {c : Checker}

/-- Checkers that are neither grammars nor alternatives are matched by their length. -/
theorem choice_of_length (hg : ∀ g, c ≠ .grammar g) (hc : ∀ cs fb, c ≠ .oneOf cs fb)
    (h : Concludes (Fault.Beyond may) (setting.text.AllOnward offset (offset + ·))
      fun fuel => c.lengthAt (runWithin (L := L) fuel) setting offset) :
    Concludes (Stop.Beyond may) (fun seen => setting.text.AllOnward offset Found.stop seen.value)
      fun fuel => c.choiceAt (runWithin (L := L) fuel) setting offset := by
  refine h.reads (fun length => .of (length.map fun n => ⟨offset + n, [], false⟩))
    (fun length hlength => hlength.map fun n hn => hn) (fun fuel length hrun => ?_) ?_
  · rw [Checker.choiceAt_of_lengthAt hg hc, hrun]
  · rintro _ ⟨hmay, rfl⟩
    exact ⟨_, ⟨hmay, rfl⟩, fun fuel hrun => by rw [Checker.choiceAt_of_lengthAt hg hc, hrun]⟩

theorem of_length (hg : ∀ g, c ≠ .grammar g) (hc : ∀ cs fb, c ≠ .oneOf cs fb)
    (hf : ∀ regions, c ≠ .fixed regions)
    (h : ∀ {setting offset}, setting.Ready env may c.rereads offset →
      Concludes (Fault.Beyond may) (setting.text.AllOnward offset (offset + ·))
        fun fuel => c.lengthAt (runWithin (L := L) fuel) setting offset) : c.Halts L env may := by
  have choice {setting : Setting} {offset : Nat} (ready : setting.Ready env may c.rereads offset) :=
    choice_of_length hg hc (h ready)
  refine ⟨h, choice, fun ready => (choice ready).congr fun fuel => ?_⟩
  cases c with
  | fixed regions => exact absurd rfl (hf regions)
  | _ => rfl

theorem char (set : CharSet) : (Checker.char set).Halts L env may := by
  refine .of_length (by simp) (by simp) (by simp) fun {setting offset} _ => ?_
  simp only [Checker.lengthAt]
  refine .ok fun n hn => .of_length fun hsize => ?_
  rw [Array.getElem?_eq_none hsize] at hn
  cases hn

/-- A word has at least one character. -/
theorem word (w : Word) : (Checker.word w).Halts L env may := by
  refine .of_length (by simp) (by simp) (by simp) fun {setting offset} _ => ?_
  simp only [Checker.lengthAt]
  refine .ok fun n hn => .of_length fun hsize => ?_
  have hnone : setting.text.hasAt offset w.chars = false := by
    rw [Word.chars, Text.hasAt, Array.getElem?_eq_none hsize]
    rfl
  rw [Word.lengthAt, hnone] at hn
  cases hn

theorem any (width : Option Nat) : (Checker.any width).Halts L env may := by
  refine .of_length (by simp) (by simp) (by simp) fun {setting offset} _ => ?_
  simp only [Checker.lengthAt]
  refine .ok fun n hn => .of_length fun hsize => ?_
  rcases width with _ | _ | width <;> simp only [Checker.anyLengthAt] at hn
  · split at hn <;> cases hn
    omega
  · cases hn
    rfl
  · split at hn <;> cases hn
    omega

/-- At the end of the text what must not match is not looked at. -/
theorem not {item : Checker} (h : item.Halts L env may) : item.not.Halts L env may := by
  refine .of_length (by simp) (by simp) (by simp) fun {setting offset} ready => ?_
  simp only [Checker.lengthAt]
  split
  · exact .ok (.some .refl)
  · next hsize =>
    refine (h.length (ready.inside hsize)).bind fun length _ => ?_
    cases length with
    | some n => exact .ok .none
    | none => exact .ok (.some (.of_length fun hpast => absurd hpast hsize))

theorem fixed {regions : List Region}
    (h : ∀ region ∈ regions, ∀ g, region.grammar = some g → g.Halts L env may) :
    (Checker.fixed regions).Halts L env may := by
  have length {setting : Setting} {offset : Nat}
      (ready : setting.Ready env may (Checker.fixed regions).rereads offset) :
      Concludes (Fault.Beyond may) (setting.text.AllOnward offset (offset + ·))
        fun fuel => (Checker.fixed regions).lengthAt (runWithin (L := L) fuel) setting offset := by
    simp only [Checker.lengthAt]
    refine (Region.spansAt_concludes h ready).bind fun spans hspans => .ok ?_
    refine hspans.map fun each heach => .of_length fun hsize => ?_
    rw [heach.stays hsize, Nat.sub_self]
  refine ⟨length, fun ready => choice_of_length (by simp) (by simp) (length ready),
    fun {setting offset} ready => ?_⟩
  refine (Region.spansAt_concludes h ready).reads (fun spans? => .of (spans?.map fun spans =>
    ⟨lastStop offset spans, Region.nodes regions spans, false⟩))
    (fun spans hspans => hspans.map fun each heach => heach) (fun fuel spans hrun => ?_) ?_
  · simp only [Checker.foundAt, hrun]
  · rintro _ ⟨hmay, rfl⟩
    exact ⟨_, ⟨hmay, rfl⟩, fun fuel hrun => by simp only [Checker.foundAt, hrun]⟩

theorem oneOf {cs : List Checker} {fallback : Option Checker} (hcs : ∀ c ∈ cs, c.Halts L env may)
    (hfallback : ∀ c, fallback = some c → c.Halts L env may) :
    (Checker.oneOf cs fallback).Halts L env may := by
  have parts {setting : Setting} {offset : Nat}
      (ready : setting.Ready env may (Checker.oneOf cs fallback).rereads offset) :
      (∀ c ∈ cs, setting.Ready env may c.rereads offset) ∧
        ∀ c, fallback = some c → setting.Ready env may c.rereads offset := by
    obtain ⟨among, other⟩ : setting.Ready env may (Checker.anyRereads cs) offset ∧
        setting.Ready env may (Checker.fallbackRereads fallback) offset := ready.or
    refine ⟨fun c hc => among.mono fun hr => .inr (Checker.rereads_of_mem hc hr), ?_⟩
    rintro c rfl
    exact other
  have choice {setting : Setting} {offset : Nat}
      (ready : setting.Ready env may (Checker.oneOf cs fallback).rereads offset) :
      Concludes (Stop.Beyond may) (fun seen => setting.text.AllOnward offset Found.stop seen.value)
        fun fuel => (Checker.oneOf cs fallback).choiceAt (runWithin (L := L) fuel) setting
          offset := by
    obtain ⟨among, other⟩ := parts ready
    have hchoices : Concludes (Stop.Beyond may)
        (fun seen => setting.text.AllOnward offset Found.stop seen.value)
        fun fuel => Checker.choicesAt (runWithin (L := L) fuel) setting offset cs :=
      Concludes.congr (.foldrM .none fun c hc later hlater =>
        ((hcs c hc).choice (among c hc)).bind fun here hhere => .ok (hlater.further hhere))
        fun fuel => Checker.choicesAt_eq_foldrM _ _ _ _
    have hothers : Concludes (Stop.Beyond may)
        (fun seen => setting.text.AllOnward offset Found.stop seen.value)
        fun fuel => Checker.fallbackAt (runWithin (L := L) fuel) setting offset fallback :=
      Concludes.congr (.elim .none fun c hc => (hfallback c hc).choice (other c hc))
        fun fuel => Checker.fallbackAt_eq_elim _ _ _ _
    simp only [Checker.choiceAt]
    refine hchoices.bind fun chosen hchosen => ?_
    cases hvalue : chosen.value with
    | some found => exact .ok hchosen
    | none => exact hothers.bind fun seen hseen => .ok hseen
  refine ⟨fun {setting offset} ready => ?_, choice, choice⟩
  obtain ⟨among, other⟩ := parts ready
  have hchoices : Concludes (Fault.Beyond may) (setting.text.AllOnward offset (offset + ·))
      fun fuel => Checker.longestAt (runWithin (L := L) fuel) setting offset cs :=
    Concludes.congr (.foldrM .none fun c hc later hlater =>
      ((hcs c hc).length (among c hc)).bind fun here hhere => .ok (hlater.longer hhere))
      fun fuel => Checker.longestAt_eq_foldrM _ _ _ _
  simp only [Checker.lengthAt]
  refine hchoices.bind fun longest hlongest => ?_
  cases longest with
  | some length => exact .ok hlongest
  | none =>
    simp only [Checker.fallbackLengthAt_eq_elim]
    exact .elim .none fun c hc => (hfallback c hc).length (other c hc)

theorem grammar {g : Grammar} (h : g.Halts L env may) : (Checker.grammar g).Halts L env may := by
  have same : (Checker.grammar g).rereads = g.rereads := by simp only [Checker.rereads]
  have choice {setting : Setting} {offset : Nat}
      (ready : setting.Ready env may (Checker.grammar g).rereads offset) :
      Concludes (Stop.Beyond may) (fun seen => setting.text.AllOnward offset Found.stop seen.value)
        fun fuel => (Checker.grammar g).choiceAt (runWithin (L := L) fuel) setting offset := by
    simp only [Checker.choiceAt]
    refine (h setting .beginning _ (same ▸ ready)).bind fun seen hseen => .ok ?_
    exact hseen.map fun m hm => hm
  refine ⟨fun ready => ?_, choice, choice⟩
  simp only [Checker.lengthAt]
  exact h.lengthAt (same ▸ ready)

end Checker.Halts

/-! ## Attempts -/

/-- A checker that is matched at once, by attempts that come to an end. -/
structure Checker.AtOnce (L : Type) [FailureLog L] (env : TypeEnv) (may : Prop) (c : Checker) :
    Prop where
  halts : c.Halts L env may
  rereads : c.rereads = true → may
  closed : ∀ g, c = .grammar g → Strategy.standard.opens g = false

/-- The type referred to is there, and gives a checker that is matched at once. -/
def TypeEnv.Answers (L : Type) [FailureLog L] (env : TypeEnv) (may : Prop) (r : TypeRef) : Prop :=
  ∃ type, env.find? r.name = some type ∧
    ∀ host, ∃ c, env.supply host r.param type = .ok (.ok c) ∧ c.AtOnce L env may

/-- All that a search does with the entry comes to an end, short of walking its grammar. -/
structure Entry.Halts (L : Type) [FailureLog L] (env : TypeEnv) (may : Prop) (entry : Entry) :
    Prop where
  checker : ∀ c, entry.target = .checker c → c.Halts L env may
  ref : ∀ r, entry.target = .ref r → env.Answers L may r
  type : ∀ t, entry.target ≠ .type t
  second : ∀ g, entry.secondary = some g → g.Halts L env may

/-- A match is read again unless it ends past the text. -/
theorem Entry.reread_concludes {entry : Entry} (hentry : entry.Halts L env may)
    (ready : setting.Ready env may entry.rereads offset) {found : Found}
    (honward : setting.text.Onward offset found.stop) : Concludes (Stop.Beyond may) (fun _ => True)
      fun fuel => entry.reread (runWithin (L := L) fuel) setting offset found := by
  cases hs : entry.secondary with
  | none =>
    simp only [Entry.reread, hs]
    exact .ok trivial
  | some g =>
    simp only [Entry.reread, hs]
    split
    · next hstop =>
      exact (hentry.second g hs _ .whole offset (ready.part honward hstop)).bind
        fun seen _ => .ok trivial
    · next hstop =>
      rw [Entry.rereads_of_second hs] at ready
      exact .error ⟨ready.beyond honward hstop, rfl⟩

theorem Entry.complete_concludes {entry : Entry} (hentry : entry.Halts L env may)
    (ready : setting.Ready env may entry.rereads offset) {found : Found}
    (honward : setting.text.Onward offset found.stop) (use : Option TypeUse) :
    Concludes (Stop.Beyond may) (fun _ => True)
      fun fuel => entry.complete (runWithin (L := L) fuel) setting offset found use := by
  simp only [Entry.complete]
  refine (Entry.reread_concludes hentry ready honward).bind fun seen _ => ?_
  obtain ⟨_ | kept, failures⟩ := seen
  · exact .ok trivial
  cases use with
  | none => exact .ok trivial
  | some use =>
    simp only
    split
    · exact .ok trivial
    · exact .ok trivial

/-- An attempt leads on in the text, or walks the grammar of the entry. -/
def Attempt.Onward (text : Text) (entry : Entry) (offset : Nat) : Attempt → Prop
  | .matched stop _ => text.Onward offset stop
  | .opens g _ => entry.target = .checker (.grammar g)
  | .failed => True

namespace Machine

/-- The checkers that a search keeps are matched at once. -/
def Given (env : TypeEnv) (may : Prop) (m : Machine L) : Prop :=
  ∀ kept ∈ m.checkers, kept.2.AtOnce L env may

/-- An attempt changes nothing but the failures met and the checkers kept. -/
structure Tried (env : TypeEnv) (may : Prop) (text : Text) (entry : Entry) (m : Machine L)
    (r : Machine L × Attempt) : Prop where
  machine : ∃ failures checkers, r.1 = { m with failures, checkers }
  given : r.1.Given env may
  attempt : r.2.Onward text entry m.offset

variable {m : Machine L} {entry : Entry}

theorem matchChecker_concludes (ready : setting.Ready env may entry.rereads m.offset)
    (given : m.Given env may) (hentry : entry.Halts L env may) {c : Checker}
    (hc : c.Halts L env may) (hready : setting.Ready env may c.rereads m.offset)
    (use : Option TypeUse) : Concludes (Stop.Beyond may) (Tried env may setting.text entry m)
      fun fuel => m.matchChecker (runWithin (L := L) fuel) setting entry c use := by
  simp only [matchChecker]
  refine (hc.found (hready.inner m)).bind fun seen hseen => ?_
  obtain ⟨_ | found, failures⟩ := seen
  · exact .ok ⟨⟨_, _, rfl⟩, given, trivial⟩
  have honward : setting.text.Onward m.offset found.stop := hseen found rfl
  refine (Entry.complete_concludes hentry (ready.inner m) honward use).bind fun completed _ => ?_
  obtain ⟨_ | nodes, later⟩ := completed
  · exact .ok ⟨⟨_, _, rfl⟩, given, trivial⟩
  · exact .ok ⟨⟨_, _, rfl⟩, given, honward⟩

/-- A type gives a checker that is matched at once, whether it was asked before or not. -/
theorem checkerOf_concludes (hknown : setting.types = env) (given : m.Given env may)
    {use : TypeUse} (hsupply : ∀ host, ∃ c,
      env.supply host use.param use.type = .ok (.ok c) ∧ c.AtOnce L env may) :
    Concludes (Stop.Beyond may) (fun r => (∃ checkers, r.1 = { m with checkers }) ∧
      r.1.Given env may ∧ r.2.AtOnce L env may) fun _ => m.checkerOf setting use := by
  simp only [checkerOf, hknown]
  split
  · next c hlookup =>
    refine .ok ⟨⟨_, rfl⟩, given, ?_⟩
    split at hlookup
    · obtain ⟨l₁, l₂, hl, _⟩ := List.lookup_eq_some_iff.mp hlookup
      exact given _ (hl ▸ List.mem_append_right l₁ List.mem_cons_self)
    · cases hlookup
  · obtain ⟨c, hc, honce⟩ := hsupply ⟨setting.text, m.offset, (m.inner setting).outer⟩
    simp only [hc]
    refine .ok ⟨?_, ?_, honce⟩
    · split
      · exact ⟨_, rfl⟩
      · exact ⟨_, rfl⟩
    · split
      · exact List.forall_mem_cons.mpr ⟨honce, given⟩
      · exact given

/-- A checker that a type gives is never walked. -/
theorem attemptType_concludes (ready : setting.Ready env may entry.rereads m.offset)
    (given : m.Given env may) (hentry : entry.Halts L env may) {use : TypeUse}
    (hsupply : ∀ host, ∃ c, env.supply host use.param use.type = .ok (.ok c) ∧
      c.AtOnce L env may) : Concludes (Stop.Beyond may) (Tried env may setting.text entry m)
        fun fuel => m.attemptType (runWithin (L := L) fuel) setting entry use := by
  simp only [attemptType]
  refine (checkerOf_concludes ready.known given hsupply).bind fun r hr => ?_
  obtain ⟨_, c⟩ := r
  obtain ⟨⟨checkers, rfl⟩, given', honce⟩ := hr
  have hready : setting.Ready env may c.rereads m.offset :=
    ready.mono fun hr => .inl (honce.rereads hr)
  have hmatch := (matchChecker_concludes (m := { m with checkers }) ready given' hentry honce.halts
    hready (some use)).mono fun r htried => by
      obtain ⟨failures, kept, hr⟩ := htried.machine
      exact (⟨⟨failures, kept, hr⟩, htried.given, htried.attempt⟩ :
        Tried env may setting.text entry m r)
  cases c with
  | grammar g =>
    simp only [attemptChecker, ready.standard, honce.closed g rfl, Bool.false_eq_true, if_false]
    exact hmatch
  | _ => exact hmatch

/-- **An attempt at an entry comes to an end.** -/
theorem attempt_concludes (ready : setting.Ready env may entry.rereads m.offset)
    (given : m.Given env may) (hentry : entry.Halts L env may) :
    Concludes (Stop.Beyond may) (Tried env may setting.text entry m)
      fun fuel => m.attempt (runWithin (L := L) fuel) setting entry := by
  simp only [attempt]
  cases ht : entry.target with
  | checker c =>
    have hmatch := matchChecker_concludes ready given hentry (hentry.checker c ht)
      (ready.mono fun hr => .inr (Entry.rereads_of_target ht hr)) none
    cases c with
    | grammar g =>
      simp only [attemptChecker]
      split
      · exact .ok ⟨⟨_, _, rfl⟩, given, ht⟩
      · exact hmatch
    | _ => exact hmatch
  | ref r =>
    obtain ⟨type, hfind, hsupply⟩ := hentry.ref r ht
    simp only [ready.known, hfind]
    exact attemptType_concludes ready given hentry hsupply
  | type t => exact absurd ht (hentry.type t)

end Machine

end TextGrammar
