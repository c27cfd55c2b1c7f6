/-
What a grammar can match from an offset on, without a machine: the ordered list
of its outcomes, by recursion over its entries. A search answers with the first
of them; the others are what it comes back for when something later fails.

Everything stays in the text: an outcome from an offset inside the text ends
between that offset and the end of the text (`Grammar.outcomes_within`).
-/
import Mathlib.Algebra.GroupWithZero.Nat
import TextGrammar.Proofs.Parts

namespace TextGrammar

/-- The same outcome, with nodes found before it. -/
def Match.after (nodes : List Node) (m : Match) : Match := ⟨m.stop, nodes ++ m.nodes⟩

@[simp] theorem Match.after_stop (nodes : List Node) (m : Match) : (m.after nodes).stop = m.stop :=
  rfl

/-- A match of so many characters without nodes. -/
def Found.leaf (offset : Nat) (length : Option Nat) : Option Found :=
  length.map fun n => ⟨offset + n, [], false⟩

/-- What an entry does after a number of repeats. -/
inductive Plan where
  | stop
  /-- One repeat more is required. -/
  | go
  | stopThenGo
  | goThenStop
  /-- To stop only where there is no repeat more. -/
  | goOrStop

def Quantifier.plan (q : Quantifier) (repeats : Nat) : Plan :=
  if q.isZero || q.isFull repeats then .stop
  else if repeats < q.lower then .go
  else match q.greediness with
    | .minimum => .stopThenGo
    | .maximum => .goThenStop
    | .possessive => .goOrStop

/-- The outcomes of an entry that is matched `repeats` times up to `offset`: to stop there, and to
go on with any outcome of one repeat more. A repeat that takes no characters ends the entry. -/
def Quantifier.outcomes (q : Quantifier) (size : Nat) (once : Nat → List Match)
    (stuck : Nat → Bool) (repeats offset : Nat) : List Match :=
  let stop : List Match := [⟨offset, []⟩]
  let more := (once offset).flatMap fun m =>
    if offset < m.stop ∧ m.stop ≤ size then
      (q.outcomes size once stuck (repeats + 1) m.stop).map (.after m.nodes)
    else [m]
  match q.plan repeats with
  | .stop => stop
  | .go => more
  | .stopThenGo => stop ++ more
  | .goThenStop => more ++ stop
  | .goOrStop => if stuck offset then stop else more
termination_by size - offset

/-- Where columns side by side start and stop. -/
def Region.layout (size : Nat) : (start : Nat) → List Region → List (Nat × Nat)
  | _, [] => []
  | start, region :: regions =>
    let stop := region.width.elim size (start + ·)
    (start, stop) :: layout size stop regions

section

variable (opens : Grammar → Bool) (classes : CharClasses)

/-- The target is a grammar to be walked by the search itself. -/
def Target.isWalked : Target → Bool
  | .checker (.grammar g) => opens g
  | _ => false

mutual

/-- The outcomes of a grammar from an offset on, the first one first. -/
def Grammar.outcomes : Grammar → Text → Nat → List Match
  | ⟨entries⟩, text, offset => Entry.allOutcomes entries text offset

/-- Outcomes of entries one after the other. -/
def Entry.allOutcomes : List Entry → Text → Nat → List Match
  | [], _, offset => [⟨offset, []⟩]
  | entry :: entries, text, offset =>
    (Entry.outcomes entry text offset).flatMap fun m =>
      (Entry.allOutcomes entries text m.stop).map (.after m.nodes)

/-- Outcomes of an entry with all its repeats. A secondary grammar keeps those outcomes of a repeat
that it matches entirely. An entry that is stuck takes no repeat more; one whose target is walked is
not stuck where the target has an outcome, whatever the secondary grammar says of it. -/
def Entry.outcomes : Entry → Text → Nat → List Match
  | ⟨capture, target, q, none⟩, text, offset =>
    let once (offset : Nat) : List Match :=
      (Target.outcomes target text offset).map fun found =>
        ⟨found.stop, Entry.untypedNodes ⟨capture, target, q, none⟩ offset found⟩
    q.outcomes text.size once (fun offset => (once offset).isEmpty) 0 offset
  | ⟨capture, target, q, some second⟩, text, offset =>
    let once (offset : Nat) : List Match :=
      (Target.outcomes target text offset).filterMap fun found =>
        ((Grammar.outcomes second (text.slice 0 found.stop) offset).find?
            (·.stop == found.stop)).map fun m =>
          ⟨found.stop, Entry.untypedNodes ⟨capture, target, q, some second⟩ offset
            ⟨found.stop, m.nodes, true⟩⟩
    let stuck (offset : Nat) : Bool :=
      if target.isWalked opens then (Target.outcomes target text offset).isEmpty
      else (once offset).isEmpty
    q.outcomes text.size once stuck 0 offset

/-- Outcomes of one repeat. A grammar that is walked offers all of its outcomes, and everything else
at most one. -/
def Target.outcomes : Target → Text → Nat → List Found
  | .checker (.grammar g), text, offset =>
    let all := (Grammar.outcomes g text offset).map Match.found
    if opens g then all else all.take 1
  | .checker (.fixed regions), text, offset =>
    if offset + Region.declaredWidth regions ≤ text.size && Region.accept regions text offset then
      let spans := Region.layout text.size offset regions
      [⟨lastStop offset spans, Region.nodes regions spans, false⟩]
    else []
  | .checker c, text, offset => (Checker.found c text offset).toList
  | .ref _, _, _ | .type _, _, _ => []

/-- The one match of a checker on its own: of a grammar the first outcome, of an alternative the
longest match. -/
def Checker.found : Checker → Text → Nat → Option Found
  | .char set, text, offset =>
    Found.leaf offset (match text[offset]? with
      | some c => if set.contains classes c then some 1 else none
      | none => none)
  | .word w, text, offset => Found.leaf offset (w.lengthAt text offset)
  | .any width, text, offset => Found.leaf offset (Checker.anyLengthAt width text offset)
  | .oneOf choices fallback, text, offset =>
    match Checker.longestFound choices text offset with
    | some found => some found
    | none => Checker.fallbackFound fallback text offset
  | .not item, text, offset =>
    Found.leaf offset (if text.size ≤ offset then some 0
      else match Checker.found item text offset with
        | some _ => none
        | none => some 1)
  | .fixed regions, text, offset =>
    if offset + Region.declaredWidth regions ≤ text.size && Region.accept regions text offset then
      some ⟨lastStop offset (Region.layout text.size offset regions), [], false⟩
    else none
  | .grammar g, text, offset => (Grammar.outcomes g text offset).head?.map Match.found

/-- The longest match among choices; of equally long ones that of the last choice. -/
def Checker.longestFound : List Checker → Text → Nat → Option Found
  | [], _, _ => none
  | c :: cs, text, offset =>
    longer (Checker.longestFound cs text offset) (Checker.found c text offset)

def Checker.fallbackFound : Option Checker → Text → Nat → Option Found
  | none, _, _ => none
  | some c, text, offset => Checker.found c text offset

/-- The grammar of each column matches all of the column. -/
def Region.accept : List Region → Text → Nat → Bool
  | [], _, _ => true
  | region :: regions, text, start =>
    let stop := region.width.elim text.size (start + ·)
    Region.accepts region (text.slice start stop) && Region.accept regions text stop

def Region.accepts : Region → Text → Bool
  | ⟨_, _, none⟩, _ => true
  | ⟨_, _, some g⟩, text => (Grammar.outcomes g text 0).any (·.stop == text.size)

end

end

/-! ## Repeats -/

/-- Induction along the repeats of an entry: each that takes characters leaves fewer in the text. -/
theorem Quantifier.room_induction (size : Nat) {p : Nat → Nat → Prop}
    (step : ∀ repeats offset,
      (∀ repeats' offset', offset < offset' → offset' ≤ size → p repeats' offset') →
        p repeats offset) (repeats offset : Nat) : p repeats offset := by
  induction h : size - offset using Nat.strongRecOn generalizing repeats offset with
  | ind room ih =>
    refine step repeats offset fun repeats' offset' hlt hle => ?_
    exact ih (size - offset') (by omega) repeats' offset' rfl

/-- What follows one repeat more. -/
def Match.goOn (size offset : Nat) (next : Nat → List Match) (m : Match) : List Match :=
  if offset < m.stop ∧ m.stop ≤ size then (next m.stop).map (.after m.nodes) else [m]

theorem Quantifier.outcomes_eq (q : Quantifier) (size : Nat) (once : Nat → List Match)
    (stuck : Nat → Bool) (repeats offset : Nat) :
    q.outcomes size once stuck repeats offset =
      let more := (once offset).flatMap
        (Match.goOn size offset (q.outcomes size once stuck (repeats + 1)))
      match q.plan repeats with
      | .stop => [⟨offset, []⟩]
      | .go => more
      | .stopThenGo => ⟨offset, []⟩ :: more
      | .goThenStop => more ++ [⟨offset, []⟩]
      | .goOrStop => if stuck offset then [⟨offset, []⟩] else more := by
  rw [Quantifier.outcomes]
  rfl

/-- An outcome of an entry is to stop, or one that follows one repeat more. -/
theorem Quantifier.mem_outcomes {q : Quantifier} {size : Nat} {once : Nat → List Match}
    {stuck : Nat → Bool} {repeats offset : Nat} {m : Match}
    (h : m ∈ q.outcomes size once stuck repeats offset) :
    m = ⟨offset, []⟩ ∨ ∃ x ∈ once offset,
      m ∈ x.goOn size offset (q.outcomes size once stuck (repeats + 1)) := by
  rw [Quantifier.outcomes_eq] at h
  cases hp : q.plan repeats <;> simp only [hp] at h
  case stop => exact .inl (List.mem_singleton.mp h)
  case go => exact .inr (List.mem_flatMap.mp h)
  case stopThenGo => exact (List.mem_cons.mp h).imp id List.mem_flatMap.mp
  case goThenStop =>
    exact (List.mem_append.mp h).symm.imp List.mem_singleton.mp List.mem_flatMap.mp
  case goOrStop =>
    split at h
    · exact .inl (List.mem_singleton.mp h)
    · exact .inr (List.mem_flatMap.mp h)

/-- Repeats that stay in the text keep the whole entry in the text. -/
theorem Quantifier.outcomes_within {q : Quantifier} {size : Nat} {once : Nat → List Match}
    {stuck : Nat → Bool}
    (honce : ∀ offset ≤ size, ∀ m ∈ once offset, offset ≤ m.stop ∧ m.stop ≤ size)
    (repeats offset : Nat) : offset ≤ size → ∀ m ∈ q.outcomes size once stuck repeats offset,
      offset ≤ m.stop ∧ m.stop ≤ size := by
  induction repeats, offset using Quantifier.room_induction size with
  | step repeats offset ih =>
  intro hoff m hm
  rcases Quantifier.mem_outcomes hm with rfl | ⟨x, hx, hm⟩
  · exact ⟨Nat.le_refl _, hoff⟩
  simp only [Match.goOn] at hm
  split at hm
  · next hgo =>
    obtain ⟨y, hy, rfl⟩ := List.mem_map.mp hm
    have := ih (repeats + 1) x.stop hgo.1 hgo.2 hgo.2 y hy
    simp only [Match.after_stop]
    omega
  · cases List.mem_singleton.mp hm
    exact honce offset hoff m hx

/-! ## Columns -/

theorem addSaturating_foldl {widths : List Nat} {start : Nat} (h : start ≤ maxCount) :
    widths.foldl addSaturating start = min (start + widths.sum) maxCount := by
  induction widths generalizing start with
  | nil => simp [h]
  | cons w widths ih =>
    rw [List.foldl_cons, ih (by simp only [addSaturating]; omega), List.sum_cons]
    simp only [addSaturating]
    omega

/-- Columns that fit into a text have their widths in it, without any having been cut short. -/
theorem Region.declaredWidth_eq {regions : List Region}
    (h : Region.declaredWidth regions < maxCount) :
    Region.declaredWidth regions = (regions.filterMap Region.width).sum := by
  rw [Region.declaredWidth, addSaturating_foldl (Nat.zero_le _)] at h ⊢
  omega

theorem Region.AreColumns.dropLast {regions : List Region} (h : Region.AreColumns regions) :
    ∀ region ∈ regions.dropLast, region.width.isSome := by
  intro region hmem
  simp only [Region.AreColumns, Checker.fixed?] at h
  split at h
  · cases h
  split at h
  · cases h
  next hany =>
    simp only [List.any_eq_true, not_exists, not_and] at hany
    simpa [Option.isSome_iff_ne_none] using hany region hmem

theorem lastStop_cons (offset : Nat) (span : Nat × Nat) (spans : List (Nat × Nat)) :
    lastStop offset (span :: spans) = lastStop span.2 spans := by
  cases spans with
  | nil => rfl
  | cons s spans =>
    simp only [lastStop, List.getLast?_cons_cons,
      List.getLast?_eq_some_getLast (List.cons_ne_nil s spans)]

/-- Columns whose widths fit lie in the text. -/
theorem Region.layout_each {size : Nat} {regions : List Region} {start : Nat}
    (bounded : ∀ region ∈ regions.dropLast, region.width.isSome)
    (fit : start + (regions.filterMap Region.width).sum ≤ size) :
    ∀ span ∈ Region.layout size start regions,
      start ≤ span.1 ∧ span.1 ≤ span.2 ∧ span.2 ≤ size := by
  induction regions generalizing start with
  | nil => exact fun _ hspan => nomatch hspan
  | cons region regions ih =>
    rw [Region.layout]
    cases hw : region.width with
    | some w =>
      simp only [List.filterMap_cons, hw, List.sum_cons] at fit
      have hrest : start + w + (regions.filterMap Region.width).sum ≤ size := by omega
      have hbounded : ∀ r ∈ regions.dropLast, r.width.isSome :=
        fun r hr => bounded r (by cases regions <;> simp_all [List.dropLast])
      simp only [Option.elim]
      refine List.forall_mem_cons.mpr ⟨⟨Nat.le_refl _, ?_, ?_⟩, fun span hspan => ?_⟩
      · simp only
        omega
      · simp only
        omega
      · obtain ⟨h₁, h₂, h₃⟩ := ih hbounded hrest span hspan
        exact ⟨by omega, h₂, h₃⟩
    | none =>
      -- only the last column is without a width
      cases regions with
      | nil =>
        simp only [Option.elim, Region.layout]
        have : start ≤ size := by omega
        exact List.forall_mem_cons.mpr ⟨⟨Nat.le_refl _, this, Nat.le_refl _⟩, fun _ h => nomatch h⟩
      | cons r rs =>
        have := bounded region (by simp [List.dropLast])
        simp [hw] at this

/-- The last of some spans in a text ends in the text. -/
theorem lastStop_within {size start : Nat} {spans : List (Nat × Nat)} (hstart : start ≤ size)
    (h : ∀ span ∈ spans, start ≤ span.1 ∧ span.1 ≤ span.2 ∧ span.2 ≤ size) :
    start ≤ lastStop start spans ∧ lastStop start spans ≤ size := by
  simp only [lastStop]
  split
  · next last hlast =>
    have := h _ (List.mem_of_getLast? hlast)
    omega
  · exact ⟨Nat.le_refl _, hstart⟩

/-! ## Outcomes stay in the text -/

section

variable {opens : Grammar → Bool} {classes : CharClasses}

theorem Found.leaf_within {offset size : Nat} {length : Option Nat} {found : Found}
    (h : Found.leaf offset length = some found) (hlen : ∀ n, length = some n → offset + n ≤ size) :
    offset ≤ found.stop ∧ found.stop ≤ size := by
  obtain ⟨n, hn, rfl⟩ := Option.map_eq_some_iff.mp h
  exact ⟨Nat.le_add_right _ _, hlen n hn⟩

theorem Word.lengthAt_within {w : Word} {text : Text} {offset n : Nat} (hoff : offset ≤ text.size)
    (h : w.lengthAt text offset = some n) : offset + n ≤ text.size := by
  have hasAt : ∀ (cs : List Char) (o : Nat), o ≤ text.size → text.hasAt o cs = true →
      o + cs.length ≤ text.size := by
    intro cs
    induction cs with
    | nil => intro o ho _; simpa using ho
    | cons c cs ih =>
      intro o ho hc
      simp only [Text.hasAt, Bool.and_eq_true, beq_iff_eq] at hc
      have hlt : o < text.size := by
        have := hc.1
        rw [Array.getElem?_eq_some_iff] at this
        exact this.1
      have := ih (o + 1) hlt hc.2
      simp only [List.length_cons]
      omega
  simp only [Word.lengthAt] at h
  split at h
  · next hc =>
    cases h
    simpa [Word.chars, Word.length] using hasAt w.chars offset hoff hc
  · cases h

theorem Checker.anyLengthAt_within {width : Option Nat} {text : Text} {offset n : Nat}
    (hoff : offset ≤ text.size) (h : Checker.anyLengthAt width text offset = some n) :
    offset + n ≤ text.size := by
  cases width with
  | none =>
    simp only [Checker.anyLengthAt, hoff, ite_true, Option.some.injEq] at h
    omega
  | some w =>
    cases w with
    | zero => cases h; simpa using hoff
    | succ w =>
      simp only [Checker.anyLengthAt] at h
      split at h
      · cases h; assumption
      · cases h

theorem Region.AreColumns.layout_each {regions : List Region} (h : Region.AreColumns regions)
    {size offset : Nat} (fits : size < maxCount)
    (fit : offset + Region.declaredWidth regions ≤ size) :
    ∀ span ∈ Region.layout size offset regions,
      offset ≤ span.1 ∧ span.1 ≤ span.2 ∧ span.2 ≤ size := by
  have hlt : Region.declaredWidth regions < maxCount := by omega
  have hw := Region.declaredWidth_eq hlt
  exact Region.layout_each h.dropLast (by omega)

theorem Region.AreColumns.layout_within {regions : List Region} (h : Region.AreColumns regions)
    {size offset : Nat} (fits : size < maxCount)
    (fit : offset + Region.declaredWidth regions ≤ size) :
    offset ≤ lastStop offset (Region.layout size offset regions) ∧
      lastStop offset (Region.layout size offset regions) ≤ size := by
  exact lastStop_within (by omega) (h.layout_each fits fit)

mutual

/-- **Outcomes stay in the text.** From an offset in the text every outcome of a grammar ends
between that offset and the end of the text. -/
theorem Grammar.outcomes_within : ∀ {g : Grammar} {text : Text} {offset : Nat}, g.Built →
    text.size < maxCount → offset ≤ text.size → ∀ m ∈ g.outcomes opens classes text offset,
      offset ≤ m.stop ∧ m.stop ≤ text.size
  | ⟨_⟩, _, _, built, fits, hoff => fun m hm =>
    Entry.allOutcomes_within built fits hoff m (by simpa only [Grammar.outcomes] using hm)

theorem Entry.allOutcomes_within : ∀ {es : List Entry} {text : Text} {offset : Nat},
    Entry.EveryOf (fun _ => True) Region.AreColumns es →
    text.size < maxCount → offset ≤ text.size →
      ∀ m ∈ Entry.allOutcomes opens classes es text offset, offset ≤ m.stop ∧ m.stop ≤ text.size
  | [], _, _, _, _, hoff => fun m hm => by
    simp only [Entry.allOutcomes, List.mem_singleton] at hm
    subst hm
    exact ⟨Nat.le_refl _, hoff⟩
  | _ :: _, _, _, built, fits, hoff => fun m hm => by
    simp only [Entry.allOutcomes, List.mem_flatMap, List.mem_map] at hm
    obtain ⟨x, hx, y, hy, rfl⟩ := hm
    have h₁ := Entry.outcomes_within built.1 fits hoff x hx
    have h₂ := Entry.allOutcomes_within built.2 fits h₁.2 y hy
    simp only [Match.after_stop]
    omega

theorem Entry.outcomes_within : ∀ {e : Entry} {text : Text} {offset : Nat},
    e.Every (fun _ => True) Region.AreColumns → text.size < maxCount → offset ≤ text.size →
      ∀ m ∈ e.outcomes opens classes text offset, offset ≤ m.stop ∧ m.stop ≤ text.size
  | ⟨_, _, _, none⟩, _, _, built, fits, hoff => by
    simp only [Entry.outcomes]
    refine Quantifier.outcomes_within (fun o ho m hm => ?_) _ _ hoff
    obtain ⟨found, hf, rfl⟩ := List.mem_map.mp hm
    exact Target.outcomes_within built.2.1 fits ho found hf
  | ⟨_, _, _, some _⟩, _, _, built, fits, hoff => by
    simp only [Entry.outcomes]
    refine Quantifier.outcomes_within (fun o ho m hm => ?_) _ _ hoff
    obtain ⟨found, hf, hm⟩ := List.mem_filterMap.mp hm
    obtain ⟨x, _, rfl⟩ := Option.map_eq_some_iff.mp hm
    exact Target.outcomes_within built.2.1 fits ho found hf

theorem Target.outcomes_within : ∀ {t : Target} {text : Text} {offset : Nat},
    t.Every (fun _ => True) Region.AreColumns → text.size < maxCount → offset ≤ text.size →
      ∀ found ∈ t.outcomes opens classes text offset, offset ≤ found.stop ∧ found.stop ≤ text.size
  | .checker c, text, offset, built, fits, hoff => fun found hf => by
    cases c with
    | grammar g =>
      have all : found ∈ (g.outcomes opens classes text offset).map Match.found := by
        simp only [Target.outcomes] at hf
        split at hf
        · exact hf
        · exact List.mem_of_mem_take hf
      obtain ⟨m, hm, rfl⟩ := List.mem_map.mp all
      exact Grammar.outcomes_within (g := g) built fits hoff m hm
    | fixed regions =>
      simp only [Target.outcomes] at hf
      split at hf
      · next hfit =>
        simp only [Bool.and_eq_true, decide_eq_true_eq] at hfit
        cases List.mem_singleton.mp hf
        exact built.1.layout_within fits hfit.1
      · cases hf
    | _ =>
      exact Checker.found_within built fits hoff found
        (by simpa only [Target.outcomes, Option.mem_toList] using hf)
  | .ref _, _, _, _, _, _ | .type _, _, _, _, _, _ => fun _ hf => by
    simp only [Target.outcomes, List.not_mem_nil] at hf

theorem Checker.found_within : ∀ {c : Checker} {text : Text} {offset : Nat},
    c.Every (fun _ => True) Region.AreColumns → text.size < maxCount → offset ≤ text.size →
      ∀ found, c.found opens classes text offset = some found →
        offset ≤ found.stop ∧ found.stop ≤ text.size
  | .char _, text, offset, _, _, _ => fun found h => by
    simp only [Checker.found] at h
    refine Found.leaf_within h fun n hn => ?_
    split at hn
    · next c hc =>
      have := (Array.getElem?_eq_some_iff.mp hc).1
      split at hn <;> cases hn
      omega
    · cases hn
  | .word _, _, _, _, _, hoff => fun found h => by
    simp only [Checker.found] at h
    exact Found.leaf_within h fun n hn => Word.lengthAt_within hoff hn
  | .any _, _, _, _, _, hoff => fun found h => by
    simp only [Checker.found] at h
    exact Found.leaf_within h fun n hn => Checker.anyLengthAt_within hoff hn
  | .oneOf _ _, _, _, built, fits, hoff => fun found h => by
    simp only [Checker.found] at h
    split at h
    · next hl => cases h; exact Checker.longestFound_within built.1 fits hoff _ hl
    · exact Checker.fallbackFound_within built.2 fits hoff _ h
  | .not _, text, offset, _, _, hoff => fun found h => by
    simp only [Checker.found] at h
    refine Found.leaf_within h fun n hn => ?_
    split at hn
    · cases hn; omega
    · split at hn <;> cases hn
      omega
  | .fixed _, _, _, built, fits, hoff => fun found h => by
    simp only [Checker.found] at h
    split at h
    · next hfit =>
      simp only [Bool.and_eq_true, decide_eq_true_eq] at hfit
      cases h
      exact built.1.layout_within fits hfit.1
    · cases h
  | .grammar g, _, _, built, fits, hoff => fun found h => by
    simp only [Checker.found, Option.map_eq_some_iff] at h
    obtain ⟨m, hm, rfl⟩ := h
    exact Grammar.outcomes_within (g := g) built fits hoff m (List.mem_of_head? hm)

theorem Checker.longestFound_within : ∀ {cs : List Checker} {text : Text} {offset : Nat},
    Checker.EveryOf (fun _ => True) Region.AreColumns cs → text.size < maxCount →
      offset ≤ text.size → ∀ found, Checker.longestFound opens classes cs text offset = some found →
        offset ≤ found.stop ∧ found.stop ≤ text.size
  | [], _, _, _, _, _ => fun _ h => by simp [Checker.longestFound] at h
  | _ :: _, _, _, built, fits, hoff => fun found h => by
    simp only [Checker.longestFound] at h
    rcases eq_or_eq_of_further h with h | h
    · exact Checker.longestFound_within built.2 fits hoff _ h
    · exact Checker.found_within built.1 fits hoff _ h

theorem Checker.fallbackFound_within : ∀ {c : Option Checker} {text : Text} {offset : Nat},
    Checker.EveryIn (fun _ => True) Region.AreColumns c → text.size < maxCount →
      offset ≤ text.size → ∀ found, Checker.fallbackFound opens classes c text offset = some found →
        offset ≤ found.stop ∧ found.stop ≤ text.size
  | none, _, _, _, _, _ => fun _ h => by simp [Checker.fallbackFound] at h
  | some c, _, _, built, fits, hoff => fun found h => by
    simp only [Checker.fallbackFound] at h
    exact Checker.found_within (c := c) built fits hoff found h

end

end

end TextGrammar
