/-
Columns of records. Before columns are cut out of a text, only the sum of their
widths is asked for, and that is kept no further than counts go. It is enough:
a record matches exactly where the true sum leaves room in the text and each
grammar of a column takes all of its column. The columns then lie side by side,
all sums on the way are counts, all parts cut out lie in the text, and the length
of the match is that of the columns together.
-/
import TextGrammar.Proofs.Attempts

namespace TextGrammar

/-! ## Where columns lie -/

/-- Columns side by side from `start` on. Each has its width, and one without a width goes up to the
end of a text of this size. -/
inductive Region.LaidOut (size : Nat) : (start : Nat) → List Region → List (Nat × Nat) → Prop
  | nil {start : Nat} : LaidOut size start [] []
  | bounded {start width : Nat} {region : Region} {regions : List Region}
      {spans : List (Nat × Nat)} (hwidth : region.width = some width)
      (h : LaidOut size (start + width) regions spans) :
      LaidOut size start (region :: regions) ((start, start + width) :: spans)
  | unbounded {start : Nat} {region : Region} {regions : List Region}
      {spans : List (Nat × Nat)} (hwidth : region.width = none)
      (h : LaidOut size size regions spans) :
      LaidOut size start (region :: regions) ((start, size) :: spans)

namespace Region

variable {size start : Nat} {regions : List Region} {spans : List (Nat × Nat)}

theorem laidOut_cons_iff {region : Region} :
    LaidOut size start (region :: regions) spans ↔
      ∃ later, spans = (start, region.width.elim size (start + ·)) :: later ∧
        LaidOut size (region.width.elim size (start + ·)) regions later := by
  constructor
  · rintro (_ | ⟨hwidth, h⟩ | ⟨hwidth, h⟩)
    · exact ⟨_, by rw [hwidth, Option.elim], by rwa [hwidth, Option.elim]⟩
    · exact ⟨_, by rw [hwidth, Option.elim], by rwa [hwidth, Option.elim]⟩
  · rintro ⟨later, rfl, h⟩
    cases hwidth : region.width with
    | some width =>
      rw [hwidth] at h
      exact .bounded hwidth h
    | none =>
      rw [hwidth] at h
      exact .unbounded hwidth h

/-- There is one way to lay columns out. -/
theorem laidOut_iff : LaidOut size start regions spans ↔ spans = layout size start regions := by
  induction regions generalizing start spans with
  | nil =>
    constructor
    · rintro ⟨⟩
      rfl
    · rintro rfl
      exact .nil
  | cons region regions ih =>
    rw [laidOut_cons_iff, layout]
    simp only [ih, exists_eq_right]

/-- Columns reach no further than their widths take them. -/
theorem LaidOut.each (h : LaidOut size start regions spans) : ∀ span ∈ spans,
    min start size ≤ span.2 ∧ span.2 ≤ max start size + (regions.filterMap width).sum := by
  induction h with
  | nil => exact List.forall_mem_nil _
  | bounded hwidth _ ih =>
    simp only [List.filterMap_cons, hwidth, List.sum_cons]
    refine List.forall_mem_cons.mpr ⟨by omega, fun span hspan => ?_⟩
    have := ih span hspan
    omega
  | unbounded hwidth _ ih =>
    simp only [List.filterMap_cons, hwidth]
    refine List.forall_mem_cons.mpr ⟨by omega, fun span hspan => ?_⟩
    have := ih span hspan
    omega

end Region

/-! ## Columns that match -/

section

variable {L : Type} {run : Runner L} {setting : Setting} {start : Nat} {regions : List Region}
  {spans : List (Nat × Nat)}

/-- The columns after the first are cut out once it is taken. -/
theorem Region.spansFrom_taken {region : Region} {stop : Nat}
    (hstop : region.width.elim setting.text.size (start + ·) = stop)
    (h : region.fits run setting (setting.text.slice start stop) = .ok true) :
    Region.spansFrom run setting start (region :: regions) =
      (Region.spansFrom run setting stop regions).map (Option.map ((start, stop) :: ·)) := by
  rw [Region.spansFrom_cons]
  simp only [hstop, h]
  cases Region.spansFrom run setting stop regions <;> rfl

/-- Columns are found where the grammar of each takes what lies in the column. -/
theorem Region.spansFrom_eq_some_iff :
    Region.spansFrom run setting start regions = .ok (some spans) ↔
      Region.LaidOut setting.text.size start regions spans ∧
        List.Forall₂ (fun region span =>
          region.fits run setting (setting.text.slice span.1 span.2) = .ok true) regions spans := by
  induction regions generalizing start spans with
  | nil =>
    constructor
    · rintro ⟨⟩
      exact ⟨.nil, .nil⟩
    · rintro ⟨⟨⟩, _⟩
      rfl
  | cons region regions ih =>
    obtain ⟨stop, hstop⟩ : ∃ stop, region.width.elim setting.text.size (start + ·) = stop :=
      ⟨_, rfl⟩
    rw [Region.laidOut_cons_iff, hstop]
    by_cases hfits : region.fits run setting (setting.text.slice start stop) = .ok true
    · rw [Region.spansFrom_taken hstop hfits]
      constructor
      · intro h
        cases hlater : Region.spansFrom run setting stop regions with
        | error f =>
          rw [hlater] at h
          cases h
        | ok found =>
          rw [hlater] at h
          obtain ⟨later, rfl, rfl⟩ := Option.map_eq_some_iff.mp (Except.ok.inj h)
          obtain ⟨hlaid, heach⟩ := ih.mp hlater
          exact ⟨⟨later, rfl, hlaid⟩, .cons hfits heach⟩
      · rintro ⟨⟨later, rfl, hlaid⟩, _ | ⟨_, heach⟩⟩
        rw [ih.mpr ⟨hlaid, heach⟩]
        rfl
    · -- the first column is not taken, so there are no spans of all of them
      refine iff_of_false (fun h => hfits ?_) ?_
      · rw [Region.spansFrom_cons] at h
        simp only [hstop] at h
        cases hregion : region.fits run setting (setting.text.slice start stop) with
        | error f =>
          rw [hregion] at h
          cases h
        | ok taken =>
          rw [hregion] at h
          cases taken with
          | true => rfl
          | false => cases h
      · rintro ⟨⟨later, rfl, -⟩, _ | ⟨hregion, -⟩⟩
        exact hfits hregion

/-- A record ends with one of its columns, or where it begins. -/
theorem lastStop_cases (offset : Nat) (spans : List (Nat × Nat)) :
    lastStop offset spans = offset ∨ ∃ span ∈ spans, lastStop offset spans = span.2 := by
  unfold lastStop
  split
  · next start stop hlast => exact .inr ⟨(start, stop), List.mem_of_getLast? hlast, rfl⟩
  · exact .inl rfl

/-- A record ends no earlier than it begins. -/
theorem Region.le_lastStop {offset : Nat}
    (h : Region.spansAt run setting offset regions = .ok (some spans)) :
    offset ≤ lastStop offset spans := by
  unfold Region.spansAt at h
  split at h
  · have hlaid := (Region.spansFrom_eq_some_iff.mp h).1.each
    rcases lastStop_cases offset spans with hlast | ⟨span, hspan, hlast⟩
    · exact Nat.le_of_eq hlast.symm
    · have hbounds := hlaid span hspan
      omega
  · cases h

/-- Nothing but a search for the grammar of a column keeps columns from an answer. -/
theorem Region.spansFrom_error {f : Fault}
    (h : Region.spansFrom run setting start regions = .error f) :
    ∃ column ∈ regions.zip (Region.layout setting.text.size start regions),
      column.1.fits run setting (setting.text.slice column.2.1 column.2.2) = .error f := by
  induction regions generalizing start with
  | nil => cases h
  | cons region regions ih =>
    obtain ⟨stop, hstop⟩ : ∃ stop, region.width.elim setting.text.size (start + ·) = stop :=
      ⟨_, rfl⟩
    simp only [Region.layout, hstop, List.zip_cons_cons]
    cases hregion : region.fits run setting (setting.text.slice start stop) with
    | error f' =>
      rw [Region.spansFrom_cons] at h
      simp only [hstop, hregion] at h
      cases h
      exact ⟨_, List.mem_cons_self, hregion⟩
    | ok taken =>
      cases taken with
      | false =>
        rw [Region.spansFrom_cons] at h
        simp only [hstop, hregion] at h
        cases h
      | true =>
        rw [Region.spansFrom_taken hstop hregion] at h
        cases hlater : Region.spansFrom run setting stop regions with
        | ok found =>
          rw [hlater] at h
          cases h
        | error f' =>
          rw [hlater] at h
          cases h
          obtain ⟨column, hmem, hcolumn⟩ := ih hlater
          exact ⟨column, List.mem_cons_of_mem _ hmem, hcolumn⟩

end

/-! ## Sums and parts in range -/

/-- The sum of two counts, if it is a count. -/
def addCounts? (a b : Nat) : Option Nat := if a + b ≤ maxCount then some (a + b) else none

/-- A part of the text, if it lies in the text. -/
def Text.part? (text : Text) (start stop : Nat) : Option Text :=
  if start ≤ stop ∧ stop ≤ text.size then some (text.slice start stop) else none

/-- What is asked for, or a fault where there is none. -/
def Fault.unless {α : Type} : Option α → Except Fault α
  | some a => .ok a
  | none => .error .outOfRange

/-- Where a column ends that begins at `start`, with a fault for a sum that is no count. -/
def Region.strictStop (setting : Setting) (start : Nat) (region : Region) : Except Fault Nat :=
  match region.width with
  | some width => Fault.unless (addCounts? start width)
  | none => .ok setting.text.size

/-- Whether the grammar of a column takes all of it, with a fault for a part that does not lie in
the text. -/
def Region.strictFits {L : Type} (run : Runner L) (setting : Setting) (start stop : Nat)
    (region : Region) : Except Fault Bool :=
  match region.grammar with
  | some g => do g.matchesAll run setting (← Fault.unless (setting.text.part? start stop))
  | none => .ok true

/-- Spans of the columns from `start` on, with the same faults. -/
def Region.strictSpansFrom {L : Type} (run : Runner L) (setting : Setting) :
    (start : Nat) → List Region → Except Fault (Option (List (Nat × Nat)))
  | _, [] => .ok (some [])
  | start, region :: regions => do
    let stop ← region.strictStop setting start
    if ← region.strictFits run setting start stop then
      pure ((← strictSpansFrom run setting stop regions).map ((start, stop) :: ·))
    else pure none

/-- Spans of all columns, with the same faults. A record whose end is no count does not fit. -/
def Region.strictSpansAt {L : Type} (run : Runner L) (setting : Setting) (offset : Nat)
    (regions : List Region) : Except Fault (Option (List (Nat × Nat))) :=
  match addCounts? offset (Region.declaredWidth regions) with
  | some stop =>
    if stop ≤ setting.text.size then Region.strictSpansFrom run setting offset regions else .ok none
  | none => .ok none

section

variable {L : Type} {run : Runner L} {setting : Setting} {start offset : Nat}
  {regions : List Region}

/-- A column that lies in the text is cut out, and its end is a count. -/
theorem Region.strictSpansFrom_cons {region : Region} {stop : Nat}
    (hstop : region.width.elim setting.text.size (start + ·) = stop) (hstart : start ≤ stop)
    (hsize : stop ≤ setting.text.size) (fits : setting.text.size ≤ maxCount)
    (hlater : Region.strictSpansFrom run setting stop regions =
      Region.spansFrom run setting stop regions) :
    Region.strictSpansFrom run setting start (region :: regions) =
      Region.spansFrom run setting start (region :: regions) := by
  have hend : region.strictStop setting start = .ok stop := by
    unfold Region.strictStop
    cases hwidth : region.width with
    | none => rw [← hstop, hwidth, Option.elim]
    | some width =>
      rw [hwidth] at hstop
      obtain rfl : start + width = stop := hstop
      have hcount : addCounts? start width = some (start + width) :=
        if_pos (Nat.le_trans hsize fits)
      simp only [hcount, Fault.unless]
  have hfits : region.strictFits run setting start stop =
      region.fits run setting (setting.text.slice start stop) := by
    have hpart : setting.text.part? start stop = some (setting.text.slice start stop) :=
      if_pos ⟨hstart, hsize⟩
    unfold Region.strictFits Region.fits
    rw [hpart]
    cases region.grammar <;> rfl
  rw [Region.spansFrom_cons, hstop, Region.strictSpansFrom, hend]
  simp only [Bind.bind, Except.bind, hfits, hlater]

/-- Columns with room in the text are never out of range. -/
theorem Region.strictSpansFrom_eq (fits : setting.text.size ≤ maxCount)
    (bounded : ∀ region ∈ regions.dropLast, region.width.isSome)
    (room : start + (regions.filterMap Region.width).sum ≤ setting.text.size) :
    Region.strictSpansFrom run setting start regions =
      Region.spansFrom run setting start regions := by
  induction regions generalizing start with
  | nil => rfl
  | cons region regions ih =>
    cases hwidth : region.width with
    | some width =>
      simp only [List.filterMap_cons, hwidth, List.sum_cons] at room
      have hstop : region.width.elim setting.text.size (start + ·) = start + width := by
        rw [hwidth, Option.elim]
      have hlater : ∀ r ∈ regions.dropLast, r.width.isSome := by
        cases regions with
        | nil => exact nofun
        | cons r rs => exact fun r' hr' => bounded r' (List.mem_cons_of_mem _ hr')
      exact Region.strictSpansFrom_cons hstop (Nat.le_add_right _ _) (by omega) fits
        (ih hlater (by omega))
    | none =>
      -- only the last column is without a width
      cases regions with
      | nil =>
        exact Region.strictSpansFrom_cons (by rw [hwidth, Option.elim]) (by omega) (Nat.le_refl _)
          fits rfl
      | cons r rs =>
        have := bounded region List.mem_cons_self
        rw [hwidth] at this
        cases this

/-- A record asks for nothing that is out of range. -/
theorem Region.strictSpansAt_eq (columns : Region.AreColumns regions)
    (fits : setting.text.size < maxCount) :
    Region.strictSpansAt run setting offset regions =
      Region.spansAt run setting offset regions := by
  unfold Region.strictSpansAt Region.spansAt
  by_cases hroom : offset + Region.declaredWidth regions ≤ setting.text.size
  · have hwidth : Region.declaredWidth regions = (regions.filterMap Region.width).sum :=
      Region.declaredWidth_eq (by omega)
    have hcount : addCounts? offset (Region.declaredWidth regions) =
        some (offset + Region.declaredWidth regions) := if_pos (by omega)
    simp only [hcount, if_pos hroom]
    exact Region.strictSpansFrom_eq (by omega) columns.dropLast (by omega)
  · rw [if_neg hroom]
    cases hcount : addCounts? offset (Region.declaredWidth regions) with
    | none => rfl
    | some stop =>
      have hstop : stop = offset + Region.declaredWidth regions := by
        rw [addCounts?] at hcount
        split at hcount <;> cases hcount
        rfl
      exact if_neg (hstop ▸ hroom)

end

/-! ## Records -/

/-- The grammar of the column takes all that lies in the span. -/
def Region.Takes (fuel : Nat) (types : TypeEnv) (text : Text) (region : Region) (span : Nat × Nat) :
    Prop :=
  ∀ g, region.grammar = some g →
    ∃ tree, g.matchWhole fuel types (text.slice span.1 span.2) = .ok tree

section

variable {fuel : Nat} {types : TypeEnv} {text : Text} {region : Region} {regions : List Region}
  {span : Nat × Nat} {offset : Nat}

/-- For the grammar of a column, to take all of a part is to match that text as a whole. -/
theorem Grammar.matchesAll_eq (g : Grammar) (part : Text) :
    g.matchesAll (searchWithin fuel) (types.setting text) part =
      match g.matchWhole fuel types part with
      | .ok _ => .ok true
      | .error (.refused _) => .ok false
      | .error (.fault f) => .error f := by
  have hsetting : { (types.setting text).alone with text := part } = types.setting part := rfl
  simp only [Grammar.matchesAll, Grammar.matchWhole, Grammar.matchFrom, hsetting]
  cases searchWithin fuel (types.setting part) .whole g 0 with
  | error stop => cases stop <;> rfl
  | ok seen => obtain ⟨_ | m, failures⟩ := seen <;> rfl

theorem Region.fits_eq_true_iff :
    region.fits (searchWithin fuel) (types.setting text) (text.slice span.1 span.2) = .ok true ↔
      region.Takes fuel types text span := by
  obtain ⟨name, width, _ | g⟩ := region
  · exact iff_of_true rfl nofun
  · simp only [Region.fits, Region.Takes, Grammar.matchesAll_eq, Option.some.injEq, forall_eq']
    cases g.matchWhole fuel types (text.slice span.1 span.2) with
    | ok tree => exact iff_of_true rfl ⟨tree, rfl⟩
    | error stop => cases stop <;> exact iff_of_false nofun nofun

theorem Region.fits_eq_error {f : Fault}
    (h : region.fits (searchWithin fuel) (types.setting text) (text.slice span.1 span.2) =
      .error f) : ∃ g, region.grammar = some g ∧
      g.matchWhole fuel types (text.slice span.1 span.2) = .error (.fault f) := by
  obtain ⟨name, width, _ | g⟩ := region
  · cases h
  · refine ⟨g, rfl, ?_⟩
    simp only [Region.fits, Grammar.matchesAll_eq] at h
    split at h <;> cases h
    assumption

/-- The room a record asks for is the true sum of its widths, as no text is larger than counts
go. -/
theorem Region.room_iff (fits : text.size < maxCount) :
    offset + Region.declaredWidth regions ≤ text.size ↔
      offset + (regions.filterMap Region.width).sum ≤ text.size := by
  rw [Region.declaredWidth, addSaturating_foldl (Nat.zero_le _)]
  omega

theorem Region.spansAt_eq_some_iff (fits : text.size < maxCount) {spans : List (Nat × Nat)} :
    Region.spansAt (searchWithin fuel) (types.setting text) offset regions = .ok (some spans) ↔
      offset + (regions.filterMap Region.width).sum ≤ text.size ∧
        Region.LaidOut text.size offset regions spans ∧
          List.Forall₂ (Region.Takes fuel types text) regions spans := by
  have hsize : (types.setting text).text.size = text.size := rfl
  rw [← Region.room_iff fits, Region.spansAt, hsize]
  by_cases hroom : offset + Region.declaredWidth regions ≤ text.size
  · have heach : (fun (region : Region) (span : Nat × Nat) => region.fits (searchWithin fuel)
        (types.setting text) (text.slice span.1 span.2) = .ok true) =
          Region.Takes fuel types text :=
      funext₂ fun _ _ => propext Region.fits_eq_true_iff
    rw [if_pos hroom, Region.spansFrom_eq_some_iff, ← heach]
    exact (and_iff_right hroom).symm
  · rw [if_neg hroom]
    exact iff_of_false nofun fun h => hroom h.1

/-- Columns that are laid out in the text end in it. -/
theorem Region.LaidOut.last (columns : Region.AreColumns regions) (fits : text.size < maxCount)
    (room : offset + (regions.filterMap Region.width).sum ≤ text.size) {spans : List (Nat × Nat)}
    (h : Region.LaidOut text.size offset regions spans) :
    ∃ start stop, spans.getLast? = some (start, stop) ∧ offset ≤ stop ∧ stop ≤ text.size := by
  obtain rfl := Region.laidOut_iff.mp h
  cases hlast : (Region.layout text.size offset regions).getLast? with
  | none =>
    obtain rfl : regions = [] := by
      cases regions with
      | nil => rfl
      | cons region regions => cases List.getLast?_eq_none_iff.mp hlast
    cases columns
  | some span =>
    obtain ⟨hstart, hle, hsize⟩ := columns.layout_each fits ((Region.room_iff fits).mpr room) span
      (List.mem_of_getLast? hlast)
    exact ⟨span.1, span.2, rfl, Nat.le_trans hstart hle, hsize⟩

/-- **Records are measured right.** Let a record be built by its constructor. Spans are found for it
exactly where the sum of all its widths, however large, leaves room in the text from the offset on,
and the grammar of each column takes all of its column; the columns then lie side by side from the
offset on. Nothing but a search for the grammar of a column keeps it from an answer: with every sum
checked to be a count, and every part cut out to lie in the text, it comes to the same. The length
of a match is that from the offset to the end of the last column. -/
theorem Region.records_are_measured (columns : Region.AreColumns regions)
    (fits : text.size < maxCount) (fuel : Nat) (types : TypeEnv) (offset : Nat) :
    let found := Region.spansAt (searchWithin fuel) (types.setting text) offset regions
    (∀ spans, found = .ok (some spans) ↔
      offset + (regions.filterMap Region.width).sum ≤ text.size ∧
        Region.LaidOut text.size offset regions spans ∧
          List.Forall₂ (Region.Takes fuel types text) regions spans) ∧
    (∀ f, found = .error f → ∃ spans, Region.LaidOut text.size offset regions spans ∧
      ∃ column ∈ regions.zip spans, ∃ g, column.1.grammar = some g ∧
        g.matchWhole fuel types (text.slice column.2.1 column.2.2) = .error (.fault f)) ∧
    found = Region.strictSpansAt (searchWithin fuel) (types.setting text) offset regions ∧
    (∀ spans, found = .ok (some spans) → ∃ start stop, spans.getLast? = some (start, stop) ∧
      offset ≤ stop ∧
        (Checker.fixed regions).matchAt fuel types text offset = .ok (some (stop - offset))) ∧
    (found = .ok none → (Checker.fixed regions).matchAt fuel types text offset = .ok none) := by
  intro found
  have hmatch : (Checker.fixed regions).matchAt fuel types text offset =
      found.map (Option.map (lastStop offset · - offset)) := by
    rw [Checker.matchAt, Checker.lengthAt]
    change Bind.bind found _ = _
    cases found <;> rfl
  refine ⟨fun spans => Region.spansAt_eq_some_iff fits, fun f hf => ?_,
    (Region.strictSpansAt_eq columns fits).symm, fun spans hspans => ?_, fun hnone => ?_⟩
  · have hfrom : Region.spansFrom (searchWithin fuel) (types.setting text) offset regions =
        .error f := by
      simp only [found, Region.spansAt] at hf
      split at hf
      · exact hf
      · cases hf
    obtain ⟨column, hmem, hfits⟩ := Region.spansFrom_error hfrom
    exact ⟨_, Region.laidOut_iff.mpr rfl, column, hmem, Region.fits_eq_error hfits⟩
  · obtain ⟨hroom, hlaid, -⟩ := (Region.spansAt_eq_some_iff fits).mp hspans
    obtain ⟨start, stop, hlast, hle, -⟩ := hlaid.last columns fits hroom
    refine ⟨start, stop, hlast, hle, ?_⟩
    rw [hmatch, hspans]
    simp only [Except.map, Option.map_some, lastStop, hlast]
  · rw [hmatch, hnone]
    rfl

end

/-- A number of two digits, a column of no width, and all that is left. -/
def Region.numbered : List Region :=
  [⟨"number", some 2, some ⟨[(Entry.ofChecker (.char (.range '0' '9'))).quantified (.exactly 2)]⟩⟩,
    ⟨"mark", some 0, none⟩, ⟨"rest", none, none⟩]

theorem Region.numbered_measured :
    Region.AreColumns Region.numbered ∧ #['x', '4', '2', 'a', 'b'].size < maxCount ∧
      Region.spansAt (searchWithin 20) (TypeEnv.bare.setting #['x', '4', '2', 'a', 'b']) 1
        Region.numbered = .ok (some [(1, 3), (3, 3), (3, 5)]) ∧
      (Checker.fixed Region.numbered).matchAt 20 .bare #['x', '4', '2', 'a', 'b'] 1 =
        .ok (some 4) := by
  have columns : Region.AreColumns Region.numbered := rfl
  have fits : #['x', '4', '2', 'a', 'b'].size < maxCount := by decide
  obtain ⟨hiff, -, -, hlast, -⟩ := Region.records_are_measured columns fits 20 .bare 1
  have hdigits : Region.Takes 20 .bare #['x', '4', '2', 'a', 'b']
      ⟨"number", some 2, some ⟨[(Entry.ofChecker (.char (.range '0' '9'))).quantified
        (.exactly 2)]⟩⟩ (1, 3) := by
    rintro g ⟨⟩
    exact ⟨.ofNodes #['4', '2'] 0 2 [.leaf 0 1, .leaf 1 2], rfl⟩
  have hlaid : Region.LaidOut 5 1 Region.numbered [(1, 3), (3, 3), (3, 5)] :=
    Region.laidOut_iff.mpr rfl
  have hfound := (hiff _).mpr
    ⟨by decide, hlaid, .cons hdigits (.cons (by rintro _ ⟨⟩) (.cons (by rintro _ ⟨⟩) .nil))⟩
  obtain ⟨start, stop, hstop, -, hmatch⟩ := hlast _ hfound
  cases hstop
  exact ⟨columns, fits, hfound, hmatch⟩

end TextGrammar
