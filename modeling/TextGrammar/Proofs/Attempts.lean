/-
Single attempts inside a search: when the grammars in a checker are followed by
searches of their own as their traces say, the length and the nodes a checker
gives are those of `Checker.found` and `Checker.tried`.
-/
import TextGrammar.Proofs.Ends
import TextGrammar.Proofs.GrammarTrace

open Filter (atTop)

namespace TextGrammar

variable {L : Type} [FailureLog L]

/-- From every offset of every text, and under every strategy, a search for the grammar ends as the
trace of the grammar says. -/
def Grammar.Followed (L : Type) [FailureLog L] (g : Grammar) : Prop :=
  ∀ (setting : Setting) (mode : Mode) (offset : Nat), setting.text.size < maxCount →
    offset ≤ setting.text.size → ∀ᶠ fuel in atTop, runWithin fuel setting mode g offset =
      .ok ((g.trace setting.strategy.opens setting.types.classes setting.text offset :
        Trace L Match).settle mode setting.text.size)

theorem Text.size_slice_le (text : Text) (start stop : Nat) :
    (text.slice start stop).size ≤ text.size := by
  simp only [Text.slice, Array.size_extract]
  omega

theorem Text.size_slice_zero {text : Text} {stop : Nat} (h : stop ≤ text.size) :
    (text.slice 0 stop).size = stop := by
  simp only [Text.slice, Array.size_extract]
  omega

section

variable {setting : Setting} {offset : Nat}

theorem Grammar.Followed.lengthAt {g : Grammar} (h : g.Followed L)
    (fits : setting.text.size < maxCount) (hoff : offset ≤ setting.text.size) :
    ∀ᶠ fuel in atTop, g.lengthAt (runWithin (L := L) fuel) setting offset =
      .ok ((g.outcomes setting.strategy.opens setting.types.classes setting.text offset).head?.map
        (·.stop - offset)) := by
  filter_upwards [h setting.alone .beginning offset fits hoff] with fuel hrun
  simp only [Grammar.lengthAt, hrun, Trace.settle_beginning, Grammar.values_trace]
  rfl

/-- A secondary grammar or the grammar of a column matches all of a text, or not. -/
theorem Grammar.Followed.matchesAll {g : Grammar} (h : g.Followed L) {text : Text}
    (fits : text.size < maxCount) :
    ∀ᶠ fuel in atTop, g.matchesAll (runWithin (L := L) fuel) setting text =
      .ok ((g.outcomes setting.strategy.opens setting.types.classes text 0).any
        (·.stop == text.size)) := by
  filter_upwards [h { setting.alone with text } .whole 0 fits (Nat.zero_le _)] with fuel hrun
  simp only [Grammar.matchesAll, hrun, Trace.settle_whole, Grammar.values_trace, List.isSome_find?]
  rfl

theorem Grammar.Followed.choiceAt {g : Grammar} (h : g.Followed L)
    (fits : setting.text.size < maxCount) (hoff : offset ≤ setting.text.size) :
    ∀ᶠ fuel in atTop, (Checker.grammar g).choiceAt (runWithin (L := L) fuel) setting offset =
      .ok ((Checker.grammar g).tried setting.strategy.opens setting.types.classes setting.text
        offset) := by
  filter_upwards [h setting .beginning offset fits hoff] with fuel hrun
  simp only [Checker.choiceAt, hrun, Checker.tried]
  rfl

/-- A secondary grammar re-reads what its entry matched. -/
theorem Entry.reread_eventually {entry : Entry} (h : ∀ g, entry.secondary = some g → g.Followed L)
    {found : Found} (fits : setting.text.size < maxCount) (hoff : offset ≤ found.stop)
    (hstop : found.stop ≤ setting.text.size) :
    ∀ᶠ fuel in atTop, entry.reread (runWithin (L := L) fuel) setting offset found =
      .ok (Grammar.reread setting.strategy.opens setting.types.classes entry.secondary setting.text
        offset found) := by
  cases hs : entry.secondary with
  | none =>
    exact Filter.Eventually.of_forall fun _ => by simp only [Entry.reread, hs, Grammar.reread]
  | some g =>
    have hsize := Text.size_slice_zero hstop
    have hrun := h g hs { setting with text := setting.text.slice 0 found.stop } .whole offset
      (Nat.lt_of_le_of_lt (Text.size_slice_le _ _ _) fits) (by simpa only [hsize] using hoff)
    filter_upwards [hrun] with fuel hrun
    simp only [Entry.reread, hs, hstop, if_true, hrun, hsize, Grammar.reread]
    rfl

/-- Whether a text fits into a column. -/
def Region.fits (run : Runner L) (setting : Setting) (text : Text) (region : Region) :
    Except Fault Bool :=
  match region.grammar with
  | some g => g.matchesAll run setting text
  | none => .ok true

omit [FailureLog L] in
theorem Region.spansFrom_cons (run : Runner L) (setting : Setting) (start : Nat) (region : Region)
    (regions : List Region) :
    Region.spansFrom run setting start (region :: regions) =
      let stop := region.width.elim setting.text.size (start + ·)
      region.fits run setting (setting.text.slice start stop) >>= fun fits =>
        if fits then
          Region.spansFrom run setting stop regions >>= fun spans =>
            pure (spans.map ((start, stop) :: ·))
        else pure none := by
  obtain ⟨name, width, g⟩ := region
  cases width <;> cases g <;> simp only [Region.spansFrom] <;> rfl

/-- Checkers that are neither grammars nor alternatives have no nodes. -/
theorem Checker.found_leaf {opens : Grammar → Bool} {classes : CharClasses} {c : Checker}
    {text : Text} {found : Found} (hg : ∀ g, c ≠ .grammar g) (hc : ∀ cs fb, c ≠ .oneOf cs fb)
    (h : c.found opens classes text offset = some found) :
    found = ⟨found.stop, [], false⟩ := by
  cases c with
  | grammar g => exact absurd rfl (hg g)
  | oneOf cs fb => exact absurd rfl (hc cs fb)
  | fixed regions =>
    simp only [Checker.found] at h
    split at h <;> cases h
    rfl
  | _ =>
    simp only [Checker.found] at h
    obtain ⟨n, _, rfl⟩ := Option.map_eq_some_iff.mp h
    rfl

/-- For them an attempt is a matter of the length alone. -/
theorem Checker.choiceAt_leaf {c : Checker} (hg : ∀ g, c ≠ .grammar g)
    (hc : ∀ cs fb, c ≠ .oneOf cs fb) (built : c.Every (fun _ => True) Region.AreColumns)
    (fits : setting.text.size < maxCount) (hoff : offset ≤ setting.text.size) {run : Runner L}
    (hlen : c.lengthAt run setting offset = .ok ((c.found setting.strategy.opens
      setting.types.classes setting.text offset).map (·.stop - offset))) :
    c.choiceAt run setting offset =
      .ok (c.tried setting.strategy.opens setting.types.classes setting.text offset) := by
  have hfound : ((c.found setting.strategy.opens setting.types.classes setting.text offset).map
      (·.stop - offset)).map (fun n => (⟨offset + n, [], false⟩ : Found)) =
      c.found setting.strategy.opens setting.types.classes setting.text offset := by
    cases hf : c.found setting.strategy.opens setting.types.classes setting.text offset with
    | none => rfl
    | some found =>
      have := (Checker.found_within built fits hoff found hf).1
      rw [Checker.found_leaf hg hc hf]
      simp only [Option.map_some, Option.some.injEq, Found.mk.injEq, and_true]
      omega
  cases c with
  | grammar g => exact absurd rfl (hg g)
  | oneOf cs fb => exact absurd rfl (hc cs fb)
  | _ => simp only [Checker.choiceAt, hlen, hfound, Checker.tried]

end

end TextGrammar
