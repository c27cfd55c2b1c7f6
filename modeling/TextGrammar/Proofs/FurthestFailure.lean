/-
What is told of a text that does not match: the first of the failures furthest
into the text. There always is one, since a search that ends without a match has
met a failure just before: below its innermost session every entry that a
session was opened for is still to be completed, so that no step gives up for
want of one. All failures lie in the part of the text that is searched, those of
a search within the search in the part that is left to it, and what is kept of
them is never given up for one that is less far.
-/
import TextGrammar.Proofs.FailuresMet
import TextGrammar.Proofs.States

namespace TextGrammar

/-! ## Failures in the text -/

/-- The failure lies between the start of a search and the end of its text. -/
def Failure.Within (start size : Nat) (failure : Failure) : Prop :=
  start ≤ failure.offset ∧ failure.offset ≤ size

theorem Failure.Within.mono {start offset stop size : Nat} {failure : Failure}
    (h : failure.Within offset stop) (hstart : start ≤ offset) (hstop : stop ≤ size) :
    failure.Within start size :=
  ⟨Nat.le_trans hstart h.1, Nat.le_trans h.2 hstop⟩

/-- All failures that are logged lie in the text, wherever a search can be made. -/
def LogsWithin (logged : Setting → Mode → Grammar → Nat → List Failure) : Prop :=
  ∀ (setting : Setting) (mode : Mode) (g : Grammar) (offset : Nat), setting.Fits offset → g.Built →
    ∀ failure ∈ logged setting mode g offset, failure.Within offset setting.text.size

section

variable {run run' : Runner (Option Failure)}
  {logged : Setting → Mode → Grammar → Nat → List Failure} {setting : Setting} {start offset : Nat}

mutual

theorem Checker.met_within (hlog : LogsWithin logged) (fits : setting.Fits offset) :
    ∀ {c : Checker}, c.Every (fun _ => True) Region.AreColumns →
      ∀ failure ∈ c.met run logged setting offset, failure.Within offset setting.text.size
  | .char _, _ | .word _, _ | .any _, _ | .not _, _ | .fixed _, _ => List.forall_mem_nil _
  | .grammar g, built => hlog setting .beginning g offset fits built
  | .oneOf _ _, built => by
    simp only [Checker.met]
    refine List.forall_mem_append.mpr ⟨Checker.metAmong_within hlog fits built.1, ?_⟩
    split
    · exact Checker.metByFallback_within hlog fits built.2
    · exact List.forall_mem_nil _

theorem Checker.metAmong_within (hlog : LogsWithin logged) (fits : setting.Fits offset) :
    ∀ {cs : List Checker}, Checker.EveryOf (fun _ => True) Region.AreColumns cs →
      ∀ failure ∈ Checker.metAmong run logged setting offset cs,
        failure.Within offset setting.text.size
  | [], _ => List.forall_mem_nil _
  | _ :: _, built => List.forall_mem_append.mpr
    ⟨Checker.metAmong_within hlog fits built.2, Checker.met_within hlog fits built.1⟩

theorem Checker.metByFallback_within (hlog : LogsWithin logged) (fits : setting.Fits offset) :
    ∀ {c : Option Checker}, Checker.EveryIn (fun _ => True) Region.AreColumns c →
      ∀ failure ∈ Checker.metByFallback run logged setting offset c,
        failure.Within offset setting.text.size
  | none, _ => List.forall_mem_nil _
  | some c, built => Checker.met_within hlog fits (c := c) built

end

/-- A match is re-read in a text that ends where it does. -/
theorem Entry.metAgain_within (hlog : LogsWithin logged) (fits : setting.Fits offset)
    {entry : Entry} (built : entry.Every (fun _ => True) Region.AreColumns) {found : Found}
    (tiles : found.Tiles setting.text.size offset) :
    ∀ failure ∈ entry.metAgain logged setting offset found,
      failure.Within offset setting.text.size := by
  have hsecond := built.secondary
  simp only [Entry.metAgain]
  split
  · exact List.forall_mem_nil _
  · next g hs =>
    rw [hs] at hsecond
    intro failure h
    have hwithin := hlog _ .whole g offset (fits.cut tiles) hsecond failure h
    exact hwithin.mono (Nat.le_refl _) (Text.size_slice_le _ _ _)

theorem Entry.metWithin_within (hrun : run.Alike run') (hlog : LogsWithin logged)
    (fits : setting.Fits offset) {entry : Entry}
    (hentry : entry.Every (fun _ => True) Region.AreColumns) {c : Checker}
    (hc : c.Every (fun _ => True) Region.AreColumns) :
    ∀ failure ∈ entry.metWithin run logged setting offset c,
      failure.Within offset setting.text.size := by
  simp only [Entry.metWithin]
  refine List.forall_mem_append.mpr ⟨Checker.met_within hlog fits hc, ?_⟩
  split
  · next found _ hok =>
    have tiles := (Checker.foundAt_alike hrun fits hc).gives _ hok found rfl
    exact Entry.metAgain_within hlog fits hentry tiles
  · exact List.forall_mem_nil _

namespace Machine

variable {m : Machine (Option Failure)}

theorem metInAttempt_within (hrun : run.Alike run') (hlog : LogsWithin logged)
    (fits : setting.Fits start) (h : m.Tidy setting.text.size start) {entry : Entry}
    (hentry : entry.Every (fun _ => True) Region.AreColumns) :
    ∀ failure ∈ m.metInAttempt run logged setting entry,
      failure.Within m.offset setting.text.size := by
  have hinner : (m.inner setting).Fits m.offset := inner_fits fits h.within h.tile
  simp only [metInAttempt]
  cases hfor : m.checkerFor? setting entry with
  | none => exact List.forall_mem_nil _
  | some c =>
    have hc := checkerFor?_built fits h hentry hfor
    simp only [Option.elim_some, metWith]
    split
    · exact List.forall_mem_nil _
    · exact Entry.metWithin_within hrun hlog hinner hentry hc

theorem metAtEntry_within (hrun : run.Alike run') (hlog : LogsWithin logged)
    (fits : setting.Fits start) (h : m.Tidy setting.text.size start) {entry : Entry}
    (hentry : entry.Every (fun _ => True) Region.AreColumns) (repeats : Nat) :
    ∀ failure ∈ m.metAtEntry run logged setting entry repeats,
      failure.Within start setting.text.size := by
  have hstart : start ≤ m.offset := h.tile.le
  simp only [metAtEntry]
  split
  · refine List.forall_mem_append.mpr ⟨fun failure hmem => ?_, ?_⟩
    · have hwithin := metInAttempt_within hrun hlog fits h hentry failure hmem
      exact hwithin.mono hstart (Nat.le_refl _)
    · split
      · split
        · exact List.forall_mem_singleton.mpr ⟨hstart, h.within⟩
        · exact List.forall_mem_nil _
      · exact List.forall_mem_nil _
  · exact List.forall_mem_nil _

theorem metOnLeaving_within (hlog : LogsWithin logged) (fits : setting.Fits start)
    (h : m.Tidy setting.text.size start) {finished parent : Session} {below : List Session}
    (hm : m.sessions = finished :: parent :: below) :
    ∀ failure ∈ m.metOnLeaving run logged setting finished parent below,
      failure.Within start setting.text.size := by
  have hsessions := h.tile
  rw [hm] at hsessions
  obtain ⟨_, hnodes, hparent⟩ := hsessions
  -- What the finished session matched lies between the nodes of its parent and the offset.
  have hstart : start ≤ finished.start := hparent.le
  have hstop : finished.start ≤ setting.text.size := Nat.le_trans hnodes.le h.within
  simp only [metOnLeaving]
  split
  · exact List.forall_mem_nil _
  · next entry rest hrest =>
    have hentry := hparent.1.first hrest
    have hinner : (inner { m with sessions := parent :: below } setting).Fits finished.start :=
      inner_fits fits hstop hparent
    refine List.forall_mem_append.mpr ⟨fun failure hmem => ?_, ?_⟩
    · have hwithin := Entry.metAgain_within hlog hinner hentry (hnodes.found h.within) failure hmem
      exact hwithin.mono hstart (Nat.le_refl _)
    · split
      · exact List.forall_mem_singleton.mpr ⟨hstart, hstop⟩
      · exact List.forall_mem_nil _

theorem met_within (hrun : run.Alike run') (hlog : LogsWithin logged) (fits : setting.Fits start)
    (mode : Mode) (h : m.Tidy setting.text.size start) :
    ∀ failure ∈ m.met run logged setting mode, failure.Within start setting.text.size := by
  simp only [met]
  split
  · exact List.forall_mem_nil _
  · next top below hm =>
    have hsessions := h.tile
    rw [hm] at hsessions
    split
    · next _ entry rest hrest =>
      exact metAtEntry_within hrun hlog fits h (hsessions.1.first hrest) top.repeats
    · exact metOnLeaving_within hlog fits h hm
    · split
      · exact List.forall_mem_singleton.mpr ⟨h.tile.le, h.within⟩
      · exact List.forall_mem_nil _

/-- **All failures that a search meets lie in its text**, not before its start. -/
theorem log_within (fuel : Nat) (fits : setting.Fits start) (mode : Mode)
    (h : m.Tidy setting.text.size start) :
    ∀ failure ∈ m.log fuel setting mode, failure.Within start setting.text.size := by
  induction fuel generalizing setting start mode m with
  | zero => exact List.forall_mem_nil _
  | succ fuel ih =>
    have hlog : LogsWithin (logWithin fuel) :=
      fun setting mode g offset fits built => ih fits mode (tidy_start built fits.start)
    have hrun : (runWithin (L := Option Failure) fuel).Alike
        fun setting mode g offset => runChecked fuel setting mode (.start g offset) :=
      fun setting mode g offset fits built => run_alike fuel fits mode (tidy_start built fits.start)
    rw [log_succ]
    refine List.forall_mem_append.mpr ⟨met_within hrun hlog fits mode h, ?_⟩
    split
    · next next hnext =>
      have tidy : next.Tidy setting.text.size start := (step_alike hrun fits mode h).gives _ hnext
      exact ih fits mode tidy
    · exact List.forall_mem_nil _

end Machine

end

/-! ## Searches that end without a match -/

theorem furthest_some_ne_none (kept : Option Failure) (failure : Failure) :
    furthest kept (some failure) ≠ none := by
  cases kept with
  | none => exact Option.some_ne_none _
  | some first =>
    simp only [furthest, further]
    split
    · exact Option.some_ne_none _
    · exact Option.some_ne_none _

/-- Below the innermost session each one has its entry still to complete. -/
def Session.Pending : List Session → Prop
  | [] => False
  | _ :: below => ∀ session ∈ below, session.rest ≠ []

theorem Session.pending_closed : Session.Closed fun _ => Session.Pending :=
  fun _ _ _ h => h

/-- The sessions of the state are like that, and those that are saved. -/
def Machine.Pending (m : Machine (Option Failure)) : Prop :=
  m.Holds (fun _ => Session.Pending) fun _ => True

/-- If the search ends without a match, some failure was met. -/
def Step.Explained : Step (Option Failure) → Prop
  | .next m => m.Pending
  | .done none failures => failures ≠ none
  | .done (some _) _ => True

section

variable {run : Runner (Option Failure)}
  {logged : Setting → Mode → Grammar → Nat → List Failure} {setting : Setting}
  {m : Machine (Option Failure)}

theorem Machine.Recorded.pending {met : List Failure} {m' : Machine (Option Failure)}
    (h : m.Recorded met m') (hm : m.Pending) : m'.Pending := by
  obtain ⟨⟨hsaved, _⟩, hsessions⟩ := hm
  refine ⟨⟨?_, trivial⟩, ?_⟩
  · rw [h.snapshots]
    exact hsaved
  · rw [h.sessions]
    exact hsessions

theorem Machine.Stores.giveUp_explained (stores : m.Stores (fun _ => Session.Pending) fun _ => True)
    (h : m.failures ≠ none) : m.giveUp.Explained := by
  simp only [Machine.giveUp]
  split
  · next next hnext => exact stores.backtrackIn Session.pending_closed hnext
  · exact h

namespace Machine

theorem pending_start (g : Grammar) (offset : Nat) :
    (Machine.start g offset : Machine (Option Failure)).Pending where
  saved _ hmem := absurd hmem (Array.not_mem_empty _)
  checkers := trivial
  sessions := List.forall_mem_nil _

theorem stepEntry_explained (hrun : run.Logs logged) (h : m.Pending) {top : Session}
    {below : List Session} (hm : m.sessions = top :: below) {entry : Entry} {rest : List Entry}
    (hrest : top.rest = entry :: rest) (repeats : Nat) :
    Gives Step.Explained (m.stepEntry run setting entry repeats) := by
  have hadvance : (Step.next m.advance).Explained := h.advance Session.pending_closed
  simp only [stepEntry]
  split
  · exact .ok hadvance
  split
  · exact .ok hadvance
  split
  · exact .ok ((h.save .oneMore).advance Session.pending_closed)
  refine (attempt_met hrun entry).gives.bind fun r hr => ?_
  obtain ⟨m', result⟩ := r
  have h' : m'.Pending := hr.pending h
  have hm' : m'.sessions = top :: below := hr.sessions.trans hm
  have hbelow : Session.Pending (top :: below) := hm ▸ h.sessions
  cases result with
  | matched stop nodes =>
    refine .ok ?_
    split
    · exact (h'.save .passOver).accept Session.pending_closed hm' hbelow
    · exact h'.accept Session.pending_closed hm' hbelow
  | opens g use =>
    refine .ok (h'.enter ?_)
    rw [hm']
    exact List.forall_mem_cons.mpr ⟨hrest ▸ List.cons_ne_nil _ _, hbelow⟩
  | failed =>
    simp only
    split
    · -- What is recorded here is there when the search ends, whatever was kept before.
      have stores : (m'.fail m'.offset (.target entry.target) repeats).Stores _ _ :=
        h'.toStores.record _
      exact .ok (stores.giveUp_explained (furthest_some_ne_none _ _))
    · exact .ok (h'.advance Session.pending_closed)

theorem stepOut_explained (hrun : run.Logs logged) (h : m.Pending) {finished parent : Session}
    {below : List Session} (hm : m.sessions = finished :: parent :: below) :
    Gives Step.Explained (m.stepOut run setting finished parent below) := by
  obtain ⟨stores, hsessions⟩ := h
  rw [hm] at hsessions
  obtain ⟨hparent, hbelow⟩ := List.forall_mem_cons.mp hsessions
  simp only [stepOut]
  split
  · next hrest => exact absurd hrest hparent
  · next entry rest hrest =>
    have stores' : Stores (fun _ => Session.Pending) (fun _ => True)
        { m with sessions := parent :: below } :=
      ⟨stores.saved, trivial⟩
    obtain ⟨out, heq, hout, hsessions, -⟩ :=
      stores'.closing (entry.quantifier.greediness == .possessive) finished.barrier
    rw [heq]
    refine (Entry.complete_met hrun entry _ finished.use).gives.bind fun seen _ => ?_
    obtain ⟨completed, failures⟩ := seen
    have recorded := hout.record failures
    cases completed with
    | some nodes =>
      exact .ok (recorded.accept Session.pending_closed hsessions hbelow)
    | none =>
      exact .ok ((recorded.record _).giveUp_explained (furthest_some_ne_none _ _))

theorem step_explained (hrun : run.Logs logged) (mode : Mode) (h : m.Pending) :
    Gives Step.Explained (m.step run setting mode) := by
  simp only [step]
  split
  · next hnil =>
    have hsessions := h.sessions
    rw [hnil] at hsessions
    exact hsessions.elim
  · next top below hm =>
    split
    · next _ entry rest hrest => exact stepEntry_explained hrun h hm hrest top.repeats
    · exact stepOut_explained hrun h hm
    · split
      · exact .ok ((h.record _).giveUp_explained (furthest_some_ne_none _ _))
      · exact .ok trivial

/-- **A search that ends without a match has met a failure.** -/
theorem run_explained (fuel : Nat) (mode : Mode) (h : m.Pending) :
    Gives (fun seen => seen.value = none → seen.failures ≠ none)
      (Machine.run fuel setting mode m) := by
  induction fuel generalizing m with
  | zero => exact .error
  | succ fuel ih =>
    have hstep : Gives Step.Explained (m.step (runWithin fuel) setting mode) :=
      step_explained (runWithin_logs fuel) mode h
    rw [run_succ]
    cases hs : m.step (runWithin fuel) setting mode with
    | error stop => exact .error
    | ok step =>
      have hstep := hstep step hs
      cases step with
      | next next => exact ih hstep
      | done result failures =>
        refine .ok fun hnone => ?_
        obtain rfl : result = none := hnone
        exact hstep

end Machine

end

/-! ## What is kept along the way -/

/-- What is kept later is no less far into the text: if there was a failure there still is one. -/
def NoFurther (kept later : Option Failure) : Prop :=
  ∀ failure, kept = some failure → ∃ other, later = some other ∧ failure.offset ≤ other.offset

namespace NoFurther

theorem refl (kept : Option Failure) : NoFurther kept kept :=
  fun failure h => ⟨failure, h, Nat.le_refl _⟩

theorem trans {first kept last : Option Failure} (h : NoFurther first kept)
    (h' : NoFurther kept last) : NoFurther first last := by
  intro failure hfailure
  obtain ⟨other, hother, hle⟩ := h failure hfailure
  obtain ⟨final, hfinal, hle'⟩ := h' other hother
  exact ⟨final, hfinal, Nat.le_trans hle hle'⟩

theorem of_furthest {kept met later : Option Failure} (h : later = furthest kept met) :
    NoFurther kept later := by
  intro failure hfailure
  subst h hfailure
  cases met with
  | none => exact ⟨failure, rfl, Nat.le_refl _⟩
  | some other =>
    simp only [furthest, further]
    split
    · next hlt => exact ⟨other, rfl, Nat.le_of_lt hlt⟩
    · exact ⟨failure, rfl, Nat.le_refl _⟩

end NoFurther

namespace Machine

/-- From a state with so many steps left a search comes to another, with so many left there. -/
inductive Reaches (setting : Setting) (mode : Mode) :
    Nat → Machine (Option Failure) → Nat → Machine (Option Failure) → Prop where
  | refl (fuel : Nat) (m : Machine (Option Failure)) : Reaches setting mode fuel m fuel m
  | step {fuel left : Nat} {m next last : Machine (Option Failure)}
    (h : m.step (runWithin fuel) setting mode = .ok (.next next))
    (rest : Reaches setting mode fuel next left last) : Reaches setting mode (fuel + 1) m left last

variable {setting : Setting} {mode : Mode} {fuel left : Nat} {m last : Machine (Option Failure)}

/-- **What is kept never becomes less far.** -/
theorem Reaches.noFurther (h : Reaches setting mode fuel m left last) :
    NoFurther m.failures last.failures := by
  induction h with
  | refl fuel m => exact .refl _
  | step h rest ih =>
    have hnext := (step_met (runWithin_logs _) mode).gives _ h
    exact (NoFurther.of_furthest hnext).trans ih

/-- The search goes on from each state that it comes to. -/
theorem Reaches.run (h : Reaches setting mode fuel m left last) :
    Machine.run fuel setting mode m = Machine.run left setting mode last := by
  induction h with
  | refl fuel m => rfl
  | step h rest ih =>
    rw [run_succ, h]
    exact ih

/-- The result tells of a failure no less far than what is kept at any state on the way. -/
theorem Reaches.noFurther_end (h : Reaches setting mode fuel m left last)
    {seen : Seen (Option Failure) (Option Match)}
    (hrun : Machine.run fuel setting mode m = .ok seen) :
    NoFurther last.failures seen.failures := by
  rw [h.run] at hrun
  exact .of_furthest ((run_log left mode last).gives _ hrun)

end Machine

/-! ## What is told -/

/-- A text is unmatched for a failure that the search met. Whatever else ends a search is not told
in this way. -/
theorem Grammar.search_of_unmatched {types : TypeEnv} {g : Grammar} {text : Text} {start fuel : Nat}
    {mode : Mode} {u : Unmatched}
    (h : g.matchFrom fuel types text mode start = .error (.refused (.unmatched u))) :
    ∃ failure, searchWithin fuel (types.setting text) mode g start = .ok ⟨none, some failure⟩ ∧
      u = failure.unmatched := by
  have hanswers : Answers _ (Machine.run fuel (types.setting text) mode (.start g start)) :=
    Machine.run_log fuel mode (.start g start)
  have hexplained : Gives _ (Machine.run fuel (types.setting text) mode (.start g start)) :=
    Machine.run_explained fuel mode (Machine.pending_start g start)
  simp only [matchFrom] at h
  split at h
  · next stop hstop =>
    rw [show Machine.run fuel _ _ _ = .error _ from hstop] at hanswers
    exact absurd (Except.error.inj h) (hanswers u)
  · cases h
  · next kept hok =>
    cases kept with
    | none => exact absurd rfl (hexplained _ hok rfl)
    | some failure =>
      cases h
      exact ⟨failure, hok, rfl⟩

/-- **The furthest failure is told.** If a text does not match from a place in it, then a failure
was met, and the answer is the first of all failures met that are furthest into the text. It lies in
the part of the text that is left from there. The answer is no less far than what the search keeps
on the way, and that never becomes less far, neither in this search nor in those within it. -/
theorem Grammar.unmatched_is_furthest {types : TypeEnv} (htypes : types.Built) {g : Grammar}
    (built : g.Built) {text : Text} (fits : text.size < maxCount) {start : Nat}
    (hstart : start ≤ text.size) {fuel : Nat} {mode : Mode} {u : Unmatched}
    (h : g.matchFrom fuel types text mode start = .error (.refused (.unmatched u))) :
    ∃ failure, searchWithin fuel (types.setting text) mode g start = .ok ⟨none, some failure⟩ ∧
      u = failure.unmatched ∧ start ≤ u.offset ∧ u.offset ≤ text.size ∧
      IsFurthest (logWithin fuel (types.setting text) mode g start) failure ∧
      (∀ left m, Machine.Reaches (types.setting text) mode fuel (.start g start) left m →
        NoFurther m.failures (some failure)) ∧
      ∀ setting mode' fuel' m left last, Machine.Reaches setting mode' fuel' m left last →
        NoFurther m.failures last.failures := by
  obtain ⟨failure, hsearch, hu⟩ := Grammar.search_of_unmatched h
  have hkept : some failure = furthest none (furthestAmong _) :=
    (Machine.run_log fuel mode (.start g start)).gives _ hsearch
  have hfurthest : IsFurthest (logWithin fuel (types.setting text) mode g start) failure :=
    furthestAmong_isFurthest hkept.symm
  have hwithin : failure.Within start text.size :=
    Machine.log_within fuel (htypes.setting_fits fits hstart) mode
      (Machine.tidy_start built hstart) failure hfurthest.mem
  subst hu
  refine ⟨failure, hsearch, rfl, hwithin.1, hwithin.2, hfurthest, fun left m hreaches => ?_, ?_⟩
  · exact hreaches.noFurther_end hsearch
  · intro setting mode' fuel' m left last hlater
    exact hlater.noFurther

/-- A letter, another with a sign after it if there is one, and then a stop. -/
def Grammar.signed : Grammar :=
  ⟨[.ofChecker (.sequence [.ofChecker (.single 'a'),
      (Entry.ofChecker (.sequence [.ofChecker (.single 'a'), .ofChecker (.single '!')])).quantified
        .zeroOrOne]),
    .ofChecker (.single '.')]⟩

/-- In `aax` the stop is missed at 1. The search for the letters, which comes to a match, has missed
the sign at 2 before, and that is told. -/
theorem Grammar.signed_unmatched : TypeEnv.bare.Built ∧ Grammar.signed.Built ∧
    ∃ u, Grammar.signed.matchFrom 12 TypeEnv.bare #['a', 'a', 'x'] .whole 0 =
        .error (.refused (.unmatched u)) ∧ u.offset = 2 ∧
      ∃ failure, u = failure.unmatched ∧
        IsFurthest (logWithin 12 (TypeEnv.bare.setting #['a', 'a', 'x']) .whole Grammar.signed 0)
          failure := by
  have types : TypeEnv.bare.Built :=
    ⟨fun _ _ hfind => (nomatch hfind), fun _ _ hcompiled => nomatch hcompiled⟩
  have built : Grammar.signed.Built := by
    refine ⟨⟨trivial, ⟨⟨trivial, trivial, trivial⟩, ⟨trivial, ?_, trivial⟩, trivial⟩, trivial⟩,
      ⟨trivial, trivial, trivial⟩, trivial⟩
    exact ⟨⟨trivial, trivial, trivial⟩, ⟨trivial, trivial, trivial⟩, trivial⟩
  have fits : #['a', 'a', 'x'].size < maxCount := by decide
  have search : (searchWithin 12 (TypeEnv.bare.setting #['a', 'a', 'x']) .whole Grammar.signed
      0).toOption.map (fun seen => (seen.value.isNone, seen.failures.map Failure.offset)) =
      some (true, some 2) := by decide +kernel
  cases hsearch : searchWithin 12 (TypeEnv.bare.setting #['a', 'a', 'x']) .whole
      Grammar.signed 0 with
  | error stop =>
    rw [hsearch] at search
    cases search
  | ok seen =>
    obtain ⟨value, failures⟩ := seen
    rw [hsearch] at search
    obtain ⟨hvalue, hfailures⟩ := Prod.mk.inj (Option.some.inj search)
    obtain rfl := Option.isNone_iff_eq_none.mp hvalue
    obtain ⟨failure, rfl, hoffset⟩ := Option.map_eq_some_iff.mp hfailures
    have missed : Grammar.signed.matchFrom 12 TypeEnv.bare #['a', 'a', 'x'] .whole 0 =
        .error (.refused (.unmatched failure.unmatched)) := by
      rw [Grammar.matchFrom, hsearch]
      rfl
    obtain ⟨met, -, hmet, -, -, hfurthest, -⟩ :=
      Grammar.unmatched_is_furthest types built fits (Nat.zero_le _) missed
    exact ⟨types, built, _, missed, hoffset, met, hmet, hfurthest⟩

end TextGrammar
