/-
One repeat of an entry inside a search. A target that is matched at once gives
its answer in the step that tries it. A grammar that is walked gets a session of
its own above a snapshot, and every outcome of it comes out of that session
through the entry; a possessive entry then closes the snapshot, so that the
search does not come back to doing without the repeat.
-/
import TextGrammar.Proofs.Walk

open Filter (atTop)

namespace TextGrammar

variable {L : Type} [FailureLog L]

/-! ## Targets matched at once -/

/-- What matching the checker of an entry at once comes to. -/
def Checker.attempted (opens : Grammar → Bool) (classes : CharClasses) (text : Text) (offset : Nat) :
    Checker → Seen L (Option Found)
  | .fixed regions =>
    .of (if offset + Region.declaredWidth regions ≤ text.size
        && Region.accept opens classes regions text offset then
      let spans := Region.layout text.size offset regions
      some ⟨lastStop offset spans, Region.nodes regions spans, false⟩
    else none)
  | c => c.tried opens classes text offset

theorem Target.trace_attempted {opens : Grammar → Bool} {classes : CharClasses} {c : Checker}
    (hw : (Target.checker c).isWalked opens = false) (text : Text) (offset : Nat) :
    ((Target.checker c).trace opens classes text offset : Trace L Found) =
      .ofSeen (c.attempted opens classes text offset) := by
  cases c with
  | grammar g =>
    have hopens : opens g = false := hw
    simp only [Target.trace, hopens, Checker.attempted, Checker.tried]
    rfl
  | fixed regions =>
    simp only [Target.trace, Checker.attempted]
    split <;> rfl
  | _ => simp only [Target.trace, Checker.attempted]

/-- From every offset of every text, and under every strategy, an attempt at the checker comes to
what `Checker.attempted` says. -/
def Checker.Followed (L : Type) [FailureLog L] (c : Checker) : Prop :=
  ∀ (setting : Setting) (offset : Nat), setting.text.size < maxCount →
    offset ≤ setting.text.size → ∀ᶠ fuel in atTop,
      c.foundAt (runWithin (L := L) fuel) setting offset =
        .ok (c.attempted setting.strategy.opens setting.types.classes setting.text offset)

/-- What a match of the target comes to once it is completed. -/
def Entry.attempted (entry : Entry) (reread : Found → Seen L (Option Found)) (offset : Nat)
    (tried : Seen L (Option Found)) : Seen L (Option Match) :=
  match tried.value with
  | none => ⟨none, tried.failures⟩
  | some found =>
    let seen := reread found
    ⟨seen.value.map fun kept => ⟨found.stop, entry.untypedNodes offset kept⟩,
      FailureLog.merge tried.failures seen.failures⟩

theorem Entry.bind_completed [LawfulFailureLog L] (entry : Entry)
    (reread : Found → Seen L (Option Found)) (repeats offset : Nat) (tried : Seen L (Option Found)) :
    (Trace.ofSeen tried).bind (entry.completed false reread repeats offset) =
      .ofSeen (entry.attempted reread offset tried) := by
  obtain ⟨value, failures⟩ := tried
  cases value with
  | none => rfl
  | some found =>
    simp only [Trace.ofSeen, Trace.once_bind, Entry.completed, Entry.attempted]
    cases (reread found).value <;> rfl

/-- The outcome of an attempt as the machine sees it. -/
def Seen.attempt (seen : Seen L (Option Match)) : Attempt :=
  match seen.value with
  | some m => .matched m.stop m.nodes
  | none => .failed

section

variable {setting : Setting} {mode : Mode} {result : Seen L (Option Match)} {frame : Frame}
  {entry : Entry} {rest : List Entry}

theorem Entry.complete_untyped {run : Runner L} {start : Nat} {found : Found}
    {seen : Seen L (Option Found)} (h : entry.reread run setting start found = .ok seen) :
    entry.complete run setting start found none =
      .ok ⟨seen.value.map (entry.untypedNodes start), seen.failures⟩ := by
  obtain ⟨value, failures⟩ := seen
  simp only [Entry.complete, h]
  cases value <;> rfl

variable [LawfulFailureLog L]

/-- A match at once records what it meets, and leaves everything else of the machine as it is. -/
theorem Machine.matchChecker_untyped {run : Runner L} {m : Machine L} {c : Checker}
    {tried : Seen L (Option Found)} {reread : Found → Seen L (Option Found)}
    (hfound : c.foundAt run (m.inner setting) m.offset = .ok tried)
    (hreread : ∀ found, tried.value = some found →
      entry.reread run (m.inner setting) m.offset found = .ok (reread found)) :
    m.matchChecker run setting entry c none =
      let seen := entry.attempted reread m.offset tried
      .ok (m.record seen.failures, seen.attempt) := by
  obtain ⟨value, failures⟩ := tried
  simp only [Machine.matchChecker, hfound, Bind.bind, Except.bind]
  cases value with
  | none => rfl
  | some found =>
    simp only [Entry.complete_untyped (hreread found rfl), Entry.attempted, Seen.attempt,
      Machine.record, LawfulFailureLog.merge_assoc]
    cases (reread found).value <;> rfl

/-- An attempt at an entry whose target is not walked. -/
theorem Checker.Followed.attempt {c : Checker} (hc : c.Followed L)
    (ht : entry.target = .checker c) (hs : ∀ g, entry.secondary = some g → g.Followed L)
    (hw : entry.target.isWalked setting.strategy.opens = false)
    (built : c.Every (fun _ => True) Region.AreColumns) (fits : setting.text.size < maxCount)
    {m : Machine L} (hoff : m.offset ≤ setting.text.size) :
    ∀ᶠ fuel in atTop, m.attempt (runWithin fuel) setting entry =
      let seen := entry.attempted (Grammar.reread setting.strategy.opens setting.types.classes
        entry.secondary setting.text m.offset) m.offset
        (c.attempted setting.strategy.opens setting.types.classes setting.text m.offset)
      .ok (m.record seen.failures, seen.attempt) := by
  rw [ht] at hw
  have hchecker (run : Runner L) :
      m.attempt run setting entry = m.matchChecker run setting entry c none := by
    simp only [Machine.attempt, ht, Machine.attemptChecker]
    cases c with
    | grammar g =>
      have hopens : setting.strategy.opens g = false := hw
      simp only [hopens]
      rfl
    | _ => rfl
  have hin : ∀ found, (c.attempted setting.strategy.opens setting.types.classes setting.text
      m.offset : Seen L (Option Found)).value = some found →
        m.offset ≤ found.stop ∧ found.stop ≤ setting.text.size := by
    intro found hv
    have hmem : found ∈ (Target.checker c).outcomes setting.strategy.opens setting.types.classes
        setting.text m.offset := by
      rw [← Target.values_trace (L := L), Target.trace_attempted hw, Trace.values_ofSeen, hv]
      exact List.mem_singleton_self found
    exact Target.outcomes_within (t := .checker c) built fits hoff found hmem
  have hfound := hc (m.inner setting) m.offset fits hoff
  cases hv : (c.attempted setting.strategy.opens setting.types.classes setting.text m.offset :
      Seen L (Option Found)).value with
  | none =>
    filter_upwards [hfound] with fuel hfound
    rw [hchecker]
    exact Machine.matchChecker_untyped hfound fun found h => by simp [hv] at h
  | some found =>
    have hreread : ∀ᶠ fuel in atTop, entry.reread (runWithin fuel) (m.inner setting) m.offset found =
        .ok (Grammar.reread setting.strategy.opens setting.types.classes entry.secondary setting.text
          m.offset found) :=
      Entry.reread_eventually hs fits (hin found hv).1 (hin found hv).2
    filter_upwards [hfound, hreread] with fuel hfound hreread
    rw [hchecker]
    refine Machine.matchChecker_untyped hfound fun found' h => ?_
    have : found = found' := Option.some.inj (hv.symm.trans h)
    exact this ▸ hreread

/-- **A repeat at once.** When the attempts of an entry have these answers, its repeats do. -/
theorem Frame.repeats_at_once {seen : Nat → Seen L (Option Match)}
    (hattempt : ∀ (m : Machine L), m.offset ≤ setting.text.size → ∀ᶠ fuel in atTop,
      m.attempt (runWithin fuel) setting entry =
        .ok (m.record (seen m.offset).failures, (seen m.offset).attempt)) :
    frame.Repeats setting mode result entry rest (fun _ offset => .ofSeen (seen offset))
      (fun repeats offset => if (seen offset).value.isSome then FailureLog.empty
        else FailureLog.of ⟨offset, .target entry.target, repeats⟩)
      (fun _ offset => (seen offset).value.isNone) := by
  intro repeats offset forced nodes next base failures hoff htries hnext h
  refine Machine.Ends.of_eventually_step (s := Machine.afterAttempt
    ((frame.state (entry :: rest) repeats nodes base offset forced failures).record
      (seen offset).failures) entry repeats (seen offset).attempt) ?_ ?_
  · filter_upwards [hattempt (frame.state (entry :: rest) repeats nodes base offset forced failures)
      hoff] with fuel hattempt
    exact Frame.step_attempt htries hattempt
  rw [show (frame.state (entry :: rest) repeats nodes base offset forced failures).record
    (seen offset).failures = frame.state (entry :: rest) repeats nodes base offset forced
      (FailureLog.merge failures (seen offset).failures) from rfl]
  cases hv : (seen offset).value with
  | none =>
    simp only [Trace.ofSeen, hv, Trace.bind, Trace.done_append, Trace.Carries.preceded_iff,
      Entry.otherwise] at h
    simp only [Seen.attempt, hv, Machine.afterAttempt]
    by_cases hgo : (forced || decide (repeats < entry.quantifier.lower)) = true
    · rw [if_pos hgo] at h
      rw [if_pos (by simpa [Frame.state] using hgo)]
      exact Fails.giveUp h
    · rw [if_neg hgo, if_neg (by simp)] at h
      rw [if_neg (by simpa [Frame.state] using hgo)]
      exact Trace.Carries.of_one h
  | some m =>
    simp only [Trace.ofSeen, hv, Trace.once_bind, Entry.otherwise, ← Trace.preceded_append,
      Trace.Carries.preceded_iff] at h
    have hnext := hnext m (by simp [hv])
    simp only [Seen.attempt, hv, Machine.afterAttempt]
    split
    · next hsave =>
      -- to do without the repeat is left to a snapshot
      simp only [Bool.and_eq_true, decide_eq_true_eq, beq_iff_eq, Bool.not_eq_true'] at hsave
      obtain ⟨⟨hmax, hle⟩, hforced⟩ := hsave
      have hforced : forced = false := hforced
      subst hforced
      refine hnext
        (base.push (frame.snapshot (entry :: rest) repeats nodes offset false .passOver)) _ ?_
      rw [Array.push_eq_append]
      refine Trace.Carries.of_append h fun base' failures' _ hstop => ?_
      rw [← Array.push_eq_append]
      refine Frame.fails_passOver ?_
      simp only [Bool.false_or, decide_eq_true_eq, Nat.not_lt.mpr hle, if_false, hmax] at hstop ⊢
      rw [if_neg (by simp)] at hstop
      exact Trace.Carries.of_one hstop
    · next hsave =>
      refine hnext _ _ ?_
      simp only [Option.isSome_some, if_true, Option.isNone_some, Bool.not_false, Bool.and_true] at h
      split at h
      · rwa [← Trace.nothing, Trace.append_nothing] at h
      · next hgo =>
        split at h
        · rwa [Trace.append_nothing] at h
        · next hposs =>
          exfalso
          obtain ⟨-, hforced⟩ := htries
          simp only [Frame.state] at hsave
          cases hg : entry.quantifier.greediness <;> simp_all
          omega

/-! ## Walked grammars -/

/-- In every frame a search that stands at these entries goes on as their trace says. -/
def Entry.AllFollowed (L : Type) [FailureLog L] (es : List Entry) : Prop :=
  ∀ (setting : Setting) (mode : Mode) (result : Seen L (Option Match)) (frame : Frame)
    (nodes : Trail) (offset : Nat) (base : Array Snapshot) (failures : L),
    setting.text.size < maxCount → offset ≤ setting.text.size →
    (Entry.allTrace setting.strategy.opens setting.types.classes es setting.text offset).Carries
      (Fails setting mode result) (frame.GoesOn setting mode result [] nodes) base failures →
    (frame.state es 0 nodes base offset false failures).Ends setting mode result

/-- The frame of a grammar walked for the first of some entries. -/
def Frame.nested (frame : Frame) (entries : List Entry) (repeats : Nat) (nodes : Trail)
    (offset place : Nat) : Frame :=
  ⟨offset, some place, ⟨entries, repeats, frame.start, nodes, frame.barrier, none⟩ :: frame.below⟩

theorem Array.modify_push_append {α : Type} (base above : Array α) (a : α) (f : α → α) :
    (base.push a ++ above).modify base.size f = base.push (f a) ++ above := by
  refine Array.ext (by simp) fun i h₁ h₂ => ?_
  rw [Array.getElem_modify]
  simp only [Array.getElem_append, Array.getElem_push, Array.size_push]
  split <;> split <;> (try split) <;> first | rfl | omega

/-- The snapshots once a repeat of the entry has come out of its session. -/
def Entry.closing (entry : Entry) (place : Nat) (snapshots : Array Snapshot) : Array Snapshot :=
  if entry.quantifier.greediness == .possessive then
    snapshots.modify place ({ · with action := .exhausted })
  else snapshots

omit [LawfulFailureLog L] in
/-- At the end of its session a walked grammar gives one repeat of the entry, or the search gives
up. -/
theorem Frame.step_out {run : Runner L} {repeats offset place stop : Nat} {nodes trail : Trail}
    {snapshots : Array Snapshot} {failures : L} {seen : Seen L (Option Found)}
    (hreread : entry.reread run ((frame.state (entry :: rest) repeats nodes
      (entry.closing place snapshots) stop false failures).inner setting) offset
        ⟨stop, trail.toList, true⟩ = .ok seen) :
    ((frame.nested (entry :: rest) repeats nodes offset place).state [] 0 trail snapshots stop false
      failures).step run setting mode =
    let parent := frame.state (entry :: rest) repeats nodes (entry.closing place snapshots) stop
      false (FailureLog.merge failures seen.failures)
    .ok (match seen.value with
      | some kept => .next (parent.accept offset stop (entry.untypedNodes offset kept))
      | none => (parent.fail offset (.entry entry) repeats).giveUp) := by
  have hclose : (if entry.quantifier.greediness == .possessive then
      (frame.state (entry :: rest) repeats nodes snapshots stop false failures).close (some place)
      else frame.state (entry :: rest) repeats nodes snapshots stop false failures) =
        frame.state (entry :: rest) repeats nodes (entry.closing place snapshots) stop false
          failures := by
    simp only [Entry.closing]
    split <;> rfl
  have hcomplete := Entry.complete_untyped hreread
  simp only [Frame.state] at hclose hcomplete
  simp only [Frame.nested, Frame.state, Machine.step, Machine.stepOut, hclose, hcomplete, Bind.bind,
    Except.bind]
  cases seen.value <;> rfl

/-- An outcome of a walked grammar comes out of its session as a repeat of the entry, or is
rejected. -/
theorem Frame.ends_out {repeats offset place : Nat} {nodes : Trail} {snapshots : Array Snapshot}
    {failures : L} {a : Match} {next : Match → Trace L Match}
    (hs : ∀ g, entry.secondary = some g → g.Followed L) (fits : setting.text.size < maxCount)
    (within : offset ≤ a.stop ∧ a.stop ≤ setting.text.size)
    (hnext : ∀ kept, (Grammar.reread setting.strategy.opens setting.types.classes entry.secondary
      setting.text offset a.found : Seen L (Option Found)).value = some kept →
      ∀ (snapshots : Array Snapshot) (failures : L),
      (next ⟨a.stop, entry.untypedNodes offset kept⟩).Carries (Fails setting mode result)
        (frame.GoesOn setting mode result rest nodes) snapshots failures →
      ((frame.state (entry :: rest) repeats nodes snapshots a.stop false failures).accept offset
        a.stop (entry.untypedNodes offset kept)).Ends setting mode result)
    (h : ((entry.completed true (Grammar.reread setting.strategy.opens setting.types.classes
      entry.secondary setting.text offset) repeats offset a.found).bind next).Carries
        (Fails setting mode result) (frame.GoesOn setting mode result rest nodes)
        (entry.closing place snapshots) failures) :
    (frame.nested (entry :: rest) repeats nodes offset place).GoesOn setting mode result [] .empty a
      snapshots failures := by
  have htrail : (Trail.empty.pushAll a.nodes).toList = a.nodes := by simp
  have hreread : ∀ᶠ fuel in atTop, entry.reread (runWithin (L := L) fuel) ((frame.state
      (entry :: rest) repeats nodes (entry.closing place snapshots) a.stop false failures).inner
        setting) offset ⟨a.stop, (Trail.empty.pushAll a.nodes).toList, true⟩ =
      .ok (Grammar.reread setting.strategy.opens setting.types.classes entry.secondary setting.text
        offset a.found) := by
    rw [htrail]
    exact Entry.reread_eventually hs fits within.1 within.2
  refine Machine.Ends.of_eventually_step (hreread.mono fun fuel hreread => Frame.step_out hreread) ?_
  simp only [Entry.completed] at h
  cases hv : (Grammar.reread setting.strategy.opens setting.types.classes entry.secondary
      setting.text offset a.found : Seen L (Option Found)).value with
  | some kept =>
    simp only [hv, Trace.once_bind, Trace.Carries.preceded_iff] at h
    exact hnext kept hv _ _ h
  | none =>
    simp only [hv, if_true, Trace.bind, Trace.Carries, ← LawfulFailureLog.merge_assoc] at h
    exact Fails.giveUp h

/-- The snapshot saved before a walked grammar, once it is left: of a possessive entry it is of no
use any more, unless the grammar had no outcome. -/
def Entry.left (entry : Entry) (stuck : Bool) (snapshot : Snapshot) : Snapshot :=
  if entry.quantifier.greediness = .possessive ∧ stuck = false then
    { snapshot with action := .exhausted }
  else snapshot

/-- What is left when nothing is left of a walked grammar: the snapshot saved before it. -/
theorem Frame.fails_entered {repeats offset : Nat} {forced stuck : Bool} {nodes : Trail}
    {snapshots : Array Snapshot} {failures : L}
    (h : (entry.otherwise FailureLog.empty stuck repeats offset forced).Carries
      (Fails setting mode result) (frame.GoesOn setting mode result rest nodes) snapshots failures) :
    Fails setting mode result (snapshots.push (entry.left stuck
      (frame.snapshot (entry :: rest) repeats nodes offset forced .passOver))) failures := by
  simp only [Entry.otherwise] at h
  rw [Entry.left]
  split
  · next hclosed =>
    obtain ⟨hg, rfl⟩ := hclosed
    refine Fails.exhausted rfl ?_
    simp only [hg, beq_self_eq_true, Bool.not_false, Bool.and_true, if_true] at h
    split at h <;> exact Trace.Carries.nothing_iff.mp h
  · next hopen =>
    refine Frame.fails_passOver ?_
    split at h
    · next hgo =>
      rw [if_pos hgo]
      exact Trace.Carries.nothing_iff.mp h
    · next hgo =>
      rw [if_neg hgo]
      have hopen : ¬ (entry.quantifier.greediness == .possessive && !stuck) = true := by
        simpa using hopen
      rw [if_neg hopen] at h
      exact Trace.Carries.of_one h

/-- Closing an entry leaves the snapshot saved before its grammar as it is to be, closed before or
not. -/
theorem Entry.closing_left {before snapshot : Snapshot} {base above : Array Snapshot}
    (h : snapshot = before ∨ snapshot = entry.left false before) :
    entry.closing base.size (base.push snapshot ++ above) =
      base.push (entry.left false before) ++ above := by
  simp only [Entry.closing, Array.modify_push_append, beq_iff_eq]
  simp only [Entry.left, and_true] at h ⊢
  split at h
  · next hg => rcases h with rfl | rfl <;> simp only [hg, if_true]
  · next hg => rcases h with rfl | rfl <;> simp only [hg, if_false]

/-- **A repeat of a walked grammar.** When the entries of the grammar go on as their trace says, a
repeat of the entry does, with every outcome of the grammar completed. -/
theorem Frame.repeats_walked {g : Grammar} (ht : entry.target = .checker (.grammar g))
    (hopens : setting.strategy.opens g = true) (hg : Entry.AllFollowed L g.entries)
    (hs : ∀ g, entry.secondary = some g → g.Followed L) (built : g.Built)
    (fits : setting.text.size < maxCount) :
    let trace (offset : Nat) : Trace L Match :=
      g.trace setting.strategy.opens setting.types.classes setting.text offset
    frame.Repeats setting mode result entry rest
      (fun repeats offset => ((trace offset).map Match.found).bind (entry.completed true
        (Grammar.reread setting.strategy.opens setting.types.classes entry.secondary setting.text
          offset) repeats offset))
      (fun _ _ => FailureLog.empty)
      (fun _ offset => ((trace offset).map Match.found).values.isEmpty) := by
  intro trace repeats offset forced nodes next base failures hoff htries hnext h
  -- the search enters the grammar, above a snapshot to do without it
  let before := frame.snapshot (entry :: rest) repeats nodes offset forced .passOver
  refine Machine.Ends.of_step (s := .next ((frame.nested (entry :: rest) repeats nodes offset
    base.size).state g.entries 0 .empty (base.push before) offset false failures))
    (fun run => ?_) ?_
  · have hattempt : (frame.state (entry :: rest) repeats nodes base offset forced failures).attempt
        run setting entry =
          .ok (frame.state (entry :: rest) repeats nodes base offset forced failures,
            .opens g none) := by
      simp only [Machine.attempt, ht, Machine.attemptChecker, hopens, if_true]
    exact Frame.step_attempt htries hattempt
  refine hg setting mode result _ .empty offset (base.push before) failures fits hoff ?_
  simp only [Trace.map_bind, Trace.bind_assoc] at h
  let stuck := (trace offset).values.isEmpty
  have htrace : Entry.allTrace setting.strategy.opens setting.types.classes g.entries setting.text
      offset = trace offset := by
    obtain ⟨entries⟩ := g
    rw [show trace offset = _ from Grammar.trace.eq_1 _ _ _ _ _]
  rw [htrace]
  refine @Trace.Carries.enclosed L Match Match Snapshot _ _ _ _ _ _ _ _ before
    (entry.left stuck before) base.size ?_ ?_ base failures rfl ?_ h
  · intro base failures _ h
    exact Frame.fails_entered (by simpa only [Trace.values_map, List.isEmpty_map] using h)
  · intro a ha base' snapshot above failures hsize hsnapshot h
    have hmem : a ∈ g.outcomes setting.strategy.opens setting.types.classes setting.text offset := by
      rw [← Grammar.values_trace (L := L)]
      exact ha
    refine Frame.ends_out hs fits (Grammar.outcomes_within built fits hoff a hmem)
      (fun kept hkept => hnext _ ?_) ?_
    · simp only [Trace.values_bind, Trace.values_map, List.mem_flatMap, List.mem_map]
      refine ⟨a.found, ⟨a, ha, rfl⟩, ?_⟩
      simp only [Entry.values_completed, hkept]
      exact List.mem_singleton_self _
    · have hstuck : stuck = false := List.isEmpty_eq_false_iff.mpr (List.ne_nil_of_mem ha)
      rw [hstuck] at hsnapshot h
      rw [← hsize, Entry.closing_left hsnapshot]
      exact h
  · intro hbarren
    have hstuck : stuck = true := List.isEmpty_iff.mpr hbarren
    simp only [Entry.left, hstuck, Bool.true_eq_false, and_false, if_false]

end

end TextGrammar
