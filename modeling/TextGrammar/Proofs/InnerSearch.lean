/-
A grammar that is walked where it stands. The search goes through it as a search
of its own would: the states of that search are found again above the sessions
and the snapshots that were there before, and each of its steps is a step there.
Only where it ends do the two part. A match leads on to what comes after the
grammar, and without one the search comes back to what was saved before.
-/
import TextGrammar.Proofs.FurthestFailure
import TextGrammar.Proofs.Surroundings
import TextGrammar.Proofs.Walk

open Filter (atTop)

namespace TextGrammar

/-- Where a search has entered a grammar, with what was there before. -/
structure Entrance where
  start : Nat
  below : List Session
  snapshots : Array Snapshot
  /-- Place of the snapshot saved on entering. -/
  barrier : Nat
  failures : Option Failure

theorem Session.Pending.ne_nil {sessions : List Session} (h : Session.Pending sessions) :
    sessions ≠ [] := by
  rintro rfl
  exact h

namespace Entrance

variable (e : Entrance)

/-- A session of the inner search. The first one is the session that was opened on entering. -/
def session (isFirst : Bool) (s : Session) : Session :=
  { s with
    start := if isFirst then e.start else s.start
    barrier := if isFirst then some e.barrier else s.barrier.map (e.snapshots.size + ·)
    use := if isFirst then none else s.use }

/-- The sessions of the inner search, above those that were there before. -/
def sessions : List Session → List Session
  | [] => e.below
  | top :: below => e.session below.isEmpty top :: sessions below

def snapshot (s : Snapshot) : Snapshot := { s with sessions := e.sessions s.sessions }

/-- The snapshots of the inner search, after those that were there before. -/
def saved (snapshots : Array Snapshot) : Array Snapshot := e.snapshots ++ snapshots.map e.snapshot

/-- The state of the inner search as one of the search around it. -/
def state (m : Machine (Option Failure)) : Machine (Option Failure) :=
  ⟨e.sessions m.sessions, e.saved m.snapshots, m.offset, m.forced,
    FailureLog.merge e.failures m.failures, []⟩

/-- The search around has nothing more to try within the grammar. -/
def left (failures : Option Failure) : Machine (Option Failure) :=
  ⟨[], e.snapshots, 0, false, FailureLog.merge e.failures failures, []⟩

/-- How a step of the inner search goes on, unless it comes to a match. -/
def onward : Step (Option Failure) → Step (Option Failure)
  | .next m => .next (e.state m)
  | .done _ failures => (e.left failures).giveUp

/-- What the inner search has around it. -/
def within (setting : Setting) : Setting :=
  { setting with outer := e.below.map Session.nodes ++ setting.outer }

/-! ## Moves -/

section

variable {e}

theorem sessions_nodes (sessions : List Session) : (e.sessions sessions).map Session.nodes =
    sessions.map Session.nodes ++ e.below.map Session.nodes := by
  induction sessions with
  | nil => rfl
  | cons top below ih =>
    simp only [sessions, List.map_cons, ih, session, List.cons_append]

theorem saved_push (snapshots : Array Snapshot) (s : Snapshot) :
    e.saved (snapshots.push s) = (e.saved snapshots).push (e.snapshot s) := by
  simp only [saved, Array.map_push, Array.append_push]

theorem saved_size (snapshots : Array Snapshot) :
    (e.saved snapshots).size = e.snapshots.size + snapshots.size := by
  simp only [saved, Array.size_append, Array.size_map]

/-- Closing the way back leaves what was saved before as it is. -/
theorem saved_modify (snapshots : Array Snapshot) (place : Nat) :
    e.saved (snapshots.modify place ({ · with action := .exhausted })) =
      (e.saved snapshots).modify (e.snapshots.size + place) ({ · with action := .exhausted }) := by
  refine Array.ext (by simp only [saved_size, Array.size_modify]) fun i hi hi' => ?_
  simp only [saved, Array.getElem_modify, Array.getElem_append, Array.getElem_map]
  by_cases hlt : i < e.snapshots.size
  · have hne : e.snapshots.size + place ≠ i := by omega
    simp only [dif_pos hlt, if_neg hne]
  · have hiff : e.snapshots.size + place = i ↔ place = i - e.snapshots.size := by omega
    simp only [dif_neg hlt, hiff]
    split <;> rfl

variable {m : Machine (Option Failure)}

/-- Both searches see the same from their current entry. -/
theorem inner_state (setting : Setting) :
    (e.state m).inner setting = m.inner (e.within setting) := by
  simp only [Machine.inner, Machine.scopes, state, within, sessions_nodes, List.append_assoc]

theorem state_advance (hm : m.sessions ≠ []) : (e.state m).advance = e.state m.advance := by
  obtain ⟨sessions, snapshots, offset, forced, failures, checkers⟩ := m
  cases sessions with
  | nil => exact absurd rfl hm
  | cons top below => rfl

theorem state_accept (hm : m.sessions ≠ []) (start stop : Nat) (nodes : List Node) :
    (e.state m).accept start stop nodes = e.state (m.accept start stop nodes) := by
  obtain ⟨sessions, snapshots, offset, forced, failures, checkers⟩ := m
  cases sessions with
  | nil => exact absurd rfl hm
  | cons top below =>
    simp only [Machine.accept]
    split
    · rfl
    · rfl

theorem state_save (action : Action) : (e.state m).save action = e.state (m.save action) := by
  simp only [Machine.save, state, saved_push, snapshot]

theorem state_enter (hm : m.sessions ≠ []) (g : Grammar) (use : Option TypeUse) :
    (e.state m).enter g use = e.state (m.enter g use) := by
  obtain ⟨sessions, snapshots, offset, forced, failures, checkers⟩ := m
  cases sessions with
  | nil => exact absurd rfl hm
  | cons top below =>
    simp only [Machine.enter, Machine.save, state, saved_push, snapshot, saved_size, sessions,
      session, List.isEmpty_cons, Bool.false_eq_true, if_false, Option.map_some]

theorem state_close (barrier : Option Nat) :
    (e.state m).close (barrier.map (e.snapshots.size + ·)) = e.state (m.close barrier) := by
  cases barrier with
  | none => rfl
  | some place => simp only [Machine.close, state, Option.map_some, saved_modify]

/-- The search around comes back to a snapshot of the inner search as the inner search would. -/
theorem state_resume {s : Snapshot} (hs : s.sessions ≠ []) :
    (e.state m).resume (e.snapshot s) = (m.resume s).map e.state := by
  obtain ⟨sessions, offset, forced, action⟩ := s
  cases sessions with
  | nil => exact absurd rfl hs
  | cons top below =>
    cases action with
    | exhausted => rfl
    | oneMore => rfl
    | passOver =>
      obtain ⟨rest, repeats, start, nodes, barrier, use⟩ := top
      cases rest with
      | nil => rfl
      | cons entry rest =>
        simp only [Machine.resume, snapshot, Entrance.sessions, session]
        split
        · rfl
        · rfl

/-- What the search around comes back to is what the inner search would come back to, or else what
was saved before. -/
theorem state_backtrack (hsaved : ∀ s ∈ m.snapshots, s.sessions ≠ []) :
    (e.state m).backtrack = (m.backtrack.map e.state).or (e.left m.failures).backtrack := by
  obtain ⟨sessions, snapshots, offset, forced, failures, checkers⟩ := m
  induction hsize : snapshots.size generalizing snapshots with
  | zero =>
    obtain rfl : snapshots = #[] := Array.size_eq_zero_iff.mp hsize
    simp only [state, saved, Array.map_empty, Array.append_empty]
    exact Machine.backtrackIn_congr _
  | succ count ih =>
    obtain ⟨before, s, rfl⟩ := Array.exists_push_of_size_eq_add_one hsize
    rw [Array.size_push, Nat.add_right_cancel_iff] at hsize
    have hbefore := ih before (fun s hs => hsaved s (Array.mem_push_of_mem _ hs)) hsize
    have hresume := state_resume (e := e)
      (m := ⟨sessions, before, offset, forced, failures, checkers⟩) (hsaved s Array.mem_push_self)
    have houter := Machine.backtrack_push
      (e.state ⟨sessions, before, offset, forced, failures, checkers⟩) (e.saved before)
      (e.snapshot s)
    have hinner := Machine.backtrack_push
      ⟨sessions, before, offset, forced, failures, checkers⟩ before s
    simp only [state, saved_push] at houter hresume hbefore ⊢
    rw [houter, hinner, hresume, hbefore]
    cases Machine.resume _ s with
    | none => simp only [Option.map_none, Option.none_or]
    | some next => simp only [Option.map_some, Option.some_or]

/-- **Giving up** goes on as in the inner search, or else with what was saved before. -/
theorem state_giveUp (stores : m.Stores (fun _ => Session.Pending) fun _ => True) :
    (e.state m).giveUp = e.onward m.giveUp := by
  simp only [Machine.giveUp, state_backtrack fun s hs => (stores.saved s hs).ne_nil]
  cases m.backtrack with
  | none => rfl
  | some next => rfl

theorem state_record (failures : Option Failure) :
    (e.state m).record failures = e.state (m.record failures) := by
  simp only [Machine.record, state, LawfulFailureLog.merge_assoc]

theorem state_fail (offset : Nat) (expected : Expectation) (repeats : Nat) :
    (e.state m).fail offset expected repeats = e.state (m.fail offset expected repeats) :=
  state_record _

/-! ## Steps -/

variable {run : Runner (Option Failure)} {setting : Setting} {entry : Entry}

/-- What an attempt within the inner search comes to, in the search around it. -/
def tried (e : Entrance) (r : Machine (Option Failure) × Attempt) :
    Machine (Option Failure) × Attempt := (e.state r.1, r.2)

theorem state_matchChecker (c : Checker) (use : Option TypeUse) :
    (e.state m).matchChecker run setting entry c use =
      (m.matchChecker run (e.within setting) entry c use).map e.tried := by
  have hoffset (m : Machine (Option Failure)) : (e.state m).offset = m.offset := rfl
  simp only [Machine.matchChecker, inner_state, hoffset, state_record]
  cases c.foundAt run (m.inner (e.within setting)) m.offset with
  | error stop => rfl
  | ok seen =>
    obtain ⟨_ | found, failures⟩ := seen
    · rfl
    simp only [Bind.bind, Except.bind]
    cases entry.complete run (m.inner (e.within setting)) (m.record failures).offset found use with
    | error stop => rfl
    | ok completed =>
      obtain ⟨_ | nodes, later⟩ := completed
      · rfl
      · rfl

theorem state_attemptChecker (c : Checker) (use : Option TypeUse) :
    (e.state m).attemptChecker run setting entry c use =
      (m.attemptChecker run (e.within setting) entry c use).map e.tried := by
  cases c with
  | grammar g =>
    have hstrategy : (e.within setting).strategy = setting.strategy := rfl
    simp only [Machine.attemptChecker, hstrategy]
    split
    · rfl
    · exact state_matchChecker _ use
  | _ => exact state_matchChecker _ use

theorem state_attemptType (hkeeps : setting.strategy.keepsCheckers = false) (use : TypeUse) :
    (e.state m).attemptType run setting entry use =
      (m.attemptType run (e.within setting) entry use).map e.tried := by
  -- Neither search keeps checkers, so both ask the type, and there it sees the same.
  have hkeeps' : (e.within setting).strategy.keepsCheckers = false := hkeeps
  have hhost : (⟨setting.text, (e.state m).offset, ((e.state m).inner setting).outer⟩ : Host) =
      ⟨(e.within setting).text, m.offset, (m.inner (e.within setting)).outer⟩ := by
    rw [inner_state]
    rfl
  have htypes : (e.within setting).types = setting.types := rfl
  simp only [Machine.attemptType, Machine.checkerOf, hkeeps, hkeeps', hhost, htypes, Bool.false_and,
    Bool.false_eq_true, if_false]
  cases setting.types.supply _ use.param use.type with
  | error f => rfl
  | ok given =>
    cases given with
    | error error => rfl
    | ok c => exact state_attemptChecker c (some use)

/-- **An attempt** is made alike by both searches. -/
theorem state_attempt (hkeeps : setting.strategy.keepsCheckers = false) :
    (e.state m).attempt run setting entry =
      (m.attempt run (e.within setting) entry).map e.tried := by
  have htypes : (e.within setting).types = setting.types := rfl
  have hoffset : (e.state m).offset = m.offset := rfl
  simp only [Machine.attempt, htypes, hoffset]
  cases entry.target with
  | checker c => exact state_attemptChecker c none
  | type type => exact state_attemptType hkeeps _
  | ref r =>
    simp only
    cases setting.types.find? r.name with
    | none => rfl
    | some type => exact state_attemptType hkeeps _

variable {logged : Setting → Mode → Grammar → Nat → List Failure}

theorem state_stepEntry (hrun : run.Logs logged) (hkeeps : setting.strategy.keepsCheckers = false)
    (hm : m.Pending) (repeats : Nat) :
    (e.state m).stepEntry run setting entry repeats =
      (m.stepEntry run (e.within setting) entry repeats).map e.onward := by
  have hne : m.sessions ≠ [] := Session.Pending.ne_nil hm.sessions
  have hforced (m : Machine (Option Failure)) : (e.state m).forced = m.forced := rfl
  have hoffset (m : Machine (Option Failure)) : (e.state m).offset = m.offset := rfl
  have hnext {m m' : Machine (Option Failure)} (h : m = m') :
      (.ok (.next m) : Except Stop (Step (Option Failure))) = .ok (.next m') := by rw [h]
  simp only [Machine.stepEntry, hforced, state_attempt hkeeps]
  split
  · exact hnext (state_advance hne)
  split
  · exact hnext (state_advance hne)
  split
  · rw [state_save]
    exact hnext (state_advance hne)
  have hattempt : Gives (fun r => m.Recorded _ r.1) (m.attempt run (e.within setting) entry) :=
    (Machine.attempt_met hrun entry).gives
  generalize m.attempt run (e.within setting) entry = x at hattempt ⊢
  rcases x with stop | ⟨m', result⟩
  · rfl
  have hr := hattempt _ rfl
  have hm' : m'.Pending := hr.pending hm
  have hne' : m'.sessions ≠ [] := hm'.sessions.ne_nil
  cases result with
  | matched stop nodes =>
    refine hnext ?_
    simp only [tried, hforced]
    split
    · rw [state_save, hoffset]
      exact state_accept (m := m'.save .passOver) hne' _ stop nodes
    · rw [hoffset]
      exact state_accept hne' _ stop nodes
  | opens g use => exact hnext (state_enter hne' g use)
  | failed =>
    simp only [tried, hforced, Bind.bind, Except.bind, Except.map, pure, Except.pure]
    split
    · rw [hoffset, state_fail]
      exact congrArg Except.ok (state_giveUp (hm'.toStores.record _))
    · exact hnext (state_advance hne')

/-- What a nested grammar has matched becomes one repeat of the entry, or is rejected by it. -/
def complete (run : Runner (Option Failure)) (setting : Setting) (out : Machine (Option Failure))
    (finished : Session) (entry : Entry) (repeats : Nat) :
    Except Stop (Step (Option Failure)) := do
  let seen ← entry.complete run (out.inner setting) finished.start
    ⟨out.offset, finished.nodes.toList, true⟩ finished.use
  let out' := out.record seen.failures
  match seen.value with
  | some nodes => pure (.next (out'.accept finished.start out.offset nodes))
  | none => pure (out'.fail finished.start (.entry entry) repeats).giveUp

theorem state_complete (hm : m.Pending) (finished : Session) (repeats : Nat) :
    complete run setting (e.state m) (e.session false finished) entry repeats =
      (complete run (e.within setting) m finished entry repeats).map e.onward := by
  have hoffset : (e.state m).offset = m.offset := rfl
  simp only [complete, inner_state, hoffset, session, Bool.false_eq_true, if_false]
  cases entry.complete run (m.inner (e.within setting)) finished.start
    ⟨m.offset, finished.nodes.toList, true⟩ finished.use with
  | error stop => rfl
  | ok seen =>
    have stores := hm.toStores.record seen.failures
    obtain ⟨_ | nodes, failures⟩ := seen
    · simp only [Bind.bind, Except.bind, state_record, state_fail]
      exact congrArg Except.ok (state_giveUp (stores.record _))
    · have haccept := state_accept (e := e) (m := m.record failures) hm.sessions.ne_nil
        finished.start m.offset nodes
      simp only [Bind.bind, Except.bind, state_record, haccept]
      rfl

theorem state_stepOut (hm : m.Pending) {finished parent : Session} {below : List Session}
    (hsessions : m.sessions = finished :: parent :: below) :
    (e.state m).stepOut run setting (e.session false finished) (e.session below.isEmpty parent)
        (e.sessions below) =
      (m.stepOut run (e.within setting) finished parent below).map e.onward := by
  have hpending := hm.sessions
  rw [hsessions] at hpending
  obtain ⟨entries, repeats, start, nodes, barrier, use⟩ := parent
  cases entries with
  | nil => exact congrArg Except.ok (state_giveUp hm.toStores)
  | cons entry rest =>
    let back : Machine (Option Failure) :=
      { m with sessions := ⟨entry :: rest, repeats, start, nodes, barrier, use⟩ :: below }
    have stores : back.Stores (fun _ => Session.Pending) fun _ => True := ⟨hm.saved, trivial⟩
    obtain ⟨out, heq, hout, houts, -⟩ :=
      stores.closing (entry.quantifier.greediness == .possessive) finished.barrier
    have hclosed : (if (entry.quantifier.greediness == .possessive) = true then
        (e.state back).close (finished.barrier.map (e.snapshots.size + ·)) else e.state back) =
          e.state out := by
      rw [state_close, ← heq, apply_ite e.state]
    have hleft : (e.state m).stepOut run setting (e.session false finished)
        (e.session below.isEmpty ⟨entry :: rest, repeats, start, nodes, barrier, use⟩)
          (e.sessions below) = complete run setting (if (entry.quantifier.greediness == .possessive)
            = true then (e.state back).close (finished.barrier.map (e.snapshots.size + ·))
              else e.state back) (e.session false finished) entry repeats := rfl
    have hright : m.stepOut run (e.within setting) finished
        ⟨entry :: rest, repeats, start, nodes, barrier, use⟩ below =
          complete run (e.within setting) (if (entry.quantifier.greediness == .possessive) = true
            then back.close finished.barrier else back) finished entry repeats := rfl
    have houtPending : out.Pending :=
      ⟨hout, houts ▸ fun session hsession => hpending session (List.mem_cons_of_mem _ hsession)⟩
    rw [hleft, hright, hclosed, heq]
    exact state_complete houtPending finished repeats

/-- **A step** of the inner search is a step of the search around it, except at a match. -/
theorem state_step {mode mode' : Mode} (hrun : run.Logs logged)
    (hkeeps : setting.strategy.keepsCheckers = false) (hm : m.Pending)
    (hinside : ∀ top, m.sessions = [top] → top.rest ≠ []) :
    (e.state m).step run setting mode =
      (m.step run (e.within setting) mode').map e.onward := by
  obtain ⟨sessions, snapshots, offset, forced, failures, checkers⟩ := m
  cases sessions with
  | nil => exact absurd rfl hm.sessions.ne_nil
  | cons top below =>
    obtain ⟨rest, repeats, start, nodes, barrier, use⟩ := top
    cases rest with
    | cons entry rest => exact state_stepEntry hrun hkeeps hm repeats
    | nil =>
      cases below with
      | cons parent below => exact state_stepOut hm rfl
      | nil => exact absurd rfl (hinside _ rfl)

end

end Entrance

/-! ## Runs -/

/-- Only at the end of its grammar a search comes to a match. -/
def Step.Unmatched : Step (Option Failure) → Prop
  | .next _ => True
  | .done result _ => result = none

namespace Machine

section

variable {run : Runner (Option Failure)} {setting : Setting} {m : Machine (Option Failure)}

theorem giveUp_unmatched (m : Machine (Option Failure)) : m.giveUp.Unmatched := by
  simp only [giveUp]
  split <;> trivial

theorem stepEntry_unmatched (entry : Entry) (repeats : Nat) :
    Gives Step.Unmatched (m.stepEntry run setting entry repeats) := by
  simp only [stepEntry]
  split
  · exact .ok trivial
  split
  · exact .ok trivial
  split
  · exact .ok trivial
  refine Gives.bind (p := fun _ => True) (fun _ _ => trivial) fun r _ => ?_
  obtain ⟨m', _ | _ | _⟩ := r
  · exact .ok trivial
  · exact .ok trivial
  · simp only
    split
    · exact .ok (giveUp_unmatched _)
    · exact .ok trivial

theorem stepOut_unmatched (finished parent : Session) (below : List Session) :
    Gives Step.Unmatched (m.stepOut run setting finished parent below) := by
  simp only [stepOut]
  split
  · exact .ok (giveUp_unmatched _)
  refine Gives.bind (p := fun _ => True) (fun _ _ => trivial) fun seen _ => ?_
  obtain ⟨_ | nodes, failures⟩ := seen
  · exact .ok (giveUp_unmatched _)
  · exact .ok trivial

/-- The search is at the end of its grammar. -/
def AtEnd (m : Machine (Option Failure)) : Prop := ∃ top, m.sessions = [top] ∧ top.rest = []

theorem step_unmatched {mode : Mode} (hm : ¬ m.AtEnd) :
    Gives Step.Unmatched (m.step run setting mode) := by
  obtain ⟨sessions, snapshots, offset, forced, failures, checkers⟩ := m
  cases sessions with
  | nil => exact .ok rfl
  | cons top below =>
    obtain ⟨rest, repeats, start, nodes, barrier, use⟩ := top
    cases rest with
    | cons entry rest => exact stepEntry_unmatched entry repeats
    | nil =>
      cases below with
      | cons parent below => exact stepOut_unmatched _ parent below
      | nil => exact absurd ⟨_, rfl, rfl⟩ hm

end

end Machine

namespace Entrance

variable {e : Entrance} {setting : Setting} {mode : Mode}
  {result : Seen (Option Failure) (Option Match)}

/-- **The search goes through the grammar as a search of its own does.** If that search ends without
a match, it comes back to what was saved before. If it ends with a match, the search comes to the end
of the grammar with the same. -/
theorem ends_of_run (hkeeps : setting.strategy.keepsCheckers = false)
    (htypes : setting.types.LooksPast (e.within setting).outer) {fuel : Nat}
    {m : Machine (Option Failure)} (hm : m.Pending)
    (hlooks : m.LooksPast setting.alone (e.within setting).outer)
    {seen : Seen (Option Failure) (Option Match)}
    (hrun : Machine.run fuel setting.alone .beginning m = .ok seen)
    (hnone : seen.value = none → Fails setting mode result e.snapshots
      (FailureLog.merge e.failures seen.failures))
    (hsome : ∀ (last : Machine (Option Failure)) (top : Session), last.sessions = [top] →
      top.rest = [] → seen = ⟨some ⟨last.offset, top.nodes.toList⟩, last.failures⟩ →
        (e.state last).Ends setting mode result) :
    (e.state m).Ends setting mode result := by
  induction fuel generalizing m with
  | zero => cases hrun
  | succ fuel ih =>
    rw [Machine.run_succ] at hrun
    by_cases hend : m.AtEnd
    · obtain ⟨top, hsessions, hrest⟩ := hend
      have hstep : m.step (runWithin fuel) setting.alone .beginning =
          .ok (.done (some ⟨m.offset, top.nodes.toList⟩) m.failures) := by
        simp only [Machine.step, hsessions, hrest]
        rfl
      rw [hstep] at hrun
      exact hsome m top hsessions hrest (Except.ok.inj hrun).symm
    cases hstep : m.step (runWithin fuel) setting.alone .beginning with
    | error stop =>
      rw [hstep] at hrun
      cases hrun
    | ok s =>
      rw [hstep] at hrun
      -- The step is taken with more steps left, too, and with what is around the entry.
      have hsame : setting.alone.types.LooksPast (e.within setting).outer := htypes
      have hinner (fuel' : Nat) (hfuel : fuel ≤ fuel') :=
        Machine.step_amid hsame hfuel hlooks hstep
      have houter : ∀ᶠ fuel' in atTop,
          (e.state m).step (runWithin fuel') setting mode = .ok (e.onward s) := by
        filter_upwards [Filter.eventually_ge_atTop fuel] with fuel' hfuel
        rw [state_step (runWithin_logs fuel') hkeeps hm
          fun top hsessions hrest => hend ⟨top, hsessions, hrest⟩]
        exact congrArg (Except.map e.onward) (hinner fuel' hfuel).1
      refine .of_eventually_step houter ?_
      cases s with
      | next next =>
        exact ih (Machine.step_explained (runWithin_logs fuel) .beginning hm _ hstep)
          ((hinner fuel (Nat.le_refl _)).2 next rfl) hrun
      | done value failures =>
        obtain rfl : value = none := Machine.step_unmatched hend _ hstep
        obtain rfl := Except.ok.inj hrun
        exact hnone rfl

end Entrance

end TextGrammar
