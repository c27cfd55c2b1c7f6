/-
What a last entry decides. A search that gets to its last entry, which it needs
once, ends with a match if the entry is matched there, and gives up if not. A
grammar as the entry is matched exactly where it matches all by itself, as long
as its types look past what has been matched before.
-/
import TextGrammar.Proofs.InnerSearch
import TextGrammar.Proofs.Repeats

open Filter (atTop)

namespace TextGrammar

/-- Whatever a search could come back to from its last entry, it ends with a match, or it gives up
there. -/
def Entry.Verdict (setting : Setting) (entry : Entry) (nodes : Trail) (offset : Nat)
    (failures : Option Failure) (matched : Bool) : Prop :=
  ∃ result : Seen (Option Failure) (Option Match), result.value.isSome = matched ∧
    ∀ base : Array Snapshot,
      (result.value = none → Fails setting .beginning result base result.failures) →
        ((⟨0, none, []⟩ : Frame).state [entry] 0 nodes base offset false failures).Ends setting
          .beginning result

section

variable {setting : Setting} {entry : Entry} {nodes : Trail} {offset : Nat}
  {failures : Option Failure}

/-- The one repeat of the last entry ends the search. -/
theorem Entry.ends_accepted (hone : entry.quantifier = .one) (start : Nat) (m : Match)
    (base : Array Snapshot) :
    (((⟨0, none, []⟩ : Frame).state [entry] 0 nodes base start false failures).accept start m.stop
      m.nodes).Ends setting .beginning
        ⟨some ⟨m.stop, (nodes.pushAll m.nodes).toList⟩, failures⟩ := by
  have hdone : ((⟨0, none, []⟩ : Frame).state [] 0 (nodes.pushAll m.nodes) base m.stop false
      failures).Ends setting .beginning
        ⟨some ⟨m.stop, (nodes.pushAll m.nodes).toList⟩, failures⟩ :=
    .of_step (s := .done (some ⟨m.stop, (nodes.pushAll m.nodes).toList⟩) failures) (fun _ => rfl) rfl
  refine Frame.ends_accept ?_
  split
  · exact hdone
  · refine .of_step (fun _ => Frame.step_stop (.inr ?_)) hdone
    rw [hone]
    rfl

/-- An entry that is matched at once. -/
theorem Entry.verdict_at_once (hone : entry.quantifier = .one)
    {seen : Seen (Option Failure) (Option Match)}
    (hattempt : ∀ m : Machine (Option Failure), m.offset = offset → m.scopes = [nodes] →
      ∀ᶠ fuel in atTop, m.attempt (runWithin fuel) setting entry =
        .ok (m.record seen.failures, seen.attempt)) :
    entry.Verdict setting nodes offset failures seen.value.isSome := by
  have htries : entry.quantifier.Tries 0 false := by
    rw [hone]
    exact ⟨rfl, .inr ⟨rfl, .inl fun h => by cases h⟩⟩
  obtain ⟨value, seenFailures⟩ := seen
  let met : Option Failure := FailureLog.merge failures seenFailures
  cases value with
  | none =>
    refine ⟨⟨none, FailureLog.merge met (some ⟨offset, .target entry.target, 0⟩)⟩, rfl,
      fun base hfails => ?_⟩
    refine .of_eventually_step (s := (((⟨0, none, []⟩ : Frame).state [entry] 0 nodes base offset
      false met).fail offset (.target entry.target) 0).giveUp) ?_ (Fails.giveUp (hfails rfl))
    filter_upwards [hattempt (Frame.state ⟨0, none, []⟩ [entry] 0 nodes base offset false failures)
      rfl rfl] with fuel hattempt
    rw [Frame.step_attempt htries hattempt]
    simp only [Machine.afterAttempt, Seen.attempt, hone]
    rfl
  | some m =>
    refine ⟨⟨some ⟨m.stop, (nodes.pushAll m.nodes).toList⟩, met⟩, rfl, fun base _ => ?_⟩
    refine .of_eventually_step (s := .next (((⟨0, none, []⟩ : Frame).state [entry] 0 nodes base
      offset false met).accept offset m.stop m.nodes)) ?_ (Entry.ends_accepted hone offset m base)
    filter_upwards [hattempt (Frame.state ⟨0, none, []⟩ [entry] 0 nodes base offset false failures)
      rfl rfl] with fuel hattempt
    rw [Frame.step_attempt htries hattempt]
    simp only [Machine.afterAttempt, Seen.attempt, hone]
    rfl

/-- Where the search enters the grammar of its last entry. -/
def Entry.entrance (entry : Entry) (nodes : Trail) (offset : Nat) (failures : Option Failure)
    (base : Array Snapshot) : Entrance where
  start := offset
  below := [⟨[entry], 0, 0, nodes, none, none⟩]
  snapshots := base.push ⟨[⟨[entry], 0, 0, nodes, none, none⟩], offset, false, .passOver⟩
  barrier := base.size
  failures

section

variable {x : Grammar}

theorem Entry.step_enter (hopens : setting.strategy.opens x = true) (run : Runner (Option Failure))
    (base : Array Snapshot) :
    ((⟨0, none, []⟩ : Frame).state [.ofChecker (.grammar x)] 0 nodes base offset false failures).step
        run setting .beginning =
      .ok (.next (((Entry.ofChecker (.grammar x)).entrance nodes offset failures base).state
        (.start x offset))) := by
  have hattempt : ((⟨0, none, []⟩ : Frame).state [.ofChecker (.grammar x)] 0 nodes base offset false
      failures).attempt run setting (.ofChecker (.grammar x)) =
        .ok ((⟨0, none, []⟩ : Frame).state [.ofChecker (.grammar x)] 0 nodes base offset false
          failures, .opens x none) := by
    simp only [Machine.attempt, Entry.ofChecker, Entry.ofTarget, Machine.attemptChecker, hopens]
    rfl
  rw [Frame.step_attempt ⟨rfl, .inr ⟨rfl, .inl fun h => by cases h⟩⟩ hattempt]
  simp only [Machine.afterAttempt, Machine.enter, Machine.save, Entrance.state, Entrance.saved,
    Machine.start, Array.map_empty, Array.append_empty, LawfulFailureLog.merge_empty]
  rfl

/-- What the grammar has matched is the one repeat of the entry. -/
theorem Entry.step_leave (base : Array Snapshot)
    {last : Machine (Option Failure)} {top : Session} (hlast : last.sessions = [top])
    (htop : top.rest = []) : ∃ base', ∀ run : Runner (Option Failure),
      (((Entry.ofChecker (.grammar x)).entrance nodes offset failures base).state last).step run
          setting .beginning =
        .ok (.next (((⟨0, none, []⟩ : Frame).state [.ofChecker (.grammar x)] 0 nodes base' offset
          false (FailureLog.merge failures last.failures)).accept offset last.offset
            ((Entry.ofChecker (.grammar x)).untypedNodes offset
              ⟨last.offset, top.nodes.toList, true⟩))) := by
  obtain ⟨sessions, snapshots, stop, forced, met, checkers⟩ := last
  obtain ⟨rest, repeats, start, trail, barrier, use⟩ := top
  obtain rfl : sessions = _ := hlast
  obtain rfl : rest = [] := htop
  let e := (Entry.ofChecker (.grammar x)).entrance nodes offset failures base
  refine ⟨(Entry.ofChecker (.grammar x)).closing base.size (e.saved snapshots), fun run => ?_⟩
  have hmerge : FailureLog.merge (FailureLog.merge failures met) FailureLog.empty =
    FailureLog.merge failures met := LawfulFailureLog.merge_empty _
  rw [← hmerge]
  rfl

end

/-- A grammar as the last entry, whose types look past what has been matched before, is matched
where it matches by itself. -/
theorem Entry.verdict_item {x : Grammar} (hkeeps : setting.strategy.keepsCheckers = false)
    (houter : setting.outer = []) (htypes : setting.types.LooksPast [nodes])
    (hx : x.LooksPast setting.types [nodes]) {fuel : Nat}
    {seen : Seen (Option Failure) (Option Match)}
    (halone : searchWithin fuel setting .beginning x offset = .ok seen) :
    (Entry.ofChecker (.grammar x)).Verdict setting nodes offset failures seen.value.isSome := by
  let entry := Entry.ofChecker (.grammar x)
  cases hopens : setting.strategy.opens x with
  | false =>
    let met := entry.attempted (fun found => .of (some found)) offset
      ⟨seen.value.map Match.found, seen.failures⟩
    have hsome : met.value.isSome = seen.value.isSome := by
      obtain ⟨_ | m, _⟩ := seen <;> rfl
    rw [← hsome]
    refine Entry.verdict_at_once rfl fun m hoffset hscopes => ?_
    filter_upwards [Filter.eventually_ge_atTop fuel] with fuel' hfuel
    have hinner : m.inner setting = { setting with outer := setting.outer ++ [nodes] } := by
      simp only [Machine.inner, hscopes, houter, List.append_nil, List.nil_append]
    have hsearch : runWithin fuel' (m.inner setting) .beginning x offset = .ok seen := by
      rw [hinner]
      exact searchWithin_amid htypes hfuel hx halone
    have hfound : (Checker.grammar x).foundAt (runWithin fuel') (m.inner setting) m.offset =
        .ok ⟨seen.value.map Match.found, seen.failures⟩ := by
      simp only [Checker.foundAt, Checker.choiceAt, hoffset, hsearch]
      rfl
    have hmatch : m.attempt (runWithin fuel') setting entry =
        m.matchChecker (runWithin fuel') setting entry (.grammar x) none := by
      simp only [Machine.attempt, entry, Entry.ofChecker, Entry.ofTarget, Machine.attemptChecker,
        hopens]
      rfl
    have hmatched : m.matchChecker (runWithin fuel') setting entry (.grammar x) none =
        let done := entry.attempted (fun found => .of (some found)) m.offset
          ⟨seen.value.map Match.found, seen.failures⟩
        .ok (m.record done.failures, done.attempt) :=
      Machine.matchChecker_untyped hfound fun _ _ => rfl
    rw [hoffset] at hmatched
    exact hmatch.trans hmatched
  | true =>
    have hwithin (base : Array Snapshot) :
        ((entry.entrance nodes offset failures base).within setting).outer = [nodes] := by
      simp only [Entrance.within, houter]
      rfl
    have halone' : setting.alone = setting := by
      rw [Setting.alone, ← houter]
    -- The search within the grammar is a search of its own until that ends.
    have hstart {result : Seen (Option Failure) (Option Match)} (base : Array Snapshot)
        (hnone : seen.value = none → Fails setting .beginning result
          (entry.entrance nodes offset failures base).snapshots
            (FailureLog.merge failures seen.failures))
        (hsome : ∀ (last : Machine (Option Failure)) (top : Session), last.sessions = [top] →
          top.rest = [] → seen = ⟨some ⟨last.offset, top.nodes.toList⟩, last.failures⟩ →
            ((entry.entrance nodes offset failures base).state last).Ends setting .beginning
              result) :
        ((⟨0, none, []⟩ : Frame).state [entry] 0 nodes base offset false failures).Ends setting
          .beginning result := by
      refine .of_step (Entry.step_enter hopens · base) ?_
      refine Entrance.ends_of_run hkeeps (hwithin base ▸ htypes) (Machine.pending_start x offset)
        ?_ (halone' ▸ halone) hnone hsome
      rw [hwithin, halone']
      exact Machine.looksPast_start htypes hx offset
    obtain ⟨_ | ⟨stop, inner⟩, met⟩ := seen
    · refine ⟨⟨none, FailureLog.merge failures met⟩, rfl, fun base hfails => hstart base
        (fun _ => Fails.push (hfails rfl)) fun _ _ _ _ h => by cases h⟩
    · refine ⟨⟨some ⟨stop, (nodes.pushAll (entry.untypedNodes offset
        ⟨stop, inner, true⟩)).toList⟩, FailureLog.merge failures met⟩, rfl, fun base _ => ?_⟩
      refine hstart base (fun h => by cases h) fun last top hlast htop hseen => ?_
      cases hseen
      obtain ⟨base', hleave⟩ := Entry.step_leave base hlast htop
      exact .of_step hleave (Entry.ends_accepted rfl offset
        ⟨last.offset, entry.untypedNodes offset ⟨last.offset, top.nodes.toList, true⟩⟩ base')

end

end TextGrammar
