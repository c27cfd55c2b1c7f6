/-
The failures that a search meets, in order: attempts that come to nothing where
one repeat more is needed, matches of nested grammars that are rejected, text
left over at the end, and all that is met by the searches within the search,
whether they find something or not. They are read off the states of the search
and not off what it keeps of them. What it keeps is the first of those that got
furthest into the text.
-/
import TextGrammar.Proofs.TiledSearch

namespace TextGrammar

/-! ## The furthest of several failures -/

/-- Of the failures furthest into the text the first one. -/
def furthestAmong : List Failure → Option Failure
  | [] => none
  | failure :: failures => furthest (some failure) (furthestAmong failures)

@[simp] theorem furthestAmong_nil : furthestAmong [] = none := rfl

@[simp] theorem furthestAmong_append (failures later : List Failure) :
    furthestAmong (failures ++ later) =
      furthest (furthestAmong failures) (furthestAmong later) := by
  induction failures with
  | nil => rfl
  | cons failure failures ih =>
    rw [List.cons_append, furthestAmong, ih, furthestAmong, furthest_assoc]

theorem furthestAmong_eq_none {failures : List Failure} :
    furthestAmong failures = none ↔ failures = [] := by
  cases failures with
  | nil => exact ⟨fun _ => rfl, fun _ => rfl⟩
  | cons first failures =>
    refine ⟨fun h => ?_, fun h => nomatch h⟩
    rw [furthestAmong] at h
    cases hrest : furthestAmong failures with
    | none =>
      rw [hrest] at h
      cases h
    | some last =>
      simp only [hrest, furthest, further] at h
      split at h <;> cases h

/-- A failure of the list before which none is as far, and after which none is further. -/
def IsFurthest (failures : List Failure) (failure : Failure) : Prop :=
  ∃ before after, failures = before ++ failure :: after ∧
    (∀ other ∈ before, other.offset < failure.offset) ∧
      ∀ other ∈ after, other.offset ≤ failure.offset

namespace IsFurthest

variable {failures : List Failure} {failure : Failure}

theorem mem (h : IsFurthest failures failure) : failure ∈ failures := by
  obtain ⟨before, after, rfl, -, -⟩ := h
  simp

theorem le (h : IsFurthest failures failure) :
    ∀ other ∈ failures, other.offset ≤ failure.offset := by
  obtain ⟨before, after, rfl, hbefore, hafter⟩ := h
  intro other hother
  rcases List.mem_append.mp hother with hother | hother
  · exact Nat.le_of_lt (hbefore other hother)
  · rcases List.mem_cons.mp hother with rfl | hother
    · exact Nat.le_refl _
    · exact hafter other hother

theorem cons (h : IsFurthest failures failure) {first : Failure}
    (hfirst : first.offset < failure.offset) : IsFurthest (first :: failures) failure := by
  obtain ⟨before, after, rfl, hbefore, hafter⟩ := h
  exact ⟨first :: before, after, rfl, List.forall_mem_cons.mpr ⟨hfirst, hbefore⟩, hafter⟩

end IsFurthest

theorem furthestAmong_isFurthest {failures : List Failure} {failure : Failure}
    (h : furthestAmong failures = some failure) : IsFurthest failures failure := by
  induction failures generalizing failure with
  | nil => cases h
  | cons first failures ih =>
    rw [furthestAmong] at h
    cases hrest : furthestAmong failures with
    | none =>
      rw [hrest] at h
      obtain rfl := Option.some.inj h
      obtain rfl := furthestAmong_eq_none.mp hrest
      exact ⟨[], [], rfl, List.forall_mem_nil _, List.forall_mem_nil _⟩
    | some last =>
      have hlast := ih hrest
      simp only [hrest, furthest, further] at h
      split at h
      · next hlt =>
        obtain rfl := Option.some.inj h
        exact hlast.cons hlt
      · next hle =>
        obtain rfl := Option.some.inj h
        exact ⟨[], failures, rfl, List.forall_mem_nil _, fun other hother =>
          Nat.le_trans (hlast.le other hother) (Nat.le_of_not_lt hle)⟩

/-! ## What is met -/

section

variable (run : Runner (Option Failure))
  (logged : Setting → Mode → Grammar → Nat → List Failure)

mutual

/-- Failures met while a checker is tried as a choice: those of the searches for its grammars. The
choices of an alternative are tried from the last to the first, and then the fallback, where none of
them matches. Of a search that only a length is asked of, as under a negation, no failure is told. -/
def Checker.met (setting : Setting) (start : Nat) : Checker → List Failure
  | .grammar g => logged setting .beginning g start
  | .oneOf choices fallback =>
    Checker.metAmong setting start choices ++
      match Checker.choicesAt run setting start choices with
      | .ok ⟨none, _⟩ => Checker.metByFallback setting start fallback
      | _ => []
  | _ => []

def Checker.metAmong (setting : Setting) (start : Nat) : List Checker → List Failure
  | [] => []
  | c :: cs => Checker.metAmong setting start cs ++ Checker.met setting start c

def Checker.metByFallback (setting : Setting) (start : Nat) : Option Checker → List Failure
  | none => []
  | some c => Checker.met setting start c

end

/-- Failures met while a match of an entry is re-read by its secondary grammar. -/
def Entry.metAgain (setting : Setting) (start : Nat) (found : Found) (entry : Entry) :
    List Failure :=
  match entry.secondary with
  | none => []
  | some g => logged { setting with text := setting.text.slice 0 found.stop } .whole g start

/-- Failures met by the searches within an attempt at an entry with this checker. -/
def Entry.metWithin (setting : Setting) (start : Nat) (c : Checker) (entry : Entry) :
    List Failure :=
  c.met run logged setting start ++
    match c.foundAt run setting start with
    | .ok ⟨some found, _⟩ => entry.metAgain logged setting start found
    | _ => []

namespace Machine

/-- Failures met in an attempt at an entry. A grammar that is walked is not searched for. -/
def metWith (setting : Setting) (m : Machine (Option Failure)) (entry : Entry) (c : Checker) :
    List Failure :=
  if (Target.checker c).isWalked setting.strategy.opens then []
  else entry.metWithin run logged (m.inner setting) m.offset c

/-- The same where the checker has to be found first. -/
def metInAttempt (setting : Setting) (m : Machine (Option Failure)) (entry : Entry) :
    List Failure :=
  (m.checkerFor? setting entry).elim [] (m.metWith run logged setting entry)

/-- The current entry is tried: it is neither full nor left at its fewest repeats. -/
def tries (m : Machine (Option Failure)) (q : Quantifier) (repeats : Nat) : Bool :=
  !q.isZero && (m.forced || !(q.isFull repeats || q.greediness == .minimum && q.lower ≤ repeats))

/-- Failures met at the current entry. An attempt that fails is a failure where the entry has to
match once more. -/
def metAtEntry (setting : Setting) (m : Machine (Option Failure)) (entry : Entry)
    (repeats : Nat) : List Failure :=
  if m.tries entry.quantifier repeats then
    m.metInAttempt run logged setting entry ++
      match m.attempt run setting entry with
      | .ok (_, .failed) =>
        if m.forced || repeats < entry.quantifier.lower then
          [⟨m.offset, .target entry.target, repeats⟩]
        else []
      | _ => []
  else []

/-- Failures met at the end of a nested grammar. -/
def metOnLeaving (setting : Setting) (m : Machine (Option Failure)) (finished parent : Session)
    (below : List Session) : List Failure :=
  match parent.rest with
  | [] => []
  | entry :: _ =>
    let outside := { m with sessions := parent :: below }.inner setting
    let found : Found := ⟨m.offset, finished.nodes.toList, true⟩
    entry.metAgain logged outside finished.start found ++
      match entry.complete run outside finished.start found finished.use with
      | .ok ⟨none, _⟩ => [⟨finished.start, .entry entry, parent.repeats⟩]
      | _ => []

/-- Failures met by one step of a search. -/
def met (setting : Setting) (mode : Mode) (m : Machine (Option Failure)) : List Failure :=
  match m.sessions with
  | [] => []
  | top :: below =>
    match top.rest, below with
    | entry :: _, _ => m.metAtEntry run logged setting entry top.repeats
    | [], parent :: below => m.metOnLeaving run logged setting top parent below
    | [], [] =>
      if mode == .whole && m.offset != setting.text.size then [⟨m.offset, .endOfInput, 0⟩] else []

end Machine

end

/-- All failures that a search of at most so many steps meets from a state on. -/
def Machine.log : (fuel : Nat) → Setting → Mode → Machine (Option Failure) → List Failure
  | 0, _, _, _ => []
  | fuel + 1, setting, mode, m =>
    m.met (runWithin fuel) (fun s md g offset => log fuel s md (.start g offset)) setting mode ++
      match m.step (runWithin fuel) setting mode with
      | .ok (.next next) => log fuel setting mode next
      | _ => []

/-- All failures that a search of at most so many steps meets, those of the searches within it
included. -/
def logWithin (fuel : Nat) (setting : Setting) (mode : Mode) (g : Grammar) (offset : Nat) :
    List Failure :=
  Machine.log fuel setting mode (.start g offset)

theorem Machine.log_succ (fuel : Nat) (setting : Setting) (mode : Mode)
    (m : Machine (Option Failure)) :
    m.log (fuel + 1) setting mode =
      m.met (runWithin fuel) (logWithin fuel) setting mode ++
        match m.step (runWithin fuel) setting mode with
        | .ok (.next next) => next.log fuel setting mode
        | _ => [] := by
  rw [Machine.log]
  rfl

/-! ## What is kept of it -/

/-- If there is a value it has the property. If there is none, it is not that a text is unmatched:
only the answer of the outermost search says that. -/
def Answers {α : Type} (p : α → Prop) : Except Stop α → Prop
  | .ok a => p a
  | .error stop => ∀ u, stop ≠ .refused (.unmatched u)

namespace Answers

variable {α β : Type} {p q : α → Prop} {x : Except Stop α}

theorem ok {a : α} (h : p a) : Answers p (.ok a) := h

theorem fault (f : Fault) : Answers p (.error (.fault f)) := fun _ h => nomatch h

theorem mono (h : Answers p x) (hpq : ∀ a, p a → q a) : Answers q x := by
  cases x with
  | ok a => exact hpq a h
  | error stop => exact h

theorem gives (h : Answers p x) : Gives p x := by
  cases x with
  | ok a => exact .ok h
  | error stop => exact .error

theorem bind {r : β → Prop} {f : α → Except Stop β} (h : Answers p x)
    (hf : ∀ a, x = .ok a → p a → Answers r (f a)) : Answers r (x >>= f) := by
  cases x with
  | ok a => exact hf a rfl h
  | error stop => exact h

end Answers

/-- What a search keeps is the furthest of the failures that are logged for it. -/
def Runner.Logs (run : Runner (Option Failure))
    (logged : Setting → Mode → Grammar → Nat → List Failure) : Prop :=
  ∀ (setting : Setting) (mode : Mode) (g : Grammar) (offset : Nat),
    Answers (fun seen => seen.failures = furthestAmong (logged setting mode g offset))
      (run setting mode g offset)

variable {run : Runner (Option Failure)} {logged : Setting → Mode → Grammar → Nat → List Failure}
  {setting : Setting} {start : Nat}

/-! ## Attempts -/

theorem Checker.choiceAt_met_leaf {c : Checker} (hg : ∀ g, c ≠ .grammar g)
    (hc : ∀ cs fb, c ≠ .oneOf cs fb) :
    Answers (fun seen => seen.failures = furthestAmong (c.met run logged setting start))
      (c.choiceAt run setting start) := by
  have hnone : c.met run logged setting start = [] := by
    cases c with
    | grammar g => exact absurd rfl (hg g)
    | oneOf cs fb => exact absurd rfl (hc cs fb)
    | _ => rfl
  rw [Checker.choiceAt_of_lengthAt hg hc, hnone]
  split
  · exact .ok rfl
  · exact .fault _

mutual

theorem Checker.choiceAt_met (hrun : run.Logs logged) : ∀ (c : Checker),
    Answers (fun seen => seen.failures = furthestAmong (c.met run logged setting start))
      (c.choiceAt run setting start)
  | .char _ | .word _ | .any _ | .not _ | .fixed _ =>
    Checker.choiceAt_met_leaf (by simp) (by simp)
  | .grammar g => (hrun setting .beginning g start).bind fun _ _ hseen => .ok hseen
  | .oneOf choices fallback => by
    simp only [Checker.choiceAt, Checker.met]
    refine (Checker.choicesAt_met hrun choices).bind fun chosen hok hchosen => ?_
    obtain ⟨_ | found, failures⟩ := chosen
    · refine (Checker.fallbackAt_met hrun fallback).bind fun other _ hother => .ok ?_
      simp only at hchosen
      simp only [hok, hchosen, hother, furthestAmong_append]
      rfl
    · refine .ok ?_
      simpa only [hok, List.append_nil] using hchosen

theorem Checker.choicesAt_met (hrun : run.Logs logged) : ∀ (cs : List Checker),
    Answers (fun seen => seen.failures =
        furthestAmong (Checker.metAmong run logged setting start cs))
      (Checker.choicesAt run setting start cs)
  | [] => .ok rfl
  | c :: cs => by
    simp only [Checker.choicesAt, Checker.metAmong]
    refine (Checker.choicesAt_met hrun cs).bind fun later _ hlater => ?_
    refine (Checker.choiceAt_met hrun c).bind fun here _ hhere => .ok ?_
    simp only [hlater, hhere, furthestAmong_append]
    rfl

theorem Checker.fallbackAt_met (hrun : run.Logs logged) : ∀ (c : Option Checker),
    Answers (fun seen => seen.failures =
        furthestAmong (Checker.metByFallback run logged setting start c))
      (Checker.fallbackAt run setting start c)
  | none => .ok rfl
  | some c => Checker.choiceAt_met hrun c

end

theorem Checker.foundAt_met (hrun : run.Logs logged) (c : Checker) :
    Answers (fun seen => seen.failures = furthestAmong (c.met run logged setting start))
      (c.foundAt run setting start) := by
  cases c with
  | fixed regions =>
    simp only [Checker.foundAt]
    split
    · exact .ok rfl
    · exact .fault _
  | _ => exact Checker.choiceAt_met hrun _

theorem Entry.reread_met (hrun : run.Logs logged) (entry : Entry) (found : Found) :
    Answers (fun seen => seen.failures =
        furthestAmong (entry.metAgain logged setting start found))
      (entry.reread run setting start found) := by
  obtain ⟨capture, target, q, _ | g⟩ := entry
  · exact .ok rfl
  simp only [Entry.reread]
  split
  · exact (hrun _ .whole g start).bind fun _ _ hseen => .ok hseen
  · exact .fault _

/-- Whether the type accepts the match or not makes no difference to the failures. -/
theorem Entry.complete_met (hrun : run.Logs logged) (entry : Entry) (found : Found)
    (use : Option TypeUse) :
    Answers (fun seen => seen.failures =
        furthestAmong (entry.metAgain logged setting start found))
      (entry.complete run setting start found use) := by
  simp only [Entry.complete]
  refine (Entry.reread_met hrun entry found).bind fun seen _ hseen => ?_
  obtain ⟨_ | kept, failures⟩ := seen
  · exact .ok hseen
  cases use with
  | none => exact .ok hseen
  | some use =>
    simp only
    split
    · exact .ok hseen
    · exact .ok hseen

variable {m : Machine (Option Failure)}

/-- The state after an attempt is the same but for the checkers kept and for the failures, to which
those met in the attempt are added. -/
structure Machine.Recorded (m : Machine (Option Failure)) (met : List Failure)
    (m' : Machine (Option Failure)) : Prop where
  sessions : m'.sessions = m.sessions
  snapshots : m'.snapshots = m.snapshots
  offset : m'.offset = m.offset
  forced : m'.forced = m.forced
  failures : m'.failures = furthest m.failures (furthestAmong met)

theorem Machine.Recorded.none (m : Machine (Option Failure)) : m.Recorded [] m :=
  ⟨rfl, rfl, rfl, rfl, (furthest_none _).symm⟩

theorem Machine.Recorded.record {met : List Failure} {m' : Machine (Option Failure)}
    (h : m.Recorded met m') (later : List Failure) :
    m.Recorded (met ++ later) (m'.record (furthestAmong later)) := by
  refine ⟨h.sessions, h.snapshots, h.offset, h.forced, ?_⟩
  rw [furthestAmong_append, ← furthest_assoc, ← h.failures]
  rfl

theorem Machine.Recorded.inner {met : List Failure} {m' : Machine (Option Failure)}
    (h : m.Recorded met m') (setting : Setting) : m'.inner setting = m.inner setting := by
  simp only [Machine.inner, Machine.scopes, h.sessions]

theorem Machine.Recorded.trans {met later : List Failure} {m' m'' : Machine (Option Failure)}
    (h : m.Recorded met m') (h' : m'.Recorded later m'') : m.Recorded (met ++ later) m'' := by
  refine ⟨h'.sessions.trans h.sessions, h'.snapshots.trans h.snapshots, h'.offset.trans h.offset,
    h'.forced.trans h.forced, ?_⟩
  rw [h'.failures, h.failures, furthestAmong_append, furthest_assoc]

theorem Machine.matchChecker_met (hrun : run.Logs logged) (entry : Entry) (c : Checker)
    (use : Option TypeUse) :
    Answers (fun r => m.Recorded (entry.metWithin run logged (m.inner setting) m.offset c) r.1)
      (m.matchChecker run setting entry c use) := by
  simp only [Machine.matchChecker, Entry.metWithin]
  refine (Checker.foundAt_met hrun c).bind fun seen hok hseen => ?_
  have hfirst : m.Recorded (c.met run logged (m.inner setting) m.offset) (m.record seen.failures) :=
    hseen ▸ (Machine.Recorded.none m).record _
  obtain ⟨_ | found, failures⟩ := seen
  · refine .ok ?_
    simpa only [hok, List.append_nil] using hfirst
  refine (Entry.complete_met hrun entry found use).bind fun completed _ hcompleted => ?_
  have hboth := hfirst.record (entry.metAgain logged (m.inner setting) m.offset found)
  have hcompleted : completed.failures =
      furthestAmong (entry.metAgain logged (m.inner setting) m.offset found) := hcompleted
  rw [← hcompleted] at hboth
  simp only [hok]
  split
  · exact .ok hboth
  · exact .ok hboth

theorem Machine.attemptChecker_met (hrun : run.Logs logged) (entry : Entry) (c : Checker)
    (use : Option TypeUse) :
    Answers (fun r => m.Recorded (m.metWith run logged setting entry c) r.1)
      (m.attemptChecker run setting entry c use) := by
  have hmatch : Answers _ (m.matchChecker run setting entry c use) :=
    Machine.matchChecker_met hrun entry c use
  cases c with
  | grammar g =>
    have hmet : m.metWith run logged setting entry (.grammar g) =
        if setting.strategy.opens g then [] else _ := rfl
    rw [hmet, Machine.attemptChecker]
    by_cases hopens : setting.strategy.opens g = true
    · simp only [if_pos hopens]
      exact .ok (.none m)
    · simp only [if_neg hopens]
      exact hmatch
  | _ => exact hmatch

/-- To ask a type for its checker is no failure. -/
theorem Machine.checkerOf_met (use : TypeUse) :
    Answers (fun r => m.Recorded [] r.1) (m.checkerOf setting use) := by
  simp only [Machine.checkerOf]
  split
  · exact .ok (.none m)
  · split
    · exact .fault _
    · next error _ =>
      intro u h
      cases error <;> cases h
    · refine .ok ?_
      split
      · exact ⟨rfl, rfl, rfl, rfl, (furthest_none _).symm⟩
      · exact .none m

theorem Machine.attemptType_met (hrun : run.Logs logged) (entry : Entry) (use : TypeUse) :
    Answers (fun r => m.Recorded (((m.checkerOf setting use).toOption.map Prod.snd).elim []
        (m.metWith run logged setting entry)) r.1)
      (m.attemptType run setting entry use) := by
  simp only [Machine.attemptType]
  refine (Machine.checkerOf_met use).bind fun r hok hr => ?_
  obtain ⟨m', c⟩ := r
  have hoffset : m'.offset = m.offset := hr.offset
  have hsame : m'.metWith run logged setting entry c = m.metWith run logged setting entry c := by
    simp only [Machine.metWith, hr.inner, hoffset]
  simp only [hok]
  refine (Machine.attemptChecker_met hrun entry c (some use)).mono fun r' hr' => ?_
  rw [hsame] at hr'
  exact hr.trans hr'

/-- **What is met in an attempt** is added to what the search keeps. -/
theorem Machine.attempt_met (hrun : run.Logs logged) (entry : Entry) :
    Answers (fun r => m.Recorded (m.metInAttempt run logged setting entry) r.1)
      (m.attempt run setting entry) := by
  simp only [Machine.attempt, Machine.metInAttempt, Machine.checkerFor?]
  cases entry.target with
  | checker c => exact Machine.attemptChecker_met hrun entry c none
  | ref r =>
    simp only
    cases setting.types.find? r.name with
    | none => exact fun u h => nomatch h
    | some type => exact Machine.attemptType_met hrun entry ⟨type, r.param⟩
  | type type => exact Machine.attemptType_met hrun entry ⟨type, none⟩

/-! ## Steps -/

/-- What a search keeps of the failures after a step. -/
def Step.failures : Step (Option Failure) → Option Failure
  | .next m => m.failures
  | .done _ failures => failures

namespace Machine

@[simp] theorem advance_failures (m : Machine (Option Failure)) :
    m.advance.failures = m.failures := by
  simp only [advance]
  split <;> rfl

@[simp] theorem accept_failures (m : Machine (Option Failure)) (start stop : Nat)
    (nodes : List Node) : (m.accept start stop nodes).failures = m.failures := by
  obtain ⟨sessions, snapshots, offset, forced, failures, checkers⟩ := m
  cases sessions <;> simp only [accept] <;> split <;> simp

theorem resume_failures {m next : Machine (Option Failure)} {snapshot : Snapshot}
    (h : m.resume snapshot = some next) : next.failures = m.failures := by
  rcases resume_cases h with ⟨_, rfl⟩ | ⟨_, rfl⟩
  · rfl
  · exact advance_failures _

/-- No snapshot takes back what was met since it was saved. -/
theorem backtrackIn_failures {count : Nat} {m next : Machine (Option Failure)}
    (h : backtrackIn count m = some next) : next.failures = m.failures := by
  obtain ⟨earlier, snapshot, later, _, hresume⟩ := backtrackIn_resumes h
  have hkept := resume_failures hresume
  exact hkept

@[simp] theorem giveUp_failures (m : Machine (Option Failure)) :
    m.giveUp.failures = m.failures := by
  simp only [giveUp]
  split
  · next hnext => exact backtrackIn_failures hnext
  · rfl

variable {m : Machine (Option Failure)}

/-- None of the moves that need no attempt is made. -/
theorem tries_eq (m : Machine (Option Failure)) (q : Quantifier) (repeats : Nat) :
    m.tries q repeats = (!q.isZero && !(!m.forced && q.isFull repeats) &&
      !(!m.forced && q.greediness == .minimum && decide (q.lower ≤ repeats))) := by
  unfold tries
  cases m.forced
  · simp only [Bool.false_or, Bool.not_or, Bool.not_false, Bool.true_and, Bool.and_assoc]
  · simp only [Bool.true_or, Bool.not_true, Bool.false_and, Bool.not_false, Bool.and_true]

theorem stepEntry_met (hrun : run.Logs logged) (entry : Entry) (repeats : Nat) :
    Answers (fun step => step.failures =
        furthest m.failures (furthestAmong (m.metAtEntry run logged setting entry repeats)))
      (m.stepEntry run setting entry repeats) := by
  have hnone (next : Machine (Option Failure)) (h : next.failures = m.failures)
      (htries : m.tries entry.quantifier repeats = false) : (Step.next next).failures =
        furthest m.failures (furthestAmong (m.metAtEntry run logged setting entry repeats)) := by
    rw [metAtEntry, htries, if_neg Bool.false_ne_true, furthestAmong_nil, furthest_none]
    exact h
  simp only [stepEntry]
  split
  · next hzero =>
    refine .ok (hnone _ (advance_failures m) ?_)
    rw [tries_eq, hzero, Bool.not_true, Bool.false_and, Bool.false_and]
  split
  · next hfull =>
    refine .ok (hnone _ (advance_failures m) ?_)
    rw [tries_eq, hfull, Bool.not_true, Bool.and_false, Bool.false_and]
  split
  · next hfewest =>
    refine .ok (hnone _ (advance_failures _) ?_)
    rw [tries_eq, hfewest, Bool.not_true, Bool.and_false]
  next hzero hfull hfewest =>
  have htries : m.tries entry.quantifier repeats = true := by
    rw [tries_eq, Bool.eq_false_of_not_eq_true hzero, Bool.eq_false_of_not_eq_true hfull,
      Bool.eq_false_of_not_eq_true hfewest]
    rfl
  refine (attempt_met hrun entry).bind fun r hok hr => ?_
  obtain ⟨m', result⟩ := r
  rw [metAtEntry, htries, if_pos rfl, hok]
  cases result with
  | matched stop nodes =>
    refine .ok ?_
    simp only [List.append_nil, Step.failures, accept_failures]
    split
    · exact hr.failures
    · exact hr.failures
  | opens g use =>
    refine .ok ?_
    simp only [List.append_nil]
    exact hr.failures
  | failed =>
    have hforced : m'.forced = m.forced := hr.forced
    have hoffset : m'.offset = m.offset := hr.offset
    simp only [hforced, hoffset]
    by_cases hrequired : (m.forced || repeats < entry.quantifier.lower) = true
    · simp only [if_pos hrequired]
      refine .ok ?_
      rw [giveUp_failures]
      exact (hr.record [⟨m.offset, .target entry.target, repeats⟩]).failures
    · simp only [if_neg hrequired, List.append_nil]
      exact .ok ((advance_failures m').trans hr.failures)

/-- The way back into a session may be closed, which makes no difference to what goes on here. -/
theorem closing_same (setting : Setting) (m : Machine (Option Failure)) (closes : Prop)
    [Decidable closes] (barrier : Option Nat) :
    ∃ out, (if closes then m.close barrier else m) = out ∧
      out.inner setting = m.inner setting ∧ out.offset = m.offset ∧ out.failures = m.failures := by
  refine ⟨_, rfl, ?_⟩
  split
  · cases barrier <;> exact ⟨rfl, rfl, rfl⟩
  · exact ⟨rfl, rfl, rfl⟩

theorem stepOut_met (hrun : run.Logs logged) (finished parent : Session) (below : List Session) :
    Answers (fun step => step.failures = furthest m.failures
        (furthestAmong (m.metOnLeaving run logged setting finished parent below)))
      (m.stepOut run setting finished parent below) := by
  simp only [stepOut, metOnLeaving]
  cases parent.rest with
  | nil =>
    refine .ok ?_
    rw [giveUp_failures, furthestAmong_nil, furthest_none]
  | cons entry rest =>
    obtain ⟨out, hout, hinner, hoffset, hfailures⟩ :=
      closing_same setting { m with sessions := parent :: below }
        (entry.quantifier.greediness == .possessive) finished.barrier
    have hfailures : out.failures = m.failures := hfailures
    simp only
    rw [hout, hinner, hoffset, ← hfailures]
    refine (Entry.complete_met hrun entry _ finished.use).bind fun seen hok hseen => ?_
    have hagain : out.Recorded _ (out.record seen.failures) := hseen ▸ (Recorded.none out).record _
    simp only [hok]
    obtain ⟨_ | nodes, failures⟩ := seen
    · refine .ok ?_
      rw [giveUp_failures]
      exact (hagain.record [⟨finished.start, .entry entry, parent.repeats⟩]).failures
    · simp only [List.append_nil]
      exact .ok ((accept_failures _ _ _ _).trans hagain.failures)

/-- **What is met in a step** is added to what the search keeps. -/
theorem step_met (hrun : run.Logs logged) (mode : Mode) :
    Answers (fun step => step.failures =
        furthest m.failures (furthestAmong (m.met run logged setting mode)))
      (m.step run setting mode) := by
  have hnone : m.failures = furthest m.failures (furthestAmong []) := by
    rw [furthestAmong_nil, furthest_none]
  simp only [step, met]
  cases m.sessions with
  | nil => exact .ok hnone
  | cons top below =>
    obtain ⟨_ | ⟨entry, rest⟩, repeats, start, nodes, barrier, use⟩ := top
    · cases below with
      | cons parent below => exact stepOut_met hrun _ parent below
      | nil =>
        simp only
        by_cases hleft : (mode == .whole && m.offset != setting.text.size) = true
        · simp only [if_pos hleft]
          exact .ok (giveUp_failures _)
        · simp only [if_neg hleft]
          exact .ok hnone
    · exact stepEntry_met hrun entry repeats

end Machine

/-! ## Runs -/

/-- **A search keeps the first of the failures furthest into the text** of all that it meets. -/
theorem Machine.run_log (fuel : Nat) (mode : Mode) (m : Machine (Option Failure)) :
    Answers (fun seen => seen.failures =
        furthest m.failures (furthestAmong (m.log fuel setting mode)))
      (Machine.run fuel setting mode m) := by
  induction fuel generalizing setting mode m with
  | zero => exact .fault _
  | succ fuel ih =>
    -- The searches within this step have one step less, in settings of their own.
    have hrun : (runWithin fuel).Logs (logWithin fuel) :=
      fun setting mode g offset => ih mode (.start g offset)
    have hstep : Answers _ (m.step (runWithin fuel) setting mode) := Machine.step_met hrun mode
    rw [Machine.run_succ, Machine.log_succ]
    cases hs : m.step (runWithin fuel) setting mode with
    | error stop =>
      rw [hs] at hstep
      exact hstep
    | ok step =>
      rw [hs] at hstep
      cases step with
      | done result failures =>
        refine .ok ?_
        rw [List.append_nil]
        exact hstep
      | next next =>
        have hnext : next.failures = _ := hstep
        refine (ih mode next).mono fun seen hseen => ?_
        rw [hseen, hnext, furthestAmong_append, furthest_assoc]

theorem runWithin_logs (fuel : Nat) : (runWithin fuel).Logs (logWithin fuel) :=
  fun _ mode g offset => Machine.run_log fuel mode (.start g offset)

end TextGrammar
