/-
Where the sessions of a search stand. A session that was opened inside another
one keeps the place of a snapshot, a mere number, while snapshots are saved and
taken up above it and copies of the session lie in them. It is still the place
of the snapshot that was saved when the session was opened, since what takes a
search back below that place also takes it back to sessions from before.
-/
import TextGrammar.Proofs.FurthestFailure
import TextGrammar.Proofs.Halting

namespace TextGrammar

/-! ## Sessions that go on -/

/-- The same session, as far in its grammar or further. -/
structure Session.Later (session later : Session) : Prop where
  rest : later.rest <:+ session.rest
  start : later.start = session.start
  barrier : later.barrier = session.barrier
  use : later.use = session.use

/-- The same sessions, of which the innermost one may have gone on. -/
inductive Session.GoOn : List Session → List Session → Prop where
  | same (sessions : List Session) : GoOn sessions sessions
  | top {session later : Session} (h : session.Later later) (below : List Session) :
    GoOn (session :: below) (later :: below)

/-- The innermost session has an entry to go on with. -/
def Session.AtEntry : List Session → Prop
  | [] => False
  | session :: _ => session.rest ≠ []

theorem Session.Later.trans {first later last : Session} (h : first.Later later)
    (h' : later.Later last) : first.Later last :=
  ⟨h'.rest.trans h.rest, h'.start.trans h.start, h'.barrier.trans h.barrier, h'.use.trans h.use⟩

theorem Session.GoOn.trans {first later last : List Session} (h : Session.GoOn first later)
    (h' : Session.GoOn later last) : Session.GoOn first last := by
  cases h with
  | same => exact h'
  | top h below =>
    cases h' with
    | same => exact .top h below
    | top h' => exact .top (h.trans h') below

namespace Machine

variable {L : Type} {m : Machine L}

theorem advance_goOn {sessions : List Session} (hm : m.sessions = sessions) :
    Session.GoOn sessions m.advance.sessions := by
  subst hm
  simp only [advance]
  split
  · exact .same _
  · next top below hm =>
    have hlater : top.Later { top with rest := top.rest.tail, repeats := 0 } :=
      ⟨List.tail_suffix top.rest, rfl, rfl, rfl⟩
    rw [hm]
    exact .top hlater below

theorem accept_goOn (m : Machine L) (start stop : Nat) (nodes : List Node) :
    Session.GoOn m.sessions (m.accept start stop nodes).sessions := by
  obtain ⟨sessions, snapshots, offset, forced, failures, checkers⟩ := m
  cases sessions with
  | nil =>
    simp only [accept]
    split <;> exact .same _
  | cons top below =>
    have hlater : top.Later
        { top with nodes := top.nodes.pushAll nodes, repeats := top.repeats + 1 } :=
      ⟨List.suffix_refl top.rest, rfl, rfl, rfl⟩
    simp only [accept]
    split
    · exact (Session.GoOn.top hlater below).trans (advance_goOn rfl)
    · exact .top hlater below

end Machine

/-! ## What is saved -/

/-- The state saved with a snapshot, whatever is left to try there. -/
def Snapshot.closed (snapshot : Snapshot) : Snapshot := { snapshot with action := .exhausted }

namespace Machine

variable {L : Type} {m next : Machine L}

/-- The states saved, the newest last. -/
def saved (m : Machine L) : List Snapshot := m.snapshots.toList.map Snapshot.closed

theorem saved_getElem? (m : Machine L) (place : Nat) :
    m.saved[place]? = m.snapshots[place]?.map Snapshot.closed := by
  rw [saved, List.getElem?_map, Array.getElem?_toList]

theorem saved_length (m : Machine L) : m.saved.length = m.snapshots.size := by
  rw [saved, List.length_map, Array.length_toList]

theorem saved_congr {m' : Machine L} (h : m'.snapshots = m.snapshots) : m'.saved = m.saved := by
  rw [saved, saved, h]

theorem saved_of_push {snapshots : Array Snapshot} {snapshot : Snapshot}
    (h : m.snapshots = snapshots.push snapshot) :
    m.saved = snapshots.toList.map Snapshot.closed ++ [snapshot.closed] := by
  rw [saved, h, Array.toList_push, List.map_append, List.map_singleton]

@[simp] theorem saved_advance (m : Machine L) : m.advance.saved = m.saved := by
  simp only [advance]
  split <;> rfl

@[simp] theorem saved_accept (m : Machine L) (start stop : Nat) (nodes : List Node) :
    (m.accept start stop nodes).saved = m.saved := by
  obtain ⟨sessions, snapshots, offset, forced, failures, checkers⟩ := m
  cases sessions <;> simp only [accept] <;> split <;> rfl

theorem saved_save (m : Machine L) (action : Action) :
    (m.save action).saved = m.saved ++ [⟨m.sessions, m.offset, m.forced, .exhausted⟩] :=
  saved_of_push (show (m.save action).snapshots = m.snapshots.push _ from rfl)

@[simp] theorem saved_close (m : Machine L) (barrier : Option Nat) :
    (m.close barrier).saved = m.saved := by
  refine List.ext_getElem? fun place => ?_
  rw [saved_getElem?, saved_getElem?]
  rcases (Snapshot.Spent.close m barrier).each place with h | h
  · rw [h]
  · rw [h, Option.map_map]
    rfl

/-- A snapshot taken up leads to its sessions, and nothing more is dropped. -/
theorem resume_saved {snapshot : Snapshot} (h : m.resume snapshot = some next) :
    Session.GoOn snapshot.sessions next.sessions ∧ next.saved = m.saved := by
  rcases resume_cases h with ⟨_, rfl⟩ | ⟨_, rfl⟩
  · exact ⟨.same _, rfl⟩
  · exact ⟨advance_goOn rfl, saved_advance _⟩

/-- **What giving up leads back to**: the state of a snapshot, with those saved before it. -/
theorem backtrackIn_cases {count : Nat} (h : backtrackIn count m = some next) :
    ∃ place snapshot, m.saved[place]? = some snapshot ∧
      Session.GoOn snapshot.sessions next.sessions ∧ next.saved = m.saved.take place := by
  obtain ⟨earlier, snapshot, later, hm, hresume⟩ := backtrackIn_resumes h
  obtain ⟨hsessions, hnext⟩ := resume_saved hresume
  have hearlier : next.saved = earlier.toList.map Snapshot.closed := hnext
  have hsaved : m.saved =
      earlier.toList.map Snapshot.closed ++ snapshot.closed :: later.toList.map Snapshot.closed := by
    simp only [saved, hm, Array.toList_append, Array.toList_push, List.map_append, List.map_cons,
      List.append_assoc, List.cons_append, List.nil_append]
  refine ⟨earlier.size, snapshot.closed, ?_, hsessions, ?_⟩
  · rw [hsaved, List.getElem?_append_right (by simp), List.length_map, Array.length_toList,
      Nat.sub_self, List.getElem?_cons_zero]
  · rw [hearlier, hsaved, List.take_left' (by simp)]

end Machine

/-! ## Steps -/

/-- All that a step does to the sessions and to what is saved. -/
inductive Machine.Effect {L : Type} (m next : Machine L) : Prop where
  /-- A session goes on, after one that was opened for it or as it was. -/
  | goesOn (sessions : List Session) (hm : sessions <:+ m.sessions) (hne : sessions ≠ [])
    (hnext : Session.GoOn sessions next.sessions) (hsaved : next.saved = m.saved)
  /-- The innermost session goes on from its entry, and the state before that is saved. -/
  | saves (hentry : Session.AtEntry m.sessions) (hnext : Session.GoOn m.sessions next.sessions)
    (hsaved : next.saved = m.saved ++ [⟨m.sessions, m.offset, m.forced, .exhausted⟩])
  /-- A session is opened for an entry, and the state before that is saved. -/
  | enters (g : Grammar) (use : Option TypeUse) (hentry : Session.AtEntry m.sessions)
    (hsessions : next.sessions =
      ⟨g.entries, 0, m.offset, .empty, some m.snapshots.size, use⟩ :: m.sessions)
    (hsnapshots : next.snapshots = m.snapshots.push ⟨m.sessions, m.offset, m.forced, .passOver⟩)
  /-- A saved state is taken up, and it is dropped with all that was saved later. -/
  | returns (place : Nat) (snapshot : Snapshot) (hplace : m.saved[place]? = some snapshot)
    (hnext : Session.GoOn snapshot.sessions next.sessions)
    (hsaved : next.saved = m.saved.take place)

/-- If the search goes on, the step does no more than that. -/
def Step.Does {L : Type} (m : Machine L) : Step L → Prop
  | .next later => m.Effect later
  | .done _ _ => True

namespace Machine

theorem giveUp_does {L : Type} {m m' : Machine L} (h : m'.saved = m.saved) :
    m'.giveUp.Does m := by
  simp only [giveUp]
  split
  · next next hnext =>
    obtain ⟨place, snapshot, hplace, hsessions, hsaved⟩ := backtrackIn_cases hnext
    rw [h] at hplace hsaved
    exact .returns place snapshot hplace hsessions hsaved
  · trivial

section

variable {run : Runner (Option Failure)}
  {logged : Setting → Mode → Grammar → Nat → List Failure} {setting : Setting}
  {m next : Machine (Option Failure)}

theorem stepEntry_does (hrun : run.Logs logged) {entry : Entry}
    (hentry : Session.AtEntry m.sessions) (repeats : Nat) :
    Gives (Step.Does m) (m.stepEntry run setting entry repeats) := by
  have hne : m.sessions ≠ [] := by
    intro hnil
    rw [hnil] at hentry
    exact hentry
  have hgoesOn {next : Machine (Option Failure)} (hnext : Session.GoOn m.sessions next.sessions)
      (hsaved : next.saved = m.saved) : (Step.next next).Does m :=
    .goesOn m.sessions (List.suffix_refl _) hne hnext hsaved
  have hadvance : (Step.next m.advance).Does m := hgoesOn (advance_goOn rfl) (saved_advance m)
  simp only [stepEntry]
  split
  · exact .ok hadvance
  split
  · exact .ok hadvance
  split
  · refine .ok (.saves hentry (advance_goOn rfl) ?_)
    rw [saved_advance, saved_save]
  refine (attempt_met hrun entry).gives.bind fun r hr => ?_
  obtain ⟨m', result⟩ := r
  have hsessions : m'.sessions = m.sessions := hr.sessions
  have hsnapshots : m'.snapshots = m.snapshots := hr.snapshots
  have hsaved : m'.saved = m.saved := saved_congr hsnapshots
  have hoffset : m'.offset = m.offset := hr.offset
  have hforced : m'.forced = m.forced := hr.forced
  cases result with
  | matched stop nodes =>
    refine .ok ?_
    split
    · refine .saves hentry (hsessions ▸ accept_goOn (m'.save .passOver) _ stop nodes) ?_
      rw [saved_accept, saved_save, hsaved, hsessions, hoffset, hforced]
    · exact hgoesOn (hsessions ▸ accept_goOn m' _ stop nodes) ((saved_accept ..).trans hsaved)
  | opens g use =>
    refine .ok (.enters g use hentry ?_ ?_)
    · simp only [enter, save, hsessions, hoffset, hsnapshots]
    · simp only [enter, save, hsessions, hoffset, hforced, hsnapshots]
  | failed =>
    simp only
    split
    · exact .ok (giveUp_does hsaved)
    · exact .ok (hgoesOn (advance_goOn hsessions) ((saved_advance m').trans hsaved))

theorem stepOut_does (hrun : run.Logs logged) {finished parent : Session} {below : List Session}
    (hm : m.sessions = finished :: parent :: below) :
    Gives (Step.Does m) (m.stepOut run setting finished parent below) := by
  simp only [stepOut]
  split
  · exact .ok (giveUp_does rfl)
  · next entry rest hrest =>
    obtain ⟨out, heq, hsessions, hsaved⟩ : ∃ out : Machine (Option Failure),
        (if (entry.quantifier.greediness == .possessive) = true then
          Machine.close { m with sessions := parent :: below } finished.barrier
          else { m with sessions := parent :: below }) = out ∧
        out.sessions = parent :: below ∧ out.saved = m.saved := by
      refine ⟨_, rfl, ?_⟩
      split
      · exact ⟨close_sessions _ _, saved_close _ _⟩
      · exact ⟨rfl, rfl⟩
    rw [heq]
    refine (Entry.complete_met hrun entry _ finished.use).gives.bind fun seen _ => ?_
    obtain ⟨completed, failures⟩ := seen
    cases completed with
    | some nodes =>
      refine .ok (.goesOn (parent :: below) ?_ (List.cons_ne_nil _ _)
        (hsessions ▸ accept_goOn (out.record failures) _ _ nodes) ?_)
      · rw [hm]
        exact List.suffix_cons finished _
      · rw [saved_accept]
        exact hsaved
    | none => exact .ok (giveUp_does hsaved)

theorem step_does (hrun : run.Logs logged) (mode : Mode) :
    Gives (Step.Does m) (m.step run setting mode) := by
  simp only [step]
  split
  · exact .ok trivial
  · next top below hm =>
    split
    · next _ entry rest hrest =>
      refine stepEntry_does hrun ?_ top.repeats
      rw [hm, Session.AtEntry, hrest]
      exact List.cons_ne_nil entry rest
    · exact stepOut_does hrun hm
    · split
      · exact .ok (giveUp_does rfl)
      · exact .ok trivial

end

variable {setting : Setting} {mode : Mode} {fuel : Nat} {m next : Machine (Option Failure)}

/-- **What a step of a search does** to its sessions and to what is saved. -/
theorem effect_of_step (h : m.step (runWithin fuel) setting mode = .ok (.next next)) :
    m.Effect next :=
  step_does (runWithin_logs fuel) mode _ h

/-- What is saved below the top stays as it is. -/
theorem Effect.saved_getElem? (h : m.Effect next) {place : Nat} (hm : place < m.snapshots.size)
    (hnext : place < next.snapshots.size) : next.saved[place]? = m.saved[place]? := by
  rw [← saved_length] at hm hnext
  cases h with
  | goesOn _ _ _ _ hsaved => rw [hsaved]
  | saves _ _ hsaved => rw [hsaved, List.getElem?_append_left hm]
  | enters _ _ _ _ hsnapshots =>
    rw [saved_of_push hsnapshots, ← saved, List.getElem?_append_left hm]
  | returns _ _ _ _ hsaved =>
    rw [hsaved, List.length_take] at hnext
    rw [hsaved, List.getElem?_take_of_lt (by omega)]

end Machine

/-! ## What lies behind sessions -/

/-- Sessions, the innermost first, of which the outermost one has no barrier. The barrier of every
other session is one of the first `bound` places, and `behind` says how that place goes with the
session and the sessions around it. -/
inductive Session.Barred (behind : Nat → Session → List Session → Prop) (bound : Nat) :
    List Session → Prop where
  | outermost {session : Session} (h : session.barrier = none) : Barred behind bound [session]
  | inside {place : Nat} {session : Session} {around : List Session}
    (hbarrier : session.barrier = some place) (hbound : place < bound)
    (hbehind : behind place session around) (h : Barred behind bound around) :
    Barred behind bound (session :: around)

namespace Session.Barred

variable {behind behind' : Nat → Session → List Session → Prop} {bound bound' : Nat}
  {sessions : List Session}

theorem mono (h : Session.Barred behind bound sessions) (hbound : bound ≤ bound')
    (hbehind : ∀ place session around, place < bound → behind place session around →
      behind' place session around) : Session.Barred behind' bound' sessions := by
  induction h with
  | outermost hnone => exact .outermost hnone
  | inside hbarrier hlt hhere _ ih =>
    exact .inside hbarrier (Nat.lt_of_lt_of_le hlt hbound) (hbehind _ _ _ hlt hhere) ih

/-- What lies behind a session does not depend on how far it is. -/
theorem goOn {later : List Session} (h : Session.Barred behind bound sessions)
    (hstable : ∀ place session later around, Session.Later session later →
      behind place session around → behind place later around)
    (hgoOn : Session.GoOn sessions later) : Session.Barred behind bound later := by
  cases hgoOn with
  | same => exact h
  | top hlater below =>
    cases h with
    | outermost hnone => exact .outermost (hlater.barrier.trans hnone)
    | inside hbarrier hlt hbehind h =>
      exact .inside (hlater.barrier.trans hbarrier) hlt (hstable _ _ _ _ hlater hbehind) h

theorem of_suffix {inner : List Session} (h : Session.Barred behind bound sessions)
    (hinner : inner <:+ sessions) (hne : inner ≠ []) : Session.Barred behind bound inner := by
  induction h with
  | outermost hnone =>
    rcases List.suffix_cons_iff.mp hinner with rfl | hinner
    · exact .outermost hnone
    · exact absurd (List.suffix_nil.mp hinner) hne
  | inside hbarrier hlt hbehind h ih =>
    rcases List.suffix_cons_iff.mp hinner with rfl | hinner
    · exact .inside hbarrier hlt hbehind h
    · exact ih hinner

end Session.Barred

/-- Saved states, the oldest first: each is at an entry, and the barriers in it are among the places
before its own. -/
def Snapshot.Barred (behind : Nat → Session → List Session → Prop) (saved : List Snapshot) : Prop :=
  ∀ (place : Nat) (snapshot : Snapshot), saved[place]? = some snapshot →
    Session.Barred behind place snapshot.sessions ∧ Session.AtEntry snapshot.sessions

namespace Snapshot.Barred

variable {behind behind' : Nat → Session → List Session → Prop} {saved : List Snapshot}

theorem mono (h : Snapshot.Barred behind saved) (hbehind : ∀ place session around,
    place < saved.length → behind place session around → behind' place session around) :
    Snapshot.Barred behind' saved := by
  intro place snapshot hplace
  obtain ⟨hbarred, hentry⟩ := h place snapshot hplace
  have hlt : place < saved.length := (List.getElem?_eq_some_iff.mp hplace).1
  exact ⟨hbarred.mono (Nat.le_refl _) fun _ _ _ hlower =>
    hbehind _ _ _ (Nat.lt_trans hlower hlt), hentry⟩

theorem push (h : Snapshot.Barred behind saved) {snapshot : Snapshot}
    (hbarred : Session.Barred behind saved.length snapshot.sessions)
    (hentry : Session.AtEntry snapshot.sessions) :
    Snapshot.Barred behind (saved ++ [snapshot]) := by
  intro place found hplace
  rcases Nat.lt_or_ge place saved.length with hlt | hge
  · rw [List.getElem?_append_left hlt] at hplace
    exact h place found hplace
  · rw [List.getElem?_append_right hge, List.getElem?_singleton] at hplace
    split at hplace
    · next hzero =>
      obtain rfl : place = saved.length := by omega
      obtain rfl := Option.some.inj hplace
      exact ⟨hbarred, hentry⟩
    · cases hplace

theorem take (h : Snapshot.Barred behind saved) (count : Nat) :
    Snapshot.Barred behind (saved.take count) := by
  intro place snapshot hplace
  have hlt : place < (saved.take count).length := (List.getElem?_eq_some_iff.mp hplace).1
  rw [List.length_take] at hlt
  rw [List.getElem?_take_of_lt (by omega)] at hplace
  exact h place snapshot hplace

/-- What is left to try does not matter. -/
theorem closed_iff : Snapshot.Barred behind (saved.map Snapshot.closed) ↔
    Snapshot.Barred behind saved := by
  constructor
  · intro h place snapshot hplace
    refine h place snapshot.closed ?_
    rw [List.getElem?_map, hplace]
    rfl
  · intro h place snapshot hplace
    rw [List.getElem?_map] at hplace
    obtain ⟨kept, hkept, rfl⟩ := Option.map_eq_some_iff.mp hplace
    exact h place kept hkept

end Snapshot.Barred

namespace Machine

/-- All barriers are as they should be, those of the current sessions and of the saved ones. -/
structure Barred {L : Type} (behind : Nat → Session → List Session → Prop) (m : Machine L) :
    Prop where
  sessions : Session.Barred behind m.snapshots.size m.sessions
  snapshots : Snapshot.Barred behind m.snapshots.toList

namespace Barred

variable {L : Type} {m next : Machine L} {behind behind' : Nat → Session → List Session → Prop}

theorem start [FailureLog L] (g : Grammar) (offset : Nat) :
    (Machine.start g offset : Machine L).Barred behind where
  sessions := .outermost rfl
  snapshots _ _ h := nomatch h

theorem mono (h : m.Barred behind) (hbehind : ∀ place session around, place < m.snapshots.size →
    behind place session around → behind' place session around) : m.Barred behind' where
  sessions := h.sessions.mono (Nat.le_refl _) hbehind
  snapshots := h.snapshots.mono hbehind

/-- **Barriers stay as they should be** with each step, whatever is asked of what lies behind them,
if it is right for a session just opened and goes on being right while the session goes on. -/
theorem effect (h : m.Barred behind) (heffect : m.Effect next)
    (hstable : ∀ place session later around, Session.Later session later →
      behind place session around → behind place later around)
    (hopened : ∀ (g : Grammar) (use : Option TypeUse),
      next.snapshots = m.snapshots.push ⟨m.sessions, m.offset, m.forced, .passOver⟩ →
      next.sessions = ⟨g.entries, 0, m.offset, .empty, some m.snapshots.size, use⟩ :: m.sessions →
      behind m.snapshots.size ⟨g.entries, 0, m.offset, .empty, some m.snapshots.size, use⟩
        m.sessions) : next.Barred behind := by
  obtain ⟨hsessions, hsnapshots⟩ := h
  have hsaved : Snapshot.Barred behind m.saved := Snapshot.Barred.closed_iff.mpr hsnapshots
  have hgrow {bound : Nat} {sessions : List Session} (hs : Session.Barred behind bound sessions)
      {bound' : Nat} (hbound : bound ≤ bound') : Session.Barred behind bound' sessions :=
    hs.mono hbound fun _ _ _ _ hbehind => hbehind
  have hpush (hentry : Session.AtEntry m.sessions) : Snapshot.Barred behind
      (m.saved ++ [⟨m.sessions, m.offset, m.forced, .exhausted⟩]) :=
    hsaved.push (m.saved_length ▸ hsessions) hentry
  -- It is enough to say what is saved afterwards.
  suffices hnext : Session.Barred behind next.saved.length next.sessions ∧
      Snapshot.Barred behind next.saved from
    ⟨next.saved_length ▸ hnext.1, Snapshot.Barred.closed_iff.mp hnext.2⟩
  rw [← m.saved_length] at hsessions
  cases heffect with
  | goesOn sessions hm hne hnext hsame =>
    rw [hsame]
    exact ⟨(hsessions.of_suffix hm hne).goOn hstable hnext, hsaved⟩
  | saves hentry hnext hsame =>
    rw [hsame, List.length_append]
    exact ⟨hgrow (hsessions.goOn hstable hnext) (Nat.le_add_right _ _), hpush hentry⟩
  | enters g use hentry hnext hpushed =>
    have hsame : next.saved = m.saved ++ [⟨m.sessions, m.offset, m.forced, .exhausted⟩] :=
      saved_of_push hpushed
    rw [hsame, hnext, List.length_append]
    refine ⟨.inside rfl ?_ (hopened g use hpushed hnext) ?_, hpush hentry⟩
    · rw [saved_length]
      exact Nat.lt_succ_self _
    · exact hgrow hsessions (Nat.le_add_right _ _)
  | returns place snapshot hplace hnext htake =>
    have hlt : place < m.saved.length := (List.getElem?_eq_some_iff.mp hplace).1
    rw [htake, List.length_take_of_le (Nat.le_of_lt hlt)]
    exact ⟨(hsaved place snapshot hplace).1.goOn hstable hnext, hsaved.take place⟩

end Barred

/-! ## Runs -/

section

variable (setting : Setting) (mode : Mode)

/-- From a state with so many steps left a search comes to another, and at every state on the way
there are more than `place` snapshots: the one at that place is never taken up. -/
inductive Keeps (place fuel : Nat) (m : Machine (Option Failure)) :
    Nat → Machine (Option Failure) → Prop where
  | here (h : place < m.snapshots.size) : Keeps place fuel m fuel m
  | step {left : Nat} {last next : Machine (Option Failure)}
    (h : Keeps place fuel m (left + 1) last)
    (hstep : last.step (runWithin left) setting mode = .ok (.next next))
    (hkept : place < next.snapshots.size) : Keeps place fuel m left next

/-- The step from one state to the other opens a session, which may have gone on since. It saves the
sessions around it and the offset where it starts, and the place of that is its barrier. -/
structure Opens (fuel : Nat) (before opened : Machine (Option Failure)) (place : Nat)
    (session : Session) (around : List Session) : Prop where
  step : before.step (runWithin fuel) setting mode = .ok (.next opened)
  size : before.snapshots.size = place
  snapshots : opened.snapshots =
    before.snapshots.push ⟨around, session.start, before.forced, .passOver⟩
  sessions : ∃ g : Grammar, session.rest <:+ g.entries ∧
    opened.sessions = ⟨g.entries, 0, session.start, .empty, some place, session.use⟩ :: around

/-- On the way from `origin` to a state the session was opened, and what was saved then has been
kept up to that state. -/
def OpenedBefore (fuel : Nat) (origin : Machine (Option Failure)) (left : Nat)
    (m : Machine (Option Failure)) (place : Nat) (session : Session) (around : List Session) :
    Prop :=
  ∃ remaining before opened, Reaches setting mode fuel origin (remaining + 1) before ∧
    Opens setting mode remaining before opened place session around ∧
    Keeps setting mode place remaining opened left m

/-- The same of a place that the state still has. A step may drop the place of a session it does not
go on with. -/
def OpenedIfKept (fuel : Nat) (origin : Machine (Option Failure)) (left : Nat)
    (m : Machine (Option Failure)) (place : Nat) (session : Session) (around : List Session) :
    Prop :=
  place < m.snapshots.size → OpenedBefore setting mode fuel origin left m place session around

/-- The snapshot at a place holds the sessions around a session and the offset where it starts. -/
def SavedAround (m : Machine (Option Failure)) (place : Nat) (session : Session)
    (around : List Session) : Prop :=
  ∃ snapshot, m.snapshots[place]? = some snapshot ∧ snapshot.sessions = around ∧
    snapshot.offset = session.start

end

variable {setting : Setting} {mode : Mode} {fuel left place : Nat}
  {origin m next : Machine (Option Failure)} {session : Session} {around : List Session}

theorem Reaches.trans {middle : Nat} (h : Reaches setting mode fuel origin middle m)
    (h' : Reaches setting mode middle m left next) :
    Reaches setting mode fuel origin left next := by
  induction h with
  | refl => exact h'
  | step hstep _ ih => exact .step hstep (ih h')

/-- What is saved at a place that is kept is still what was saved there. -/
theorem Keeps.saved (h : Keeps setting mode place fuel origin left m) :
    place < m.snapshots.size ∧ m.saved[place]? = origin.saved[place]? := by
  induction h with
  | here hlt => exact ⟨hlt, rfl⟩
  | step _ hstep hkept ih =>
    obtain ⟨hlt, hsame⟩ := ih
    exact ⟨hkept, ((effect_of_step hstep).saved_getElem? hlt hkept).trans hsame⟩

theorem OpenedBefore.later {later : Session} (hlater : session.Later later)
    (h : OpenedBefore setting mode fuel origin left m place session around) :
    OpenedBefore setting mode fuel origin left m place later around := by
  obtain ⟨remaining, before, opened, hreaches, ⟨hstep, hsize, hsnapshots, hsessions⟩, hkeeps⟩ := h
  rw [← hlater.start, ← hlater.use] at hsessions
  rw [← hlater.start] at hsnapshots
  obtain ⟨g, hrest, hsessions⟩ := hsessions
  exact ⟨remaining, before, opened, hreaches,
    ⟨hstep, hsize, hsnapshots, g, hlater.rest.trans hrest, hsessions⟩, hkeeps⟩

/-- What was saved when a session was opened is there to be found. -/
theorem OpenedBefore.savedAround
    (h : OpenedBefore setting mode fuel origin left m place session around) :
    m.SavedAround place session around := by
  obtain ⟨remaining, before, opened, -, hopens, hkeeps⟩ := h
  have hsaved := hkeeps.saved.2
  rw [saved_getElem?, saved_getElem?, hopens.snapshots, ← hopens.size, Array.getElem?_push_size]
    at hsaved
  obtain ⟨snapshot, hsnapshot, hclosed⟩ := Option.map_eq_some_iff.mp hsaved
  rw [hopens.size] at hsnapshot
  exact ⟨snapshot, hsnapshot, congrArg Snapshot.sessions hclosed, congrArg Snapshot.offset hclosed⟩

/-- **A step keeps the history of all sessions**, of those it goes on with and of those saved. -/
theorem Barred.step (hreaches : Reaches setting mode fuel origin (left + 1) m)
    (h : m.Barred (OpenedBefore setting mode fuel origin (left + 1) m))
    (hstep : m.step (runWithin left) setting mode = .ok (.next next)) :
    next.Barred (OpenedBefore setting mode fuel origin left next) := by
  have hm : m.Barred (OpenedIfKept setting mode fuel origin left next) := by
    refine h.mono fun place session around _ hopened hkept => ?_
    obtain ⟨remaining, before, opened, hbefore, hopens, hkeeps⟩ := hopened
    exact ⟨remaining, before, opened, hbefore, hopens, .step hkeeps hstep hkept⟩
  have hnext : next.Barred (OpenedIfKept setting mode fuel origin left next) := by
    refine hm.effect (effect_of_step hstep) (fun _ _ _ _ hlater hopened hkept =>
      (hopened hkept).later hlater) fun g use hsnapshots hsessions hkept => ?_
    exact ⟨left, m, next, hreaches,
      ⟨hstep, rfl, hsnapshots, g, List.suffix_refl g.entries, hsessions⟩, .here hkept⟩
  exact hnext.mono fun _ _ _ hkept hopened => hopened hkept

/-- **Each session of a run has been opened in it**, and what was saved then is still saved. -/
theorem Reaches.barred {middle : Nat} (h : Reaches setting mode middle m left next)
    (hreaches : Reaches setting mode fuel origin middle m)
    (hm : m.Barred (OpenedBefore setting mode fuel origin middle m)) :
    next.Barred (OpenedBefore setting mode fuel origin left next) := by
  induction h with
  | refl => exact hm
  | step hstep _ ih =>
    exact ih (hreaches.trans (.step hstep (.refl _ _))) (hm.step hreaches hstep)

/-- Sessions around one that is barred are at the entry it was opened for. -/
theorem Barred.atEntry {parent : Session} (h : m.Barred m.SavedAround)
    (hm : m.sessions = session :: parent :: around) : parent.rest ≠ [] := by
  have hsessions := h.sessions
  rw [hm] at hsessions
  cases hsessions with
  | @inside place _ _ _ _ hbehind _ =>
    obtain ⟨snapshot, hplace, hsessions, -⟩ := hbehind
    rw [← Array.getElem?_toList] at hplace
    have hentry := (h.snapshots place snapshot hplace).2
    rw [hsessions] at hentry
    exact hentry

/-- **Every barrier stays the place of the snapshot saved when its session was opened.** At each
state of a search, and in each state saved there, the outermost session has no barrier, and that of
any other session is the place of an earlier snapshot, which holds the sessions around it and the
offset where it starts; what is saved is at an entry. So when a nested session is at its end the one
around it has the entry it was opened for, and to close its barrier is to close the snapshot saved
when it was opened, which has been kept since, and no other. -/
theorem barriers_stay {g : Grammar} {offset : Nat}
    (h : Reaches setting mode fuel (.start g offset) left m) :
    m.Barred m.SavedAround ∧
      ∀ finished parent around, m.sessions = finished :: parent :: around →
        parent.rest ≠ [] ∧ ∃ place, finished.barrier = some place ∧
          OpenedBefore setting mode fuel (.start g offset) left m place finished
            (parent :: around) ∧
          ∀ other, other ≠ place →
            (m.close finished.barrier).snapshots[other]? = m.snapshots[other]? := by
  have hopened : m.Barred (OpenedBefore setting mode fuel (.start g offset) left m) :=
    h.barred (.refl fuel _) (.start g offset)
  have hsaved : m.Barred m.SavedAround := hopened.mono fun _ _ _ _ h => h.savedAround
  refine ⟨hsaved, fun finished parent around hm => ⟨hsaved.atEntry hm, ?_⟩⟩
  have hsessions := hopened.sessions
  rw [hm] at hsessions
  cases hsessions with
  | @inside place _ _ hbarrier _ hbehind _ =>
    refine ⟨place, hbarrier, hbehind, fun other hother => ?_⟩
    rw [hbarrier]
    simp only [close, Array.getElem?_modify, if_neg (Ne.symm hother)]

/-- The state a search comes to by so many steps, with so many left. -/
def stateAfter? (setting : Setting) (mode : Mode) (left : Nat) :
    (steps : Nat) → Machine (Option Failure) → Option (Machine (Option Failure))
  | 0, m => some m
  | steps + 1, m =>
    match m.step (runWithin (left + steps)) setting mode with
    | .ok (.next next) => stateAfter? setting mode left steps next
    | _ => none

theorem reaches_of_stateAfter? {steps : Nat}
    (h : stateAfter? setting mode left steps m = some next) :
    Reaches setting mode (left + steps) m left next := by
  induction steps generalizing m with
  | zero =>
    obtain rfl := Option.some.inj h
    exact .refl left m
  | succ steps ih =>
    simp only [stateAfter?] at h
    split at h
    · next hstep => exact .step hstep (ih h)
    · cases h

end Machine

/-- Some `a` in a grammar of their own and one `a` after them, in a grammar again. -/
def Grammar.oneMoreA : Grammar :=
  ⟨[.ofChecker (.sequence [
    .ofChecker (.sequence [(Entry.ofChecker (.single 'a')).quantified ⟨1, none, .maximum⟩]),
    .ofChecker (.single 'a')])]⟩

/-- In `aa` the innermost grammar takes both `a`, comes to its end and is taken up again with one of
them. Its session is there a second time then, and its barrier is still the second snapshot. -/
theorem Machine.oneMoreA_barriers :
    ∃ m finished parent outermost,
      Reaches (TypeEnv.bare.setting #['a', 'a']) .beginning 9 (.start .oneMoreA 0) 1 m ∧
        m.offset = 1 ∧ m.sessions = [finished, parent, outermost] ∧ finished.rest = [] ∧
        m.Barred m.SavedAround ∧ parent.rest ≠ [] ∧ finished.barrier = some 1 ∧
        OpenedBefore (TypeEnv.bare.setting #['a', 'a']) .beginning 9 (.start .oneMoreA 0) 1 m 1
          finished [parent, outermost] := by
  have state : (stateAfter? (TypeEnv.bare.setting #['a', 'a']) .beginning 1 8
      (.start .oneMoreA 0)).map (fun m => (m.offset, m.sessions.map fun session =>
        (session.rest.isEmpty, session.barrier))) =
      some (1, [(true, some 1), (false, some 0), (false, none)]) := by
    decide +kernel
  obtain ⟨m, hm, hstate⟩ := Option.map_eq_some_iff.mp state
  obtain ⟨hoffset, hsessions⟩ := Prod.mk.inj hstate
  obtain ⟨finished, _, hcons, hfinished, hmap⟩ := List.map_eq_cons_iff.mp hsessions
  obtain ⟨parent, _, rfl, -, hmap⟩ := List.map_eq_cons_iff.mp hmap
  obtain ⟨outermost, _, rfl, -, hmap⟩ := List.map_eq_cons_iff.mp hmap
  obtain rfl := List.map_eq_nil_iff.mp hmap
  obtain ⟨hrest, hbarrier⟩ := Prod.mk.inj hfinished
  have hreaches := reaches_of_stateAfter? hm
  obtain ⟨hbarred, hnested⟩ := barriers_stay hreaches
  obtain ⟨hparent, place, hplace, hopened, -⟩ := hnested finished parent [outermost] hcons
  obtain rfl : place = 1 := Option.some.inj (hplace.symm.trans hbarrier)
  exact ⟨m, finished, parent, outermost, hreaches, hoffset, hcons, List.isEmpty_iff.mp hrest,
    hbarred, hparent, hbarrier, hopened⟩

end TextGrammar
