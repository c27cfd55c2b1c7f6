/-
What holds of every state of a search. A condition on the sessions of a state
and its offset that outlasts the end of an entry is kept by every move: a
snapshot saves sessions and an offset that meet it, and a failure leads back to
such ones. The checkers kept for types are the same after each move.
-/
import TextGrammar.Search.Machine

namespace TextGrammar

variable {L : Type} {good : Nat → List Session → Prop}
  {kept : List ((String × Option String) × Checker) → Prop}

/-- A condition that goes on holding when the current entry is at its end. -/
def Session.Closed (good : Nat → List Session → Prop) : Prop :=
  ∀ offset (top : Session) below, good offset (top :: below) →
    good offset ({ top with rest := top.rest.tail, repeats := 0 } :: below)

namespace Machine

/-- What a search saves is as it should be. -/
structure Stores (good : Nat → List Session → Prop)
    (kept : List ((String × Option String) × Checker) → Prop) (m : Machine L) : Prop where
  saved : ∀ snapshot ∈ m.snapshots, good snapshot.offset snapshot.sessions
  checkers : kept m.checkers

/-- A state that is as it should be, together with what is saved. -/
structure Holds (good : Nat → List Session → Prop)
    (kept : List ((String × Option String) × Checker) → Prop) (m : Machine L) : Prop
    extends m.Stores good kept where
  sessions : good m.offset m.sessions

variable {m : Machine L}

theorem Holds.advance (closed : Session.Closed good) (h : m.Holds good kept) :
    m.advance.Holds good kept := by
  obtain ⟨stores, hsessions⟩ := h
  simp only [Machine.advance]
  split
  · exact ⟨⟨stores.saved, stores.checkers⟩, hsessions⟩
  · next top below heq =>
    rw [heq] at hsessions
    exact ⟨⟨stores.saved, stores.checkers⟩, closed _ _ _ hsessions⟩

theorem Stores.accept (closed : Session.Closed good) (stores : m.Stores good kept) {top : Session}
    {below : List Session} (hm : m.sessions = top :: below) {start stop : Nat} {nodes : List Node}
    (h : good stop
      ({ top with nodes := top.nodes.pushAll nodes, repeats := top.repeats + 1 } :: below)) :
    (m.accept start stop nodes).Holds good kept := by
  simp only [Machine.accept, hm]
  have hnext : Machine.Holds good kept { m with
      sessions := { top with nodes := top.nodes.pushAll nodes, repeats := top.repeats + 1 } :: below
      offset := stop, forced := false } :=
    ⟨⟨stores.saved, stores.checkers⟩, h⟩
  split
  · exact hnext.advance closed
  · exact hnext

theorem Holds.save (h : m.Holds good kept) (action : Action) :
    (m.save action).Holds good kept := by
  refine ⟨⟨fun snapshot hmem => ?_, h.checkers⟩, h.sessions⟩
  rcases Array.mem_push.mp hmem with hmem | rfl
  · exact h.saved snapshot hmem
  · exact h.sessions

theorem Holds.enter (h : m.Holds good kept) {g : Grammar} {use : Option TypeUse}
    (hopened : good m.offset
      (⟨g.entries, 0, m.offset, .empty, some m.snapshots.size, use⟩ :: m.sessions)) :
    (m.enter g use).Holds good kept := by
  have hsave := h.save .passOver
  exact ⟨⟨hsave.saved, hsave.checkers⟩, hopened⟩

theorem Stores.close (stores : m.Stores good kept) (barrier : Option Nat) :
    (m.close barrier).Stores good kept := by
  cases barrier with
  | none => exact stores
  | some place =>
    refine ⟨fun snapshot hmem => ?_, stores.checkers⟩
    obtain ⟨i, hi, rfl⟩ := Array.mem_iff_getElem.mp hmem
    have hi : i < m.snapshots.size := by simpa only [Machine.close, Array.size_modify] using hi
    have hsaved := stores.saved m.snapshots[i] (Array.getElem_mem hi)
    -- A closed snapshot keeps its state; only what is left to try changes.
    simp only [Machine.close, Array.getElem_modify]
    split
    · exact hsaved
    · exact hsaved

@[simp] theorem close_sessions (m : Machine L) (barrier : Option Nat) :
    (m.close barrier).sessions = m.sessions := by cases barrier <;> rfl

@[simp] theorem close_offset (m : Machine L) (barrier : Option Nat) :
    (m.close barrier).offset = m.offset := by cases barrier <;> rfl

@[simp] theorem close_forced (m : Machine L) (barrier : Option Nat) :
    (m.close barrier).forced = m.forced := by cases barrier <;> rfl

/-- A session goes on from the same state, whether the way back into the one it has opened is
closed or not. -/
theorem Stores.closing (stores : m.Stores good kept) (closes : Prop) [Decidable closes]
    (barrier : Option Nat) : ∃ out, (if closes then m.close barrier else m) = out ∧
      out.Stores good kept ∧ out.sessions = m.sessions ∧ out.offset = m.offset := by
  refine ⟨_, rfl, ?_⟩
  split
  · exact ⟨stores.close barrier, m.close_sessions barrier, m.close_offset barrier⟩
  · exact ⟨stores, rfl, rfl⟩

theorem Stores.record [FailureLog L] (stores : m.Stores good kept) (failures : L) :
    (m.record failures).Stores good kept :=
  ⟨stores.saved, stores.checkers⟩

/-! ## Giving up -/

/-- All that a snapshot can lead to. -/
theorem resume_cases {next : Machine L} {snapshot : Snapshot} (h : m.resume snapshot = some next) :
    (snapshot.action = .oneMore ∧ next = { m with
      sessions := snapshot.sessions, offset := snapshot.offset, forced := true }) ∨
    (snapshot.action = .passOver ∧ next = Machine.advance { m with
      sessions := snapshot.sessions, offset := snapshot.offset, forced := snapshot.forced }) := by
  simp only [Machine.resume] at h
  split at h
  · cases h
  · next haction => exact .inl ⟨haction, (Option.some.inj h).symm⟩
  · next haction =>
    split at h
    · split at h
      · cases h
      · exact .inr ⟨haction, (Option.some.inj h).symm⟩
    · cases h

/-- A snapshot is taken up, with those that were saved before it. -/
theorem backtrackIn_resumes {count : Nat} {next : Machine L}
    (h : Machine.backtrackIn count m = some next) :
    ∃ earlier snapshot later, m.snapshots = earlier.push snapshot ++ later ∧
      Machine.resume { m with snapshots := earlier } snapshot = some next := by
  induction count generalizing m with
  | zero => cases h
  | succ count ih =>
    simp only [Machine.backtrackIn] at h
    split at h
    · cases h
    · next snapshot hback =>
      obtain ⟨earlier, hm⟩ := Array.back?_eq_some_iff.mp hback
      have hpop : m.snapshots.pop = earlier := by rw [hm, Array.pop_push]
      rw [hpop] at h
      split at h
      · next hresume =>
        obtain rfl := Option.some.inj h
        exact ⟨earlier, snapshot, #[], by rw [hm, Array.append_empty], hresume⟩
      · obtain ⟨before, found, later, hearlier, hresume⟩ := ih h
        have hearlier : earlier = before.push found ++ later := hearlier
        exact ⟨before, found, later.push snapshot, by rw [hm, hearlier, Array.push_append],
          hresume⟩

theorem backtrackIn_congr (count : Nat) {sessions sessions' : List Session} {offset offset' : Nat}
    {forced forced' : Bool} {snapshots : Array Snapshot} {failures : L}
    {checkers : List ((String × Option String) × Checker)} :
    Machine.backtrackIn count ⟨sessions, snapshots, offset, forced, failures, checkers⟩ =
      Machine.backtrackIn count ⟨sessions', snapshots, offset', forced', failures, checkers⟩ := by
  induction count generalizing snapshots with
  | zero => rfl
  | succ count ih =>
    cases hback : snapshots.back? with
    | none => simp only [Machine.backtrackIn, hback]
    | some snapshot =>
      simp only [Machine.backtrackIn, hback]
      rw [ih]
      rfl

/-- Giving up looks at nothing but the snapshots. -/
theorem giveUp_congr {m' : Machine L} (hsnapshots : m.snapshots = m'.snapshots)
    (hfailures : m.failures = m'.failures) (hcheckers : m.checkers = m'.checkers) :
    m.giveUp = m'.giveUp := by
  obtain ⟨_, snapshots, _, _, failures, checkers⟩ := m
  obtain ⟨_, snapshots', _, _, failures', checkers'⟩ := m'
  obtain rfl : snapshots = snapshots' := hsnapshots
  obtain rfl : failures = failures' := hfailures
  obtain rfl : checkers = checkers' := hcheckers
  simp only [Machine.giveUp, Machine.backtrack]
  rw [backtrackIn_congr]

/-- Giving up looks at the newest snapshot first. -/
theorem backtrack_push (m : Machine L) (snapshots : Array Snapshot) (snapshot : Snapshot) :
    Machine.backtrack { m with snapshots := snapshots.push snapshot } =
      (Machine.resume { m with snapshots } snapshot).or
        (Machine.backtrack { m with snapshots }) := by
  have hpop : (snapshots.push snapshot).pop = snapshots := Array.pop_push
  simp only [Machine.backtrack, Array.size_push, Machine.backtrackIn, Array.back?_push, hpop]
  cases Machine.resume { m with snapshots } snapshot with
  | none => simp only [Option.none_or]
  | some next => simp only [Option.some_or]

/-- With one snapshot more it resumes there, or else gives up without it. -/
theorem giveUp_push (m : Machine L) (snapshot : Snapshot) :
    Machine.giveUp { m with snapshots := m.snapshots.push snapshot } =
      match m.resume snapshot with
      | some next => .next next
      | none => m.giveUp := by
  simp only [Machine.giveUp, backtrack_push]
  cases m.resume snapshot <;> rfl

theorem Stores.resume (closed : Session.Closed good) (stores : m.Stores good kept)
    {snapshot : Snapshot} {next : Machine L} (hsaved : good snapshot.offset snapshot.sessions)
    (h : m.resume snapshot = some next) : next.Holds good kept := by
  rcases resume_cases h with ⟨_, rfl⟩ | ⟨_, rfl⟩
  · exact ⟨⟨stores.saved, stores.checkers⟩, hsaved⟩
  · exact Holds.advance closed ⟨⟨stores.saved, stores.checkers⟩, hsaved⟩

theorem Stores.backtrackIn (closed : Session.Closed good) {count : Nat} {next : Machine L}
    (stores : m.Stores good kept) (h : Machine.backtrackIn count m = some next) :
    next.Holds good kept := by
  obtain ⟨earlier, snapshot, later, hm, hresume⟩ := backtrackIn_resumes h
  have hsaved (other : Snapshot) (hother : other ∈ earlier.push snapshot) :
      good other.offset other.sessions :=
    stores.saved other (hm ▸ Array.mem_append_left later hother)
  have stores' : Machine.Stores good kept { m with snapshots := earlier } :=
    ⟨fun other hother => hsaved other (Array.mem_push.mpr (.inl hother)), stores.checkers⟩
  exact stores'.resume closed (hsaved snapshot Array.mem_push_self) hresume

end Machine

/-- A step comes to a state that is as it should be, or to a match that is. -/
def Step.Holds (good : Nat → List Session → Prop)
    (kept : List ((String × Option String) × Checker) → Prop) (ends : Match → Prop) :
    Step L → Prop
  | .next m => m.Holds good kept
  | .done result _ => ∀ m, result = some m → ends m

theorem Machine.Stores.giveUp {m : Machine L} {ends : Match → Prop} (closed : Session.Closed good)
    (stores : m.Stores good kept) : m.giveUp.Holds good kept ends := by
  simp only [Machine.giveUp]
  split
  · next next hnext => exact stores.backtrackIn closed hnext
  · intro m h
    cases h

end TextGrammar
