/-
Walking an entry: a search that stands at an entry ends as the trace of the
entry says, whether its target is matched at once or is a grammar to be walked
in a session of its own.

The search is looked at in a frame: the session it is in, all but the entries
and nodes of that session, and the sessions below. What an entry may touch above
the frame are snapshots it has saved itself, so that the frame is found again
whenever the search comes back.
-/
import TextGrammar.Proofs.Attempts
import TextGrammar.Proofs.Carry

open Filter (atTop)

namespace TextGrammar

/-! ## Plans -/

/-- When an entry goes which way. -/
theorem Quantifier.plan_cases (q : Quantifier) (repeats : Nat) :
    (q.plan repeats = .stop ∧ (q.isZero = true ∨ q.isFull repeats = true)) ∨
    (q.isZero = false ∧ q.isFull repeats = false ∧
      ((q.plan repeats = .go ∧ repeats < q.lower) ∨
        (q.plan repeats = .stopThenGo ∧ q.lower ≤ repeats ∧ q.greediness = .minimum) ∨
        (q.plan repeats = .goThenStop ∧ q.lower ≤ repeats ∧ q.greediness = .maximum) ∨
        (q.plan repeats = .goOrStop ∧ q.lower ≤ repeats ∧ q.greediness = .possessive))) := by
  simp only [Quantifier.plan]
  cases hz : q.isZero <;> cases hf : q.isFull repeats <;> simp
  by_cases hlt : repeats < q.lower
  · simp [hlt]
  · cases hg : q.greediness <;> simp [hlt, Nat.le_of_not_lt hlt]

variable {L : Type} [FailureLog L]

/-! ## Frames -/

/-- The session a search is in, without its entries and nodes, and the sessions below. -/
structure Frame where
  start : Nat
  barrier : Option Nat
  below : List Session

/-- A search in this frame, at the first of some entries. -/
def Frame.state (frame : Frame) (rest : List Entry) (repeats : Nat) (nodes : Trail)
    (snapshots : Array Snapshot) (offset : Nat) (forced : Bool) (failures : L) : Machine L :=
  ⟨⟨rest, repeats, frame.start, nodes, frame.barrier, none⟩ :: frame.below, snapshots, offset,
    forced, failures, []⟩

/-- What the search would come back to. -/
def Frame.snapshot (frame : Frame) (rest : List Entry) (repeats : Nat) (nodes : Trail) (offset : Nat)
    (forced : Bool) (action : Action) : Snapshot :=
  ⟨⟨rest, repeats, frame.start, nodes, frame.barrier, none⟩ :: frame.below, offset, forced, action⟩

section

variable {setting : Setting} {mode : Mode} {result : Seen L (Option Match)}

/-- The search ends with the result when it goes on with these entries after an outcome. -/
def Frame.GoesOn (setting : Setting) (mode : Mode) (result : Seen L (Option Match)) (frame : Frame)
    (rest : List Entry) (nodes : Trail) (m : Match) (snapshots : Array Snapshot) (failures : L) :
    Prop :=
  (frame.state rest 0 (nodes.pushAll m.nodes) snapshots m.stop false failures).Ends setting mode
    result

theorem Frame.goesOn_after (frame : Frame) (rest : List Entry) (nodes : Trail) (before : List Node) :
    frame.GoesOn setting mode result rest (nodes.pushAll before) =
      fun m => frame.GoesOn setting mode result rest nodes (.after before m) := by
  funext m snapshots failures
  simp only [Frame.GoesOn, Match.after, Trail.pushAll, List.foldl_append]

variable {frame : Frame} {entry : Entry} {rest : List Entry} {repeats offset : Nat} {nodes : Trail}
  {snapshots : Array Snapshot} {forced : Bool} {failures : L}

/-- Giving up at a snapshot to be passed over goes on after the entry, unless one repeat more was
required. -/
theorem Frame.fails_passOver
    (h : if forced || repeats < entry.quantifier.lower then
        Fails setting mode result snapshots failures
      else frame.GoesOn setting mode result rest nodes ⟨offset, []⟩ snapshots failures) :
    Fails setting mode result
      (snapshots.push (frame.snapshot (entry :: rest) repeats nodes offset forced .passOver))
      failures := by
  have hresume : Machine.resume (⟨[], snapshots, 0, false, failures, []⟩ : Machine L)
      (frame.snapshot (entry :: rest) repeats nodes offset forced .passOver) =
        if forced || repeats < entry.quantifier.lower then none
        else some (frame.state rest 0 nodes snapshots offset false failures) := rfl
  refine Fails.push ?_
  rw [hresume]
  split at h
  · next hf =>
    rw [if_pos hf]
    exact h
  · next hf =>
    rw [if_neg hf]
    exact h

theorem Frame.fails_oneMore
    (h : (frame.state (entry :: rest) repeats nodes snapshots offset true failures).Ends setting mode
      result) :
    Fails setting mode result
      (snapshots.push (frame.snapshot (entry :: rest) repeats nodes offset forced .oneMore))
      failures :=
  Fails.push h

theorem Fails.exhausted {snapshot : Snapshot} (hs : snapshot.action = .exhausted)
    (h : Fails setting mode result snapshots failures) :
    Fails setting mode result (snapshots.push snapshot) failures := by
  refine Fails.push ?_
  simpa only [Machine.resume, hs] using h

/-! ## Steps at an entry -/

/-- The search tries the entry once more. -/
def Quantifier.Tries (q : Quantifier) (repeats : Nat) (forced : Bool) : Prop :=
  q.isZero = false ∧
    (forced = true ∨ (q.isFull repeats = false ∧ (q.greediness ≠ .minimum ∨ repeats < q.lower)))

theorem Frame.step_stop {run : Runner L}
    (hstop : entry.quantifier.isZero = true ∨ entry.quantifier.isFull repeats = true) :
    (frame.state (entry :: rest) repeats nodes snapshots offset false failures).step run setting
      mode = .ok (.next (frame.state rest 0 nodes snapshots offset false failures)) := by
  have hstep : (frame.state (entry :: rest) repeats nodes snapshots offset false failures).step run
      setting mode = (frame.state (entry :: rest) repeats nodes snapshots offset false
        failures).stepEntry run setting entry repeats := rfl
  rw [hstep]
  simp only [Machine.stepEntry]
  by_cases hz : entry.quantifier.isZero = true
  · rw [if_pos hz]
    rfl
  · have hf : entry.quantifier.isFull repeats = true := hstop.resolve_left hz
    rw [if_neg hz, if_pos (by simpa [Frame.state] using hf)]
    rfl

/-- An entry that takes as few repeats as possible keeps one repeat more for later. -/
theorem Frame.step_minimum {run : Runner L} (hz : entry.quantifier.isZero = false)
    (hf : entry.quantifier.isFull repeats = false) (hg : entry.quantifier.greediness = .minimum)
    (hle : entry.quantifier.lower ≤ repeats) :
    (frame.state (entry :: rest) repeats nodes snapshots offset false failures).step run setting
      mode = .ok (.next (frame.state rest 0 nodes (snapshots.push
        (frame.snapshot (entry :: rest) repeats nodes offset false .oneMore)) offset false
          failures)) := by
  have hstep : (frame.state (entry :: rest) repeats nodes snapshots offset false failures).step run
      setting mode = (frame.state (entry :: rest) repeats nodes snapshots offset false
        failures).stepEntry run setting entry repeats := rfl
  rw [hstep]
  simp only [Machine.stepEntry]
  rw [if_neg (by simp [hz]), if_neg (by simp [Frame.state, hf]),
    if_pos (by simp [Frame.state, hg, hle])]
  rfl

/-- The step that follows an attempt. -/
def Machine.afterAttempt (m : Machine L) (entry : Entry) (repeats : Nat) : Attempt → Step L
  | .matched stop nodes =>
    let m := if entry.quantifier.greediness == .maximum && entry.quantifier.lower ≤ repeats
      && !m.forced then m.save .passOver else m
    .next (m.accept m.offset stop nodes)
  | .opens g use => .next (m.enter g use)
  | .failed =>
    if m.forced || repeats < entry.quantifier.lower then
      (m.fail m.offset (.target entry.target) repeats).giveUp
    else .next m.advance

theorem Frame.step_attempt {run : Runner L} {m' : Machine L} {attempt : Attempt}
    (htries : entry.quantifier.Tries repeats forced)
    (h : (frame.state (entry :: rest) repeats nodes snapshots offset forced failures).attempt run
      setting entry = .ok (m', attempt)) :
    (frame.state (entry :: rest) repeats nodes snapshots offset forced failures).step run setting
      mode = .ok (m'.afterAttempt entry repeats attempt) := by
  have hstep : (frame.state (entry :: rest) repeats nodes snapshots offset forced failures).step run
      setting mode = (frame.state (entry :: rest) repeats nodes snapshots offset forced
        failures).stepEntry run setting entry repeats := rfl
  obtain ⟨hzero, hforced⟩ := htries
  have hfull : (!forced && entry.quantifier.isFull repeats) = false := by
    rcases hforced with rfl | ⟨hfull, -⟩ <;> simp [*]
  have hmin : (!forced && entry.quantifier.greediness == .minimum &&
      decide (entry.quantifier.lower ≤ repeats)) = false := by
    rcases hforced with rfl | ⟨-, hmin | hlt⟩
    · rfl
    · simp [beq_eq_false_iff_ne.mpr hmin]
    · simp [Nat.not_le.mpr hlt]
  rw [hstep]
  simp only [Machine.stepEntry, hzero, Frame.state, hfull, hmin] at h ⊢
  rw [if_neg (by simp), if_neg (by simp), if_neg (by simp)]
  rw [h]
  cases attempt with
  | matched stop nodes => rfl
  | opens g use => rfl
  | failed =>
    simp only [Machine.afterAttempt, Bind.bind, Except.bind, pure, Except.pure]
    split <;> rfl

/-! ## Repeats of an entry -/

/-- What the entry meets where one repeat more does not lead on. -/
def Entry.otherwise (entry : Entry) (missed : L) (stuck : Bool) (repeats offset : Nat)
    (forced : Bool) : Trace L Match :=
  if forced || repeats < entry.quantifier.lower then .done missed
  else if entry.quantifier.greediness == .possessive && !stuck then .nothing
  else .one ⟨offset, []⟩

/-- Trying the entry once more meets the trace `once`: if every outcome that is accepted leads to
the result along some trace of its own, the search ends with it. -/
def Frame.Repeats (setting : Setting) (mode : Mode) (result : Seen L (Option Match)) (frame : Frame)
    (entry : Entry) (rest : List Entry) (once : (repeats offset : Nat) → Trace L Match)
    (missed : (repeats offset : Nat) → L) (stuck : (repeats offset : Nat) → Bool) : Prop :=
  ∀ (repeats offset : Nat) (forced : Bool) (nodes : Trail) (next : Match → Trace L Match)
    (base : Array Snapshot) (failures : L), offset ≤ setting.text.size →
    entry.quantifier.Tries repeats forced →
    (∀ m ∈ (once repeats offset).values, ∀ (snapshots : Array Snapshot) (failures : L),
      (next m).Carries (Fails setting mode result) (frame.GoesOn setting mode result rest nodes)
        snapshots failures →
      ((frame.state (entry :: rest) repeats nodes snapshots offset forced failures).accept offset
        m.stop m.nodes).Ends setting mode result) →
    ((once repeats offset).bind next ++ entry.otherwise (missed repeats offset)
      (stuck repeats offset) repeats offset forced).Carries (Fails setting mode result)
        (frame.GoesOn setting mode result rest nodes) base failures →
    (frame.state (entry :: rest) repeats nodes base offset forced failures).Ends setting mode result

/-- After a repeat that takes no characters the search goes on after the entry, otherwise with the
entry. -/
theorem Frame.ends_accept {m : Match}
    (h : if offset = m.stop then frame.GoesOn setting mode result rest nodes m snapshots failures
      else (frame.state (entry :: rest) (repeats + 1) (nodes.pushAll m.nodes) snapshots m.stop false
        failures).Ends setting mode result) :
    ((frame.state (entry :: rest) repeats nodes snapshots offset forced failures).accept offset
      m.stop m.nodes).Ends setting mode result := by
  have hstate : (frame.state (entry :: rest) repeats nodes snapshots offset forced failures).accept
      offset m.stop m.nodes = if offset = m.stop then
        frame.state rest 0 (nodes.pushAll m.nodes) snapshots m.stop false failures
      else frame.state (entry :: rest) (repeats + 1) (nodes.pushAll m.nodes) snapshots m.stop false
        failures := by
    simp only [Machine.accept, Frame.state, beq_iff_eq]
    split <;> rfl
  rw [hstate]
  split
  · next heq => rwa [if_pos heq] at h
  · next hne => rwa [if_neg hne] at h

variable [LawfulFailureLog L]

/-- A repeat that is accepted leads on as the trace of the repeats after it says. -/
theorem Frame.ends_goOn {m : Match} {more : Nat → Trace L Match}
    (hin : offset ≤ m.stop ∧ m.stop ≤ setting.text.size)
    (hmore : offset < m.stop → ∀ (nodes : Trail) (snapshots : Array Snapshot) (failures : L),
      (more m.stop).Carries (Fails setting mode result)
        (frame.GoesOn setting mode result rest nodes) snapshots failures →
      (frame.state (entry :: rest) (repeats + 1) nodes snapshots m.stop false failures).Ends setting
        mode result)
    (h : (m.goOnTrace setting.text.size offset more).Carries (Fails setting mode result)
      (frame.GoesOn setting mode result rest nodes) snapshots failures) :
    ((frame.state (entry :: rest) repeats nodes snapshots offset forced failures).accept offset
      m.stop m.nodes).Ends setting mode result := by
  refine Frame.ends_accept ?_
  by_cases heq : offset = m.stop
  · rw [if_pos heq]
    rw [Match.goOnTrace, if_neg (by omega)] at h
    exact Trace.Carries.of_one h
  · rw [if_neg heq]
    have hlt : offset < m.stop := by omega
    rw [Match.goOnTrace, if_pos ⟨hlt, hin.2⟩, Trace.Carries.map_iff] at h
    refine hmore hlt (nodes.pushAll m.nodes) snapshots failures ?_
    rw [Frame.goesOn_after]
    exact h

/-- **All repeats.** When every repeat meets its trace, the entry meets the trace of its repeats. -/
theorem Frame.Repeats.ends {once : (repeats offset : Nat) → Trace L Match}
    {missed : (repeats offset : Nat) → L} {stuck : (repeats offset : Nat) → Bool}
    (hrepeat : frame.Repeats setting mode result entry rest once missed stuck)
    (within : ∀ r, ∀ o ≤ setting.text.size, ∀ m ∈ (once r o).values,
      o ≤ m.stop ∧ m.stop ≤ setting.text.size)
    (repeats offset : Nat) : ∀ (nodes : Trail) (snapshots : Array Snapshot) (failures : L),
    offset ≤ setting.text.size →
    (entry.quantifier.trace setting.text.size once missed stuck repeats offset).Carries
      (Fails setting mode result) (frame.GoesOn setting mode result rest nodes) snapshots failures →
    (frame.state (entry :: rest) repeats nodes snapshots offset false failures).Ends setting mode
      result := by
  induction repeats, offset using Quantifier.room_induction setting.text.size with
  | step repeats offset ih =>
  intro nodes snapshots failures hoff h
  rw [Quantifier.trace_eq] at h
  have hnext : ∀ m ∈ (once repeats offset).values, ∀ (forced : Bool) (snapshots : Array Snapshot)
      (failures : L), (m.goOnTrace setting.text.size offset (entry.quantifier.trace
        setting.text.size once missed stuck (repeats + 1))).Carries (Fails setting mode result)
          (frame.GoesOn setting mode result rest nodes) snapshots failures →
      ((frame.state (entry :: rest) repeats nodes snapshots offset forced failures).accept offset
        m.stop m.nodes).Ends setting mode result := by
    intro m hm forced snapshots failures hgo
    have hin := within repeats offset hoff m hm
    refine Frame.ends_goOn hin (fun hlt nodes snapshots failures hrest => ?_) hgo
    exact ih (repeats + 1) m.stop hlt hin.2 nodes snapshots failures hin.2 hrest
  rcases Quantifier.plan_cases entry.quantifier repeats with ⟨hp, hstop⟩ | ⟨hz, hf, hp⟩
  · simp only [hp] at h
    refine Machine.Ends.of_step (s := .next (frame.state rest 0 nodes snapshots offset false
      failures)) (fun run => ?_) (Trace.Carries.of_one h)
    exact Frame.step_stop hstop
  rcases hp with ⟨hp, hlt⟩ | ⟨hp, hle, hg⟩ | ⟨hp, hle, hg⟩ | ⟨hp, hle, hg⟩ <;> simp only [hp] at h
  · refine hrepeat repeats offset false nodes _ snapshots failures hoff
      ⟨hz, .inr ⟨hf, .inr hlt⟩⟩ (fun m hm => hnext m hm false) ?_
    simpa only [Entry.otherwise, hlt, decide_true, Bool.or_true, if_true] using h
  · -- one repeat more is left to a snapshot, with the demand to match it
    refine Machine.Ends.of_step (s := .next (frame.state rest 0 nodes (snapshots.push
      (frame.snapshot (entry :: rest) repeats nodes offset false .oneMore)) offset false failures))
      (fun run => Frame.step_minimum hz hf hg hle) ?_
    rw [Array.push_eq_append]
    refine Trace.Carries.of_one (Trace.Carries.of_append h fun base' failures' _ hmore => ?_)
    rw [← Array.push_eq_append]
    refine Frame.fails_oneMore ?_
    refine hrepeat repeats offset true nodes _ base' failures' hoff ⟨hz, .inl rfl⟩
      (fun m hm => hnext m hm true) ?_
    simpa only [Entry.otherwise, Bool.true_or, if_true] using hmore
  · refine hrepeat repeats offset false nodes _ snapshots failures hoff
      ⟨hz, .inr ⟨hf, .inl (by simp [hg])⟩⟩ (fun m hm => hnext m hm false) ?_
    simpa [Entry.otherwise, Nat.not_lt.mpr hle, hg] using h
  · refine hrepeat repeats offset false nodes _ snapshots failures hoff
      ⟨hz, .inr ⟨hf, .inl (by simp [hg])⟩⟩ (fun m hm => hnext m hm false) ?_
    cases hs : stuck repeats offset <;> simpa [Entry.otherwise, Nat.not_lt.mpr hle, hg, hs] using h

end

end TextGrammar
