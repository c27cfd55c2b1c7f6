/-
Entries that keep what they take. A search that meets one comes to a single
outcome: it goes on after the entry with the nodes of its repeats, or it gives
up. Where each attempt at an entry comes to is read off its checker; from there
the outcomes of repeats and of sequences are put together. Each rule says how
many steps it takes, and how many are needed by the searches inside a step.
-/
import TextGrammar.Proofs.Repeats
import TextGrammar.Proofs.Settling

namespace TextGrammar

variable {L : Type} [FailureLog L] {setting : Setting} {need steps steps' offset : Nat}

/-- The same with other nodes around it. -/
def Setting.around (setting : Setting) (outer : List Trail) : Setting := { setting with outer }

theorem Step.Settles.mono {mode : Mode} {result : Option Match} {s : Step L}
    (h : s.Settles setting mode result steps) (hle : steps ≤ steps') :
    s.Settles setting mode result steps' := by
  cases s with
  | done value failures => exact h
  | next m => exact Machine.Settles.mono h hle

/-! ## From one state to another -/

/-- In so many steps a search gets from the one state to the other, whatever it has left behind on
its way, when searches inside a step end in `need` steps. -/
def Brings (setting : Setting) (need steps : Nat) (before : Spot L → Machine L)
    (later : Spot L → Remains L → Step L) : Prop :=
  ∀ (outer : List Trail) (mode : Mode) (result : Option Match) (spot : Spot L) (left : Nat),
    need ≤ left → setting.types.Remembers spot.checkers →
    (∀ remains, remains.Sound setting.types →
      (later spot remains).Settles (setting.around outer) mode result left) →
    (before spot).Settles (setting.around outer) mode result (left + steps)

theorem Brings.mono {before : Spot L → Machine L} {later : Spot L → Remains L → Step L}
    {need' : Nat} (h : Brings setting need steps before later) (hneed : need ≤ need')
    (hsteps : steps ≤ steps') : Brings setting need' steps' before later := by
  intro outer mode result spot left hleft hkept hlater
  have hbefore := h outer mode result spot left (Nat.le_trans hneed hleft) hkept hlater
  exact hbefore.mono (Nat.add_le_add_left hsteps left)

namespace Spot

/-- On to these entries with a match, or else giving up. -/
def goOn (rest : List Entry) (found : Option Match) (spot : Spot L) (remains : Remains L) : Step L :=
  match found with
  | some m => .next ((spot.after m.nodes remains).state rest 0 m.stop)
  | none => (spot.after [] remains).stuck

/-- After one attempt at an entry: a match of no characters ends its repeats, and so does a failure
when they are enough. -/
def tried (entry : Entry) (rest : List Entry) (repeats offset : Nat) (found : Option Match)
    (spot : Spot L) (remains : Remains L) : Step L :=
  match found with
  | some m =>
    if offset = m.stop then .next ((spot.after m.nodes remains).state rest 0 m.stop)
    else .next ((spot.after m.nodes remains).state (entry :: rest) (repeats + 1) m.stop)
  | none =>
    if repeats < entry.quantifier.lower then (spot.after [] remains).stuck
    else .next ((spot.after [] remains).state rest 0 offset)

omit [FailureLog L] in
theorem stuck_after {spot : Spot L} {nodes : List Node} {remains : Remains L} :
    (spot.after nodes remains).stuck = (spot.after [] remains).stuck :=
  Machine.giveUp_congr rfl rfl rfl

omit [FailureLog L] in
theorem goOn_after {spot : Spot L} {rest : List Entry} {found : Option Match} {nodes : List Node}
    {remains remains' : Remains L} :
    goOn rest found (spot.after nodes remains) remains' =
      goOn rest (found.map (.after nodes)) spot
        { remains' with spent := remains.spent ++ remains'.spent } := by
  cases found with
  | none =>
    simp only [goOn, Option.map_none, after_after]
    rw [stuck_after]
  | some m => simp only [goOn, Option.map_some, after_after, Match.after]

end Spot

/-- A state on the way from which the search goes on alike. -/
theorem Brings.trans {before : Spot L → Machine L} (middle : Spot L → Machine L)
    {rest : List Entry} {nodes : List Node} {found : Option Match}
    (h : Brings setting need steps before
      fun spot remains => .next (middle (spot.after nodes remains)))
    (h' : Brings setting need steps' middle (Spot.goOn rest found)) :
    Brings setting need (steps + steps') before (Spot.goOn rest (found.map (.after nodes))) := by
  intro outer mode result spot left hleft hkept hlater
  rw [Nat.add_comm steps, ← Nat.add_assoc]
  refine h outer mode result spot (left + steps') (by omega) hkept fun remains hremains => ?_
  refine h' outer mode result (spot.after nodes remains) left hleft hremains.kept
    fun remains' hremains' => ?_
  rw [Spot.goOn_after]
  exact hlater _ (hremains.append hremains')

/-! ## Outcomes -/

/-- The outcome of a checker as a choice: what it finds, whatever is around it. -/
def Checker.Takes (L : Type) [FailureLog L] (setting : Setting) (need : Nat) (c : Checker)
    (offset : Nat) (found : Option Found) : Prop :=
  ∀ (outer : List Trail) (fuel : Nat), need ≤ fuel → ∃ failures : L,
    c.choiceAt (runWithin fuel) (setting.around outer) offset = .ok ⟨found, failures⟩

/-- The outcome of one attempt at an entry. -/
def Entry.Takes (L : Type) [FailureLog L] (setting : Setting) (need steps : Nat) (entry : Entry)
    (offset : Nat) (found : Option Match) : Prop :=
  ∀ (rest : List Entry) (repeats : Nat), entry.quantifier.isFull repeats = false →
    Brings (L := L) setting need steps (·.state (entry :: rest) repeats offset)
      (Spot.tried entry rest repeats offset found)

/-- The outcome of an entry from some number of repeats on. -/
def Entry.Repeats (L : Type) [FailureLog L] (setting : Setting) (need steps : Nat) (entry : Entry)
    (repeats offset : Nat) (found : Option Match) : Prop :=
  ∀ rest : List Entry, Brings (L := L) setting need steps (·.state (entry :: rest) repeats offset)
    (Spot.goOn rest found)

/-- The outcome of entries one after the other. -/
def Entry.AllRead (L : Type) [FailureLog L] (setting : Setting) (need steps : Nat)
    (entries : List Entry) (offset : Nat) (found : Option Match) : Prop :=
  ∀ rest : List Entry, Brings (L := L) setting need steps (·.state (entries ++ rest) 0 offset)
    (Spot.goOn rest found)

/-! ## Sequences -/

theorem Entry.AllRead.nil : Entry.AllRead L setting need 0 [] offset (some ⟨offset, []⟩) := by
  intro rest outer mode result spot left _ hkept hlater
  have hhere := hlater spot.untouched (Spot.untouched_sound hkept)
  simp only [Spot.goOn, Spot.after_untouched] at hhere
  exact hhere

theorem Entry.AllRead.cons {entry : Entry} {entries : List Entry} {m : Match}
    {found : Option Match} (h : entry.Repeats L setting need steps 0 offset (some m))
    (h' : Entry.AllRead L setting need steps' entries m.stop found) :
    Entry.AllRead L setting need (steps + steps') (entry :: entries) offset
      (found.map (.after m.nodes)) :=
  fun rest => Brings.trans (·.state (entries ++ rest) 0 m.stop) (h (entries ++ rest)) (h' rest)

/-- Where an entry gives up, so does the sequence. -/
theorem Entry.AllRead.stuck {entry : Entry} {entries : List Entry}
    (h : entry.Repeats L setting need steps 0 offset none) :
    Entry.AllRead L setting need steps (entry :: entries) offset none :=
  fun rest => h (entries ++ rest)

/-! ## Repeats -/

theorem Entry.Repeats.full {entry : Entry} {repeats : Nat}
    (hfull : entry.quantifier.isFull repeats = true) :
    entry.Repeats L setting need 1 repeats offset (some ⟨offset, []⟩) := by
  intro rest outer mode result spot left hleft hkept hlater
  refine Machine.Settles.of_step hleft fun fuel _ => ⟨.next (spot.state rest 0 offset), ?_, ?_⟩
  · have hstep : (spot.state (entry :: rest) repeats offset).step (runWithin fuel)
        (setting.around outer) mode = (spot.state (entry :: rest) repeats offset).stepEntry
          (runWithin fuel) (setting.around outer) entry repeats := rfl
    rw [hstep]
    simp only [Machine.stepEntry]
    by_cases hzero : entry.quantifier.isZero = true
    · rw [if_pos hzero]
      rfl
    · rw [if_neg hzero, if_pos (by simpa [Spot.state] using hfull)]
      rfl
  · have hhere := hlater spot.untouched (Spot.untouched_sound hkept)
    simp only [Spot.goOn, Spot.after_untouched] at hhere
    exact hhere

/-- A failure ends the repeats when there are enough of them. -/
theorem Entry.Repeats.missed {entry : Entry} {repeats : Nat}
    (hfull : entry.quantifier.isFull repeats = false)
    (h : entry.Takes L setting need steps offset none) :
    entry.Repeats L setting need steps repeats offset
      (if repeats < entry.quantifier.lower then none else some ⟨offset, []⟩) := by
  intro rest
  have htried : Spot.tried (L := L) entry rest repeats offset none =
      Spot.goOn rest (if repeats < entry.quantifier.lower then none else some ⟨offset, []⟩) := by
    funext spot remains
    simp only [Spot.tried, Spot.goOn]
    split <;> rfl
  rw [← htried]
  exact h rest repeats hfull

/-- A match of no characters ends the repeats. -/
theorem Entry.Repeats.stayed {entry : Entry} {repeats : Nat} {m : Match}
    (hfull : entry.quantifier.isFull repeats = false)
    (h : entry.Takes L setting need steps offset (some m)) (hstop : m.stop = offset) :
    entry.Repeats L setting need steps repeats offset (some m) := by
  intro rest
  have htried : Spot.tried (L := L) entry rest repeats offset (some m) =
      Spot.goOn rest (some m) := by
    funext spot remains
    simp only [Spot.tried, Spot.goOn, hstop, if_true]
  rw [← htried]
  exact h rest repeats hfull

/-- A match of some characters is followed by the repeats after it. -/
theorem Entry.Repeats.more {entry : Entry} {repeats : Nat} {m : Match}
    {found : Option Match} (hfull : entry.quantifier.isFull repeats = false)
    (h : entry.Takes L setting need steps offset (some m)) (hstop : m.stop ≠ offset)
    (h' : entry.Repeats L setting need steps' (repeats + 1) m.stop found) :
    entry.Repeats L setting need (steps + steps') repeats offset (found.map (.after m.nodes)) := by
  intro rest
  refine Brings.trans (·.state (entry :: rest) (repeats + 1) m.stop) ?_ (h' rest)
  have htried : Spot.tried (L := L) entry rest repeats offset (some m) = fun spot remains =>
      .next ((spot.after m.nodes remains).state (entry :: rest) (repeats + 1) m.stop) := by
    funext spot remains
    simp only [Spot.tried]
    rw [if_neg (Ne.symm hstop)]
  rw [← htried]
  exact h rest repeats hfull

/-! ## Attempts -/

section

variable {entry : Entry} {use : Option TypeUse} {rest : List Entry} {repeats : Nat}

/-- The step at an entry that is not full follows its attempt. -/
theorem Spot.step_attempt {run : Runner L} {mode : Mode} {spot : Spot L} {m : Machine L}
    {attempt : Attempt} (hposs : entry.quantifier.greediness = .possessive)
    (hfull : entry.quantifier.isFull repeats = false)
    (h : (spot.state (entry :: rest) repeats offset).attempt run setting entry =
      .ok (m, attempt)) :
    (spot.state (entry :: rest) repeats offset).step run setting mode =
      .ok (m.afterAttempt entry repeats attempt) := by
  have hstep : (spot.state (entry :: rest) repeats offset).step run setting mode =
      (spot.state (entry :: rest) repeats offset).stepEntry run setting entry repeats := rfl
  have hzero : entry.quantifier.isZero = false := by
    by_contra hzero
    simp only [Quantifier.isZero, Bool.not_eq_false, Bool.and_eq_true, beq_iff_eq] at hzero
    simp only [Quantifier.isFull, hzero.2] at hfull
    simp at hfull
  have hminimum : (entry.quantifier.greediness == .minimum) = false := by
    rw [hposs]
    rfl
  rw [hstep]
  simp only [Machine.stepEntry, hzero, hfull, hminimum]
  rw [if_neg (by simp), if_neg (by simp), if_neg (by simp), h]
  cases attempt with
  | matched stop nodes => rfl
  | opens g use => rfl
  | failed =>
    simp only [Machine.afterAttempt, bind, Except.bind, pure, Except.pure]
    split <;> rfl

omit [FailureLog L] in
/-- A match of the entry leads on as it should. -/
theorem Spot.accept_tried {spot : Spot L} {stop : Nat} {nodes : List Node} {remains : Remains L} :
    Step.next (((spot.after [] remains).state (entry :: rest) repeats offset).accept offset stop
      nodes) = Spot.tried entry rest repeats offset (some ⟨stop, nodes⟩) spot remains := by
  simp only [Spot.tried, Machine.accept, Spot.state, Spot.after, beq_iff_eq]
  split <;> rfl

/-- A failure leads on as it should. -/
theorem Spot.failed_tried (entry : Entry) (rest : List Entry) (repeats offset : Nat)
    (spot : Spot L) (remains : Remains L) :
    ∃ remains' : Remains L, remains'.spent = remains.spent ∧
      remains'.checkers = remains.checkers ∧
      ((spot.after [] remains).state (entry :: rest) repeats offset).afterAttempt entry repeats
        .failed = Spot.tried entry rest repeats offset none spot remains' := by
  by_cases hlower : repeats < entry.quantifier.lower
  · let failures := FailureLog.merge remains.failures
      (FailureLog.of ⟨offset, .target entry.target, repeats⟩)
    refine ⟨{ remains with failures }, rfl, rfl, ?_⟩
    simp only [Machine.afterAttempt, Spot.tried, hlower, decide_true, Bool.or_true, if_true]
    exact Spot.giveUp_state (spot.after [] { remains with failures }) (entry :: rest) repeats offset
  · refine ⟨remains, rfl, rfl, ?_⟩
    simp only [Machine.afterAttempt, Spot.tried, hlower, decide_false, Bool.or_false, if_false]
    rfl

/-! ## Entries matched at once -/

/-- A checker other than a record is matched by an entry as by a choice. -/
theorem Checker.foundAt_choice {c : Checker} (hfixed : ∀ regions, c ≠ .fixed regions)
    (run : Runner L) (setting : Setting) (offset : Nat) :
    c.foundAt run setting offset = c.choiceAt run setting offset := by
  cases c with
  | fixed regions => exact absurd rfl (hfixed regions)
  | _ => rfl

/-- What an attempt makes of what the checker of the entry finds. -/
def Attempt.ofFound (entry : Entry) (offset : Nat) (use : Option TypeUse) :
    Option Found → Attempt
  | some f => .matched f.stop (entry.nodesOf offset f use)
  | none => .failed

/-- An entry takes what its checker finds. -/
theorem Machine.matchChecker_takes {c : Checker} {found : Option Found} {fuel : Nat}
    (outer : List Trail) (spot : Spot L) (rest : List Entry) (repeats : Nat)
    (hentry : entry.MatchedBy setting.types use c)
    (hfixed : ∀ regions, c ≠ .fixed regions) (h : c.Takes L setting need offset found)
    (hfuel : need ≤ fuel) :
    ∃ failures, (spot.state rest repeats offset).matchChecker (runWithin fuel)
      (setting.around outer) entry c use =
        .ok ((spot.after [] ⟨#[], failures, spot.checkers⟩).state rest repeats offset,
          Attempt.ofFound entry offset use found) := by
  obtain ⟨failures, hfound⟩ := h ((spot.state rest repeats offset).scopes ++ outer) fuel hfuel
  have hat : c.foundAt (runWithin fuel) ((spot.state rest repeats offset).inner
      (setting.around outer)) (spot.state rest repeats offset).offset = .ok ⟨found, failures⟩ := by
    rw [Checker.foundAt_choice hfixed]
    exact hfound
  have hstate (failures : L) : (spot.after [] ⟨#[], failures, spot.checkers⟩).state rest repeats
      offset = { spot.state rest repeats offset with failures } := by
    simp only [Spot.after, Array.append_empty]
    rfl
  simp only [Machine.matchChecker, hat, bind, Except.bind, hstate]
  cases found with
  | none => exact ⟨_, rfl⟩
  | some f =>
    have hcomplete (o : Nat) : entry.complete (runWithin fuel) ((spot.state rest repeats
        offset).inner (setting.around outer)) o f use =
          .ok (.of (L := L) (some (entry.nodesOf o f use))) :=
      Entry.complete_accepted hentry _ _ _ _
    simp only [hcomplete]
    exact ⟨_, rfl⟩

/-- An entry that is not walked takes at once what its checker finds. -/
theorem Entry.Takes.at_once {c : Checker} {found : Option Found}
    (hentry : entry.MatchedBy setting.types use c)
    (hfixed : ∀ regions, c ≠ .fixed regions)
    (hwalked : ∀ g, c = .grammar g → setting.strategy.opens g = false)
    (h : c.Takes L setting need offset found) :
    entry.Takes L setting need 1 offset
      (found.map fun f => ⟨f.stop, entry.nodesOf offset f use⟩) := by
  intro rest repeats hfull outer mode result spot left hleft hkept hlater
  refine Machine.Settles.of_step hleft fun fuel hfuel => ?_
  obtain ⟨checkers, hcheckers, hattempt⟩ := Machine.attempt_given (setting.around outer)
    (spot.state (entry :: rest) repeats offset) hentry.gives hkept (runWithin fuel)
  have hmatch : Machine.attemptChecker (runWithin fuel) (setting.around outer)
      { spot.state (entry :: rest) repeats offset with checkers } entry c use =
        Machine.matchChecker (runWithin fuel) (setting.around outer)
          { spot.state (entry :: rest) repeats offset with checkers } entry c use := by
    cases c with
    | grammar g =>
      have hshut : (setting.around outer).strategy.opens g = false := hwalked g rfl
      simp only [Machine.attemptChecker, hshut]
      rfl
    | _ => rfl
  obtain ⟨failures, hdone⟩ := Machine.matchChecker_takes outer { spot with checkers }
    (entry :: rest) repeats hentry hfixed h hfuel
  have hsound : Remains.Sound setting.types ⟨#[], failures, checkers⟩ :=
    ⟨fun _ hs => absurd hs (Array.not_mem_empty _), hcheckers⟩
  refine ⟨_, Spot.step_attempt hentry.keeps hfull (hattempt.trans (hmatch.trans hdone)), ?_⟩
  cases found with
  | none =>
    obtain ⟨remains, hspent, hchecks, htried⟩ := Spot.failed_tried entry rest repeats offset spot
      ⟨#[], failures, checkers⟩
    exact htried ▸ hlater remains ⟨hspent ▸ hsound.spent, hchecks ▸ hsound.kept⟩
  | some f =>
    have hmatched : ((spot.after [] ⟨#[], failures, checkers⟩).state (entry :: rest) repeats
        offset).afterAttempt entry repeats (.matched f.stop (entry.nodesOf offset f use)) =
          Spot.tried entry rest repeats offset (some ⟨f.stop, entry.nodesOf offset f use⟩) spot
            ⟨#[], failures, checkers⟩ := by
      rw [← Spot.accept_tried]
      simp only [Machine.afterAttempt, hentry.keeps]
      rfl
    exact hmatched ▸ hlater _ hsound

/-! ## Entries with a grammar -/

/-- The spot in a grammar walked for an entry. -/
def Spot.within (spot : Spot L) (entry : Entry) (rest : List Entry) (repeats offset : Nat)
    (use : Option TypeUse) (checkers : List ((String × Option String) × Checker)) : Spot L where
  start := offset
  nodes := .empty
  barrier := some spot.snapshots.size
  use := use
  below := ⟨entry :: rest, repeats, spot.start, spot.nodes, spot.barrier, spot.use⟩ :: spot.below
  snapshots := spot.snapshots.push
    ⟨⟨entry :: rest, repeats, spot.start, spot.nodes, spot.barrier, spot.use⟩ :: spot.below,
      offset, false, .passOver⟩
  failures := spot.failures
  checkers := checkers

omit [FailureLog L] in
/-- Giving up inside the grammar passes over the entry. -/
theorem Spot.stuck_within {spot : Spot L} {checkers : List ((String × Option String) × Checker)}
    {remains : Remains L} (hremains : remains.Sound setting.types) :
    ((spot.within entry rest repeats offset use checkers).after [] remains).stuck =
      Spot.tried entry rest repeats offset none spot { remains with spent := #[] } := by
  let outside : Machine L :=
    ⟨[], spot.snapshots, 0, false, remains.failures, remains.checkers⟩
  let before : Snapshot :=
    ⟨⟨entry :: rest, repeats, spot.start, spot.nodes, spot.barrier, spot.use⟩ :: spot.below,
      offset, false, .passOver⟩
  have hspent := Machine.giveUp_spent { outside with snapshots := spot.snapshots.push before }
    remains.spent hremains.spent
  have hstuck : ((spot.within entry rest repeats offset use checkers).after [] remains).stuck =
      Machine.giveUp { outside with snapshots := spot.snapshots.push before } := by
    rw [← hspent]
    exact Machine.giveUp_congr rfl rfl rfl
  have hafter : spot.after [] { remains with spent := #[] } =
      { spot with failures := remains.failures, checkers := remains.checkers } := by
    simp only [Spot.after, Array.append_empty]
    rfl
  rw [hstuck, Machine.giveUp_push outside]
  simp only [Machine.resume, before, Spot.tried, hafter]
  by_cases hlower : repeats < entry.quantifier.lower
  · simp only [hlower, decide_true, Bool.or_true, if_true]
    exact Machine.giveUp_congr rfl rfl rfl
  · simp only [hlower, decide_false, Bool.or_false, if_false]
    rfl

/-- At the end of a grammar its nodes become those of the entry, and its snapshot is closed. -/
theorem Machine.stepOut_closes (run : Runner L) (setting : Setting) (m : Machine L)
    (finished parent : Session) (below : List Session) {types : TypeEnv} {c : Checker}
    (hparent : parent.rest = entry :: rest) (hentry : entry.MatchedBy types finished.use c) :
    m.stepOut run setting finished parent below =
      .ok (.next (((Machine.close { m with sessions := parent :: below } finished.barrier).record
        FailureLog.empty).accept finished.start m.offset
          (entry.nodesOf finished.start ⟨m.offset, finished.nodes.toList, true⟩ finished.use))) := by
  have hcomplete (around : Setting) (found : Found) :
      entry.complete run around finished.start found finished.use =
        .ok (.of (L := L) (some (entry.nodesOf finished.start found finished.use))) :=
    Entry.complete_accepted hentry _ _ _ _
  have hoffset : (Machine.close { m with sessions := parent :: below } finished.barrier).offset =
      m.offset := by
    cases finished.barrier <;> rfl
  simp only [Machine.stepOut, hparent, hentry.keeps, beq_self_eq_true, if_true, hcomplete, hoffset]
  rfl

/-- Coming out of the grammar leads on as a match of the entry. -/
theorem Spot.stepOut_within {spot : Spot L} {c : Checker} {remains : Remains L}
    (run : Runner L) (outer : List Trail) (mode : Mode)
    (checkers : List ((String × Option String) × Checker)) (m : Match)
    (hentry : entry.MatchedBy setting.types use c) (hremains : remains.Sound setting.types) :
    ∃ remains' : Remains L, remains'.Sound setting.types ∧
      (((spot.within entry rest repeats offset use checkers).after m.nodes remains).state [] 0
        m.stop).step run (setting.around outer) mode =
          .ok (Spot.tried entry rest repeats offset
            (some ⟨m.stop, entry.nodesOf offset m.found use⟩) spot remains') := by
  let parent : Session := ⟨entry :: rest, repeats, spot.start, spot.nodes, spot.barrier, spot.use⟩
  let closed : Snapshot := ⟨parent :: spot.below, offset, false, .exhausted⟩
  let remains' : Remains L := ⟨#[closed] ++ remains.spent,
    FailureLog.merge remains.failures FailureLog.empty, remains.checkers⟩
  have hsound : remains'.Sound setting.types := by
    refine ⟨fun snapshot hmem => ?_, hremains.kept⟩
    rcases Array.mem_append.mp hmem with hmem | hmem
    · rw [List.mem_singleton.mp (List.mem_toArray.mp hmem)]
    · exact hremains.spent snapshot hmem
  refine ⟨remains', hsound, ?_⟩
  let inside := ((spot.within entry rest repeats offset use checkers).after m.nodes remains).state
    [] 0 m.stop
  let finished : Session := ⟨[], 0, offset, Trail.empty.pushAll m.nodes,
    some spot.snapshots.size, use⟩
  have hout : inside.step run (setting.around outer) mode = _ :=
    Machine.stepOut_closes run (setting.around outer) inside finished parent spot.below rfl hentry
  have hnodes : finished.nodes.toList = m.nodes := by
    rw [show finished.nodes = Trail.empty.pushAll m.nodes from rfl, Trail.toList_pushAll]
    rfl
  have hmodify : (spot.snapshots.push ⟨parent :: spot.below, offset, false, .passOver⟩ ++
      remains.spent).modify spot.snapshots.size ({ · with action := .exhausted }) =
        spot.snapshots ++ remains'.spent := by
    rw [Array.modify_push_append, Array.push_eq_append, Array.append_assoc]
  have hclosed : (Machine.close { inside with sessions := parent :: spot.below }
      finished.barrier).record FailureLog.empty =
        (spot.after [] remains').state (entry :: rest) repeats m.stop :=
    congrArg (fun snapshots => (⟨parent :: spot.below, snapshots, m.stop, false,
      remains'.failures, remains.checkers⟩ : Machine L)) hmodify
  rw [hout, hclosed, hnodes]
  exact congrArg Except.ok Spot.accept_tried

/-- A grammar walked for an entry. -/
theorem Entry.Takes.walked {g : Grammar} {found : Option Match}
    (hentry : entry.MatchedBy setting.types use (.grammar g))
    (hopens : setting.strategy.opens g = true)
    (h : Entry.AllRead L setting need steps g.entries offset found) :
    entry.Takes L setting need (steps + 2) offset
      (found.map fun m => ⟨m.stop, entry.nodesOf offset m.found use⟩) := by
  intro rest repeats hfull outer mode result spot left hleft hkept hlater
  have hneed : need ≤ left + (steps + 1) := by omega
  refine Machine.Settles.of_step hneed fun fuel hfuel => ?_
  obtain ⟨checkers, hcheckers, hattempt⟩ := Machine.attempt_given (setting.around outer)
    (spot.state (entry :: rest) repeats offset) hentry.gives hkept (runWithin fuel)
  have hopened : Machine.attemptChecker (runWithin fuel) (setting.around outer)
      { spot.state (entry :: rest) repeats offset with checkers } entry (.grammar g) use =
        .ok ({ spot.state (entry :: rest) repeats offset with checkers }, .opens g use) := by
    have hopens : (setting.around outer).strategy.opens g = true := hopens
    simp only [Machine.attemptChecker, hopens, if_true]
  refine ⟨_, Spot.step_attempt hentry.keeps hfull (hattempt.trans hopened), ?_⟩
  have hwalk := h [] outer mode result (spot.within entry rest repeats offset use checkers)
    (left + 1) (by omega) hcheckers
  rw [List.append_nil] at hwalk
  have hle : left + 1 + steps ≤ left + (steps + 1) := by omega
  refine Machine.Settles.mono (hwalk fun remains hremains => ?_) hle
  cases found with
  | none =>
    simp only [Spot.goOn]
    rw [Spot.stuck_within hremains]
    exact (hlater { remains with spent := #[] }
      ⟨fun _ hs => absurd hs (Array.not_mem_empty _), hremains.kept⟩).mono (Nat.le_succ left)
  | some m =>
    refine Machine.Settles.of_step hleft fun fuel _ => ?_
    obtain ⟨remains', hremains', hstep⟩ :=
      Spot.stepOut_within (runWithin fuel) outer mode checkers m hentry hremains
    exact ⟨_, hstep, hlater remains' hremains'⟩

end

/-! ## Checkers -/

/-- A search for a grammar ends as its entries are read. -/
theorem Entry.AllRead.run {g : Grammar} {found : Option Match}
    (h : Entry.AllRead L setting need steps g.entries offset found) (outer : List Trail)
    {fuel : Nat} (hfuel : need + steps < fuel) :
    ∃ failures : L, runWithin fuel (setting.around outer) .beginning g offset =
      .ok ⟨found, failures⟩ := by
  let spot : Spot L := ⟨offset, .empty, none, none, [], #[], FailureLog.empty, []⟩
  have hwalk := h [] outer .beginning found spot (need + 1) (Nat.le_succ need)
    (fun _ hkept => nomatch hkept)
  rw [List.append_nil] at hwalk
  have hends : (Machine.start g offset : Machine L).Settles (setting.around outer) .beginning found
      (need + 1 + steps) := by
    refine hwalk fun remains hremains => ?_
    cases found with
    | none =>
      let empty : Machine L := ⟨[], #[], 0, false, remains.failures, remains.checkers⟩
      have hspent := Machine.giveUp_spent empty remains.spent hremains.spent
      have hstuck : (spot.after [] remains).stuck = empty.giveUp := by
        rw [← hspent]
        exact Machine.giveUp_congr rfl rfl rfl
      simp only [Spot.goOn, hstuck]
      rfl
    | some m =>
      have hneed : need ≤ need := Nat.le_refl need
      refine Machine.Settles.of_step hneed fun _ _ => ⟨_, rfl, ?_⟩
      have hnodes : (spot.nodes.pushAll m.nodes).toList = m.nodes := by
        rw [Trail.toList_pushAll]
        rfl
      exact congrArg (fun nodes => some (⟨m.stop, nodes⟩ : Match)) hnodes
  exact hends fuel (by omega)

namespace Checker.Takes

theorem mono {c : Checker} {found : Option Found} {need' : Nat}
    (h : c.Takes L setting need offset found) (hneed : need ≤ need') :
    c.Takes L setting need' offset found :=
  fun outer fuel hfuel => h outer fuel (Nat.le_trans hneed hfuel)

/-- A checker without parts is a matter of its length. -/
theorem of_length {c : Checker} {length : Option Nat} (hgrammar : ∀ g, c ≠ .grammar g)
    (hchoice : ∀ cs fallback, c ≠ .oneOf cs fallback)
    (h : ∀ (run : Runner L) (outer : List Trail),
      c.lengthAt run (setting.around outer) offset = .ok length) :
    c.Takes L setting 0 offset (length.map fun n => ⟨offset + n, [], false⟩) := by
  intro outer fuel _
  have hlength := h (runWithin fuel) outer
  cases c with
  | grammar g => exact absurd rfl (hgrammar g)
  | oneOf cs fallback => exact absurd rfl (hchoice cs fallback)
  | _ =>
    simp only [choiceAt, hlength]
    exact ⟨_, rfl⟩

/-- A character of the set. -/
theorem char {set : CharSet} {c : Char} (hget : setting.text[offset]? = some c)
    (hset : set.contains setting.types.classes c = true) :
    (Checker.char set).Takes L setting 0 offset (some ⟨offset + 1, [], false⟩) := by
  have hlength (run : Runner L) (outer : List Trail) :
      (Checker.char set).lengthAt run (setting.around outer) offset = .ok (some 1) := by
    have hhere : (setting.around outer).text[offset]? = some c := hget
    have hset : set.contains (setting.around outer).types.classes c = true := hset
    simp only [lengthAt, hhere, hset, if_true]
  exact of_length (fun _ h => by cases h) (fun _ _ h => by cases h) hlength

/-- No character of the set. -/
theorem not_char {set : CharSet}
    (h : ∀ c, setting.text[offset]? = some c → set.contains setting.types.classes c = false) :
    (Checker.char set).Takes L setting 0 offset none := by
  have hlength (run : Runner L) (outer : List Trail) :
      (Checker.char set).lengthAt run (setting.around outer) offset = .ok none := by
    simp only [lengthAt]
    split
    · next c hget =>
      have hset : set.contains (setting.around outer).types.classes c = false := h c hget
      rw [hset]
      rfl
    · rfl
  exact of_length (fun _ h => by cases h) (fun _ _ h => by cases h) hlength

/-- A grammar as a choice is matched by a search of its own. -/
theorem grammar {g : Grammar} {found : Option Match}
    (h : Entry.AllRead L setting need steps g.entries offset found) :
    (Checker.grammar g).Takes L setting (need + steps + 1) offset (found.map Match.found) := by
  intro outer fuel hfuel
  obtain ⟨failures, hrun⟩ := h.run outer hfuel
  simp only [choiceAt, hrun]
  exact ⟨failures, rfl⟩

end Checker.Takes

/-- The longest of what the choices find. -/
def Checker.AllTake (L : Type) [FailureLog L] (setting : Setting) (need : Nat) (cs : List Checker)
    (offset : Nat) (found : Option Found) : Prop :=
  ∀ (outer : List Trail) (fuel : Nat), need ≤ fuel → ∃ failures : L,
    Checker.choicesAt (runWithin fuel) (setting.around outer) offset cs = .ok ⟨found, failures⟩

theorem Checker.AllTake.nil : Checker.AllTake L setting need [] offset none :=
  fun _ _ _ => ⟨_, rfl⟩

theorem Checker.AllTake.cons {c : Checker} {cs : List Checker} {here later : Option Found}
    (hlater : Checker.AllTake L setting need cs offset later)
    (hhere : c.Takes L setting need offset here) :
    Checker.AllTake L setting need (c :: cs) offset (longer later here) := by
  intro outer fuel hfuel
  obtain ⟨failures, hlater⟩ := hlater outer fuel hfuel
  obtain ⟨failures', hhere⟩ := hhere outer fuel hfuel
  simp only [choicesAt, hlater, hhere]
  exact ⟨_, rfl⟩

/-- Some choice matches. -/
theorem Checker.Takes.chosen {cs : List Checker} {fallback : Option Checker} {f : Found}
    (h : Checker.AllTake L setting need cs offset (some f)) :
    (Checker.oneOf cs fallback).Takes L setting need offset (some f) := by
  intro outer fuel hfuel
  obtain ⟨failures, hchosen⟩ := h outer fuel hfuel
  simp only [choiceAt, hchosen]
  exact ⟨_, rfl⟩

theorem Checker.Takes.unchosen {cs : List Checker}
    (h : Checker.AllTake L setting need cs offset none) :
    (Checker.oneOf cs none).Takes L setting need offset none := by
  intro outer fuel hfuel
  obtain ⟨failures, hchosen⟩ := h outer fuel hfuel
  simp only [choiceAt, hchosen, fallbackAt]
  exact ⟨_, rfl⟩

/-- No choice matches, and the fallback takes their place. -/
theorem Checker.Takes.fallen {cs : List Checker} {c : Checker} {found : Option Found}
    (h : Checker.AllTake L setting need cs offset none) (hc : c.Takes L setting need offset found) :
    (Checker.oneOf cs (some c)).Takes L setting need offset found := by
  intro outer fuel hfuel
  obtain ⟨failures, hchosen⟩ := h outer fuel hfuel
  obtain ⟨failures', hfallback⟩ := hc outer fuel hfuel
  simp only [choiceAt, hchosen, fallbackAt, hfallback]
  exact ⟨_, rfl⟩

end TextGrammar
