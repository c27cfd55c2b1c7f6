/-
How a search comes to an end. From an entry it goes on to what comes after it,
comes back to it further into the text, or opens the grammar of the entry; so it
ends if it does from each of these. At the end of the text no repeat leads
further, and the entry is left at once. What is given up leads back to a
snapshot, and from there to a state that ends as well: this is known of a
snapshot when it is saved, and stays known when it is closed later.

At the end of a text or past it a length is none or zero. The one thing that can
keep it from an answer is a match to be read again by a secondary grammar: past
the end there is no part of the text up to it.
-/
import TextGrammar.Proofs.Concluding

namespace TextGrammar

variable {L : Type} [FailureLog L] {env : TypeEnv} {may : Prop} {setting : Setting} {mode : Mode}
  {start : Nat}

/-- With enough steps the search from this state ends: it comes to nothing, to a match of what
begins at `start`, or out of range if that may be. -/
def Machine.Halts (may : Prop) (setting : Setting) (mode : Mode) (start : Nat) (m : Machine L) :
    Prop :=
  Concludes (Stop.Beyond may) (fun seen => setting.text.AllOnward start Match.stop seen.value)
    fun fuel => Machine.run fuel setting mode m

/-- The search ends from what a step leads to. -/
def Step.Halts (may : Prop) (setting : Setting) (mode : Mode) (start : Nat) : Step L → Prop
  | .next m => m.Halts may setting mode start
  | .done result _ => setting.text.AllOnward start Match.stop result

theorem Machine.Halts.of_step {m : Machine L}
    (h : Concludes (Stop.Beyond may) (Step.Halts may setting mode start)
      fun fuel => m.step (runWithin fuel) setting mode) : m.Halts may setting mode start := by
  refine .of_succ ((h.bind fun s hs => ?_).congr fun fuel => Machine.run_eq_bind fuel m)
  cases s with
  | next next => exact hs
  | done result failures => exact .ok hs

/-! ## The way back -/

/-- The same snapshots, though nothing may be left to try at some of them. -/
structure Snapshot.Spent (snapshots spent : Array Snapshot) : Prop where
  size : spent.size = snapshots.size
  each : ∀ i : Nat, spent[i]? = snapshots[i]? ∨
    spent[i]? = snapshots[i]?.map ({ · with action := .exhausted })

namespace Snapshot.Spent

variable {snapshots spent : Array Snapshot}

theorem refl (snapshots : Array Snapshot) : Snapshot.Spent snapshots snapshots :=
  ⟨rfl, fun _ => .inl rfl⟩

theorem trans {later : Array Snapshot} (h : Snapshot.Spent snapshots spent)
    (h' : Snapshot.Spent spent later) : Snapshot.Spent snapshots later := by
  refine ⟨h'.size.trans h.size, fun i => ?_⟩
  rcases h.each i with h | h <;> rcases h'.each i with h' | h' <;> rw [h', h]
  · exact .inl rfl
  · exact .inr rfl
  · exact .inr rfl
  · right
    rw [Option.map_map]
    rfl

omit [FailureLog L] in
theorem close (m : Machine L) (barrier : Option Nat) :
    Snapshot.Spent m.snapshots (m.close barrier).snapshots := by
  cases barrier with
  | none => exact .refl _
  | some place =>
    refine ⟨Array.size_modify, fun i => ?_⟩
    simp only [Machine.close, Array.getElem?_modify]
    split
    · exact .inr rfl
    · exact .inl rfl

/-- The newest snapshot is as it was, or nothing is left to try there. -/
theorem of_push {snapshot : Snapshot} (h : Snapshot.Spent (snapshots.push snapshot) spent) :
    ∃ earlier newest, spent = earlier.push newest ∧ Snapshot.Spent snapshots earlier ∧
      (newest = snapshot ∨ newest = { snapshot with action := .exhausted }) := by
  have hsize := h.size
  rw [Array.size_push] at hsize
  obtain ⟨earlier, newest, rfl⟩ := Array.exists_push_of_size_eq_add_one hsize
  obtain hsize : earlier.size = snapshots.size := by simpa only [Array.size_push, Nat.succ.injEq,
    Nat.add_right_cancel_iff] using hsize
  refine ⟨earlier, newest, rfl, ⟨hsize, fun i => ?_⟩, ?_⟩
  · have hi := h.each i
    simp only [Array.getElem?_push, hsize] at hi
    split at hi
    · next hlast =>
      left
      rw [Array.getElem?_eq_none (by omega), Array.getElem?_eq_none (by omega)]
    · exact hi
  · have hi := h.each snapshots.size
    simp only [Array.getElem?_push, hsize, if_true, Option.map_some, Option.some.injEq] at hi
    exact hi

end Snapshot.Spent

omit [FailureLog L] in
/-- A search that gives up takes up the newest snapshot, or gives up without it. -/
theorem Machine.giveUp_of_push {m : Machine L} {snapshots : Array Snapshot} {snapshot : Snapshot}
    (h : Snapshot.Spent (snapshots.push snapshot) m.snapshots) :
    ∃ earlier, Snapshot.Spent snapshots earlier ∧
      (m.giveUp = Machine.giveUp { m with snapshots := earlier } ∨
        ∃ next, Machine.resume { m with snapshots := earlier } snapshot = some next ∧
          m.giveUp = .next next) := by
  obtain ⟨earlier, newest, hm, hearlier, hnewest⟩ := h.of_push
  refine ⟨earlier, hearlier, ?_⟩
  have hback := Machine.backtrack_push m earlier newest
  rw [← hm] at hback
  simp only [Machine.giveUp]
  rw [hback]
  cases hr : Machine.resume { m with snapshots := earlier } newest with
  | none =>
    simp only [Option.none_or]
    exact .inl trivial
  | some next =>
    simp only [Option.some_or]
    rcases hnewest with rfl | rfl
    · exact .inr ⟨next, hr, rfl⟩
    · simp only [Machine.resume, reduceCtorEq] at hr

/-- A search that gives up with these snapshots ends, whatever it has been through since. -/
def Snapshot.LeadBack (L : Type) [FailureLog L] (env : TypeEnv) (may : Prop) (setting : Setting)
    (mode : Mode) (start : Nat) (snapshots : Array Snapshot) : Prop :=
  ∀ m : Machine L, m.Given env may → Snapshot.Spent snapshots m.snapshots →
    m.giveUp.Halts may setting mode start

namespace Snapshot.LeadBack

variable {snapshots : Array Snapshot}

theorem empty : Snapshot.LeadBack L env may setting mode start #[] := by
  intro m _ spent
  have hnone : m.backtrack = none := by
    simp only [Machine.backtrack, spent.size, Array.size_empty, Machine.backtrackIn]
  simp only [Machine.giveUp, hnone]
  exact .none

theorem spent {spent : Array Snapshot}
    (h : Snapshot.LeadBack L env may setting mode start snapshots)
    (hspent : Snapshot.Spent snapshots spent) :
    Snapshot.LeadBack L env may setting mode start spent :=
  fun m given hm => h m given (hspent.trans hm)

/-- A snapshot may be saved when the search ends from what it leads to. -/
theorem push (h : Snapshot.LeadBack L env may setting mode start snapshots) {snapshot : Snapshot}
    (hnext : ∀ m next : Machine L, m.Given env may → Snapshot.Spent snapshots m.snapshots →
      m.resume snapshot = some next → next.Halts may setting mode start) :
    Snapshot.LeadBack L env may setting mode start (snapshots.push snapshot) := by
  intro m given hspent
  obtain ⟨earlier, hearlier, hgiveUp⟩ := Machine.giveUp_of_push hspent
  rcases hgiveUp with hgiveUp | ⟨next, hr, hgiveUp⟩
  · rw [hgiveUp]
    exact h { m with snapshots := earlier } given hearlier
  · rw [hgiveUp]
    exact hnext { m with snapshots := earlier } next given hearlier hr

end Snapshot.LeadBack

/-! ## States -/

/-- What a session has left to match, and where it was opened. -/
def Session.left (session : Session) : List Entry × Nat := (session.rest, session.start)

/-- A state in the midst of a search, by its sessions, its offset, and whether the current entry has
to match once more. When the search gives up there, it ends. -/
structure Machine.Stands (env : TypeEnv) (may : Prop) (setting : Setting) (mode : Mode)
    (start : Nat) (sessions : List (List Entry × Nat)) (offset : Nat) (forced : Bool)
    (m : Machine L) : Prop where
  given : m.Given env may
  back : Snapshot.LeadBack L env may setting mode start m.snapshots
  left : m.sessions.map Session.left = sessions
  offset_eq : m.offset = offset
  forced_eq : m.forced = forced

/-- The search ends from every state like that. -/
def Session.Proceeds (L : Type) [FailureLog L] (env : TypeEnv) (may : Prop) (setting : Setting)
    (mode : Mode) (start : Nat) (sessions : List (List Entry × Nat)) (offset : Nat)
    (forced : Bool) : Prop :=
  ∀ m : Machine L, m.Stands env may setting mode start sessions offset forced →
    m.Halts may setting mode start

section

variable {offset s₀ : Nat} {forced : Bool} {m : Machine L} {entry : Entry} {rest : List Entry}
  {below sessions : List (List Entry × Nat)}

namespace Machine.Stands

theorem top {left : List Entry × Nat}
    (h : m.Stands env may setting mode start (left :: sessions) offset forced) :
    ∃ top below, m.sessions = top :: below ∧ top.rest = left.1 ∧ top.start = left.2 ∧
      below.map Session.left = sessions := by
  obtain ⟨top, below, hm, rfl, hbelow⟩ := List.map_eq_cons_iff.mp h.left
  exact ⟨top, below, hm, rfl, rfl, hbelow⟩

theorem advance
    (h : m.Stands env may setting mode start ((entry :: rest, s₀) :: below) offset forced) :
    m.advance.Stands env may setting mode start ((rest, s₀) :: below) offset false := by
  obtain ⟨top, sessions, hm, hrest, hstart, hbelow⟩ := h.top
  simp only [Machine.advance, hm]
  refine ⟨h.given, h.back, ?_, h.offset_eq, rfl⟩
  simp only [List.map_cons, Session.left, hrest, hstart, hbelow, List.tail_cons]

theorem record (h : m.Stands env may setting mode start sessions offset forced) (failures : L) :
    (m.record failures).Stands env may setting mode start sessions offset forced :=
  ⟨h.given, h.back, h.left, h.offset_eq, h.forced_eq⟩

theorem giveUp (h : m.Stands env may setting mode start sessions offset forced) :
    m.giveUp.Halts may setting mode start :=
  h.back m h.given (.refl _)

/-- A state like one that was saved. -/
theorem again {back : Machine L} {forced' : Bool}
    (h : m.Stands env may setting mode start sessions offset forced) (given : back.Given env may)
    (spent : Snapshot.Spent m.snapshots back.snapshots) :
    Machine.Stands env may setting mode start sessions offset forced'
      { back with sessions := m.sessions, offset := m.offset, forced := forced' } :=
  ⟨given, h.back.spent spent, h.left, h.offset_eq, rfl⟩

/-- To pass over an entry later is to go on after it. -/
theorem savePassOver
    (h : m.Stands env may setting mode start ((entry :: rest, s₀) :: below) offset forced)
    (hnext : Session.Proceeds L env may setting mode start ((rest, s₀) :: below) offset false) :
    (m.save .passOver).Stands env may setting mode start ((entry :: rest, s₀) :: below) offset
      forced := by
  refine ⟨h.given, h.back.push ?_, h.left, h.offset_eq, h.forced_eq⟩
  intro back next given spent hresume
  rcases Machine.resume_cases hresume with ⟨haction, _⟩ | ⟨_, rfl⟩
  · cases haction
  · exact hnext _ (h.again given spent).advance

/-- To ask for one repeat more later is to be back at the entry. -/
theorem saveOneMore
    (h : m.Stands env may setting mode start ((entry :: rest, s₀) :: below) offset forced)
    (hforced : Session.Proceeds L env may setting mode start ((entry :: rest, s₀) :: below) offset
      true) :
    (m.save .oneMore).Stands env may setting mode start ((entry :: rest, s₀) :: below) offset
      forced := by
  refine ⟨h.given, h.back.push ?_, h.left, h.offset_eq, h.forced_eq⟩
  intro back next given spent hresume
  rcases Machine.resume_cases hresume with ⟨_, rfl⟩ | ⟨haction, _⟩
  · exact hforced _ (h.again given spent)
  · cases haction

/-- Into a nested grammar, with the way around it saved. -/
theorem enter (h : (m.save .passOver).Stands env may setting mode start sessions offset forced)
    (g : Grammar) (use : Option TypeUse) :
    (m.enter g use).Stands env may setting mode start ((g.entries, offset) :: sessions) offset
      false := by
  obtain rfl := h.offset_eq
  exact ⟨h.given, h.back, congrArg _ h.left, rfl, rfl⟩

/-- The way back into a session that has been left may be closed or not. -/
theorem closing (h : m.Stands env may setting mode start sessions offset forced) (closes : Prop)
    [Decidable closes] (barrier : Option Nat) :
    ∃ out, (if closes then m.close barrier else m) = out ∧
      out.Stands env may setting mode start sessions offset forced := by
  refine ⟨_, rfl, ?_⟩
  split
  · refine ⟨?_, h.back.spent (.close m barrier), ?_, ?_, ?_⟩
    · cases barrier <;> exact h.given
    · rw [m.close_sessions, h.left]
    · rw [m.close_offset, h.offset_eq]
    · rw [m.close_forced, h.forced_eq]
  · exact h

/-- After a repeat the search goes on after the entry if the repeat is empty, and is back at the
entry further into the text if it is not. -/
theorem accept {offset' : Nat}
    (h : m.Stands env may setting mode start ((entry :: rest, s₀) :: below) offset' forced)
    {stop : Nat} (honward : setting.text.Onward offset stop)
    (hnext : Session.Proceeds L env may setting mode start ((rest, s₀) :: below) offset false)
    (hagain : ∀ stop, setting.text.Onward offset stop → offset < stop →
      Session.Proceeds L env may setting mode start ((entry :: rest, s₀) :: below) stop false)
    (nodes : List Node) : (m.accept offset stop nodes).Halts may setting mode start := by
  obtain ⟨top, sessions, hm, hrest, hstart, hbelow⟩ := h.top
  -- The state with the repeat, before it is known whether the entry is at its end.
  have hmore : Machine.Stands env may setting mode start ((entry :: rest, s₀) :: below) stop false
      { m with
        sessions :=
          { top with nodes := top.nodes.pushAll nodes, repeats := top.repeats + 1 } :: sessions
        offset := stop, forced := false } := by
    refine ⟨h.given, h.back, ?_, rfl, rfl⟩
    simp only [List.map_cons, Session.left, hrest, hstart, hbelow]
  rcases Nat.eq_or_lt_of_le honward.le with rfl | hlt
  · simp only [Machine.accept, hm, beq_self_eq_true, if_true]
    exact hnext _ hmore.advance
  · simp only [Machine.accept, hm, beq_eq_false_iff_ne.mpr (Nat.ne_of_lt hlt), Bool.false_eq_true,
      if_false]
    exact hagain stop honward hlt _ hmore

end Machine.Stands

/-! ## Steps -/

/-- **A step at an entry** leads on to what comes after it, further into the text, or into its
grammar. -/
theorem Machine.stepEntry_halts (ready : setting.Ready env may entry.rereads offset)
    (hentry : entry.Halts L env may)
    (h : m.Stands env may setting mode start ((entry :: rest, s₀) :: below) offset forced)
    (hnext : Session.Proceeds L env may setting mode start ((rest, s₀) :: below) offset false)
    (hagain : ∀ stop, setting.text.Onward offset stop → offset < stop →
      Session.Proceeds L env may setting mode start ((entry :: rest, s₀) :: below) stop false)
    (hforced : forced = false →
      Session.Proceeds L env may setting mode start ((entry :: rest, s₀) :: below) offset true)
    (hopens : ∀ g, entry.target = .checker (.grammar g) →
      Session.Proceeds L env may setting mode start
        ((g.entries, offset) :: (entry :: rest, s₀) :: below) offset false) (repeats : Nat) :
    Concludes (Stop.Beyond may) (Step.Halts may setting mode start)
      fun fuel => m.stepEntry (runWithin fuel) setting entry repeats := by
  obtain rfl := h.offset_eq
  simp only [Machine.stepEntry]
  split
  · exact .ok (hnext _ h.advance)
  split
  · exact .ok (hnext _ h.advance)
  split
  · next hmin =>
    simp only [Bool.and_eq_true, Bool.not_eq_eq_eq_not, Bool.not_true] at hmin
    have hf : forced = false := h.forced_eq.symm.trans hmin.1.1
    exact .ok (hnext _ (h.saveOneMore (hforced hf)).advance)
  refine (Machine.attempt_concludes ready h.given hentry).bind fun r hr => ?_
  obtain ⟨m', result⟩ := r
  -- The attempt has left all but the failures and the checkers in place.
  obtain ⟨⟨failures, checkers, rfl⟩, given, hresult⟩ := hr
  have h' : Machine.Stands env may setting mode start ((entry :: rest, s₀) :: below) m.offset forced
      { m with failures, checkers } :=
    ⟨given, h.back, h.left, rfl, h.forced_eq⟩
  cases result with
  | matched stop nodes =>
    refine .ok ?_
    split
    · exact (h'.savePassOver hnext).accept hresult hnext hagain nodes
    · exact h'.accept hresult hnext hagain nodes
  | opens g use => exact .ok (hopens g hresult _ ((h'.savePassOver hnext).enter g use))
  | failed =>
    simp only
    split
    · exact .ok (h'.record _).giveUp
    · exact .ok (hnext _ h'.advance)

/-- **A step out of a nested grammar** leads on to what comes after the entry it was opened for, or
back to that entry further into the text. -/
theorem Machine.stepOut_halts {opened : Nat}
    (ready : setting.Ready env may entry.rereads opened) (hentry : entry.Halts L env may)
    (h : m.Stands env may setting mode start (([], opened) :: (entry :: rest, s₀) :: below) offset
      forced) (honward : setting.text.Onward opened offset)
    (hnext : Session.Proceeds L env may setting mode start ((rest, s₀) :: below) opened false)
    (hagain : ∀ stop, setting.text.Onward opened stop → opened < stop →
      Session.Proceeds L env may setting mode start ((entry :: rest, s₀) :: below) stop false)
    {finished parent : Session} {sessions : List Session}
    (hm : m.sessions = finished :: parent :: sessions) :
    Concludes (Stop.Beyond may) (Step.Halts may setting mode start)
      fun fuel => m.stepOut (runWithin fuel) setting finished parent sessions := by
  obtain ⟨hfinished, hleft⟩ := List.cons.inj (hm ▸ h.left)
  obtain ⟨_, rfl⟩ := Prod.mk.inj hfinished
  obtain ⟨hrest, _⟩ := Prod.mk.inj (List.cons.inj hleft).1
  have hparent : Machine.Stands env may setting mode start ((entry :: rest, s₀) :: below) offset
      forced { m with sessions := parent :: sessions } :=
    ⟨h.given, h.back, hleft, h.offset_eq, h.forced_eq⟩
  obtain ⟨out, heq, hout⟩ :=
    hparent.closing (entry.quantifier.greediness == .possessive) finished.barrier
  simp only [Machine.stepOut, hrest]
  rw [heq, hout.offset_eq]
  have hfound : setting.text.Onward finished.start
      (⟨offset, finished.nodes.toList, true⟩ : Found).stop := honward
  refine (Entry.complete_concludes hentry (ready.inner out) hfound finished.use).bind
    fun seen _ => ?_
  obtain ⟨_ | nodes, failures⟩ := seen
  · exact .ok ((hout.record failures).record _).giveUp
  · exact .ok ((hout.record failures).accept honward hnext hagain nodes)

end

/-! ## Walks -/

/-- A search in a session with these entries ends, if it ends from wherever the session is at its
end. -/
def Entry.Passes (L : Type) [FailureLog L] (env : TypeEnv) (may : Prop) (entries : List Entry) :
    Prop :=
  ∀ (setting : Setting) (mode : Mode) (start offset : Nat),
    setting.Ready env may (Entry.anyRereads entries) offset →
      ∀ (below : List (List Entry × Nat)) (s₀ : Nat),
        (∀ stop, setting.text.Onward offset stop →
          Session.Proceeds L env may setting mode start (([], s₀) :: below) stop false) →
        Session.Proceeds L env may setting mode start ((entries, s₀) :: below) offset false

theorem Entry.passes_nil : Entry.Passes L env may [] :=
  fun _ _ _ offset _ _ _ hends => hends offset .refl

/-- An entry is passed when what comes after it is. -/
theorem Entry.passes_cons {entry : Entry} {rest : List Entry} (hentry : entry.Halts L env may)
    (hown : ∀ g, entry.target = .checker (.grammar g) → Entry.Passes L env may g.entries)
    (hrest : Entry.Passes L env may rest) : Entry.Passes L env may (entry :: rest) := by
  intro setting mode start offset ready below s₀
  -- The search is back at the entry only further into the text.
  induction hleft : setting.text.size - offset using Nat.strong_induction_on generalizing offset
    with | _ left ih =>
  intro hends
  obtain ⟨here, later⟩ : setting.Ready env may entry.rereads offset ∧
      setting.Ready env may (Entry.anyRereads rest) offset := ready.or
  have hnext := hrest setting mode start offset later below s₀ hends
  have hagain (stop : Nat) (honward : setting.text.Onward offset stop) (hlt : offset < stop) :
      Session.Proceeds L env may setting mode start ((entry :: rest, s₀) :: below) stop false := by
    have hsize := honward.lt_size hlt
    exact ih _ (by omega) stop (ready.onward honward) rfl fun later hlater =>
      hends later (honward.trans hlater)
  have hopens (g : Grammar) (hg : entry.target = .checker (.grammar g)) :
      Session.Proceeds L env may setting mode start
        ((g.entries, offset) :: (entry :: rest, s₀) :: below) offset false := by
    have within : setting.Ready env may (Entry.anyRereads g.entries) offset :=
      here.mono fun hr => .inr (Entry.rereads_of_target hg (by cases g; exact hr))
    refine hown g hg setting mode start offset within _ _ fun stop honward m h => .of_step ?_
    obtain ⟨finished, sessions, hm, hfinished, _, hleft⟩ := h.top
    obtain ⟨parent, sessions, rfl, _⟩ := List.map_eq_cons_iff.mp hleft
    simp only [Machine.step, hm, hfinished]
    exact Machine.stepOut_halts here hentry h honward hnext hagain hm
  have hstep {forced : Bool} (hforced : forced = false →
      Session.Proceeds L env may setting mode start ((entry :: rest, s₀) :: below) offset true) :
      Session.Proceeds L env may setting mode start ((entry :: rest, s₀) :: below) offset
        forced := by
    refine fun m h => .of_step ?_
    obtain ⟨top, sessions, hm, htop, _, _⟩ := h.top
    simp only [Machine.step, hm, htop]
    exact Machine.stepEntry_halts here hentry h hnext hagain hforced hopens top.repeats
  -- A demand for one more has the entry tried again, and once.
  exact hstep fun _ => hstep fun h => by cases h

/-- At the end of its grammar the search is over, or has to give up. -/
theorem Session.proceeds_end {s₀ offset : Nat} (honward : setting.text.Onward start offset) :
    Session.Proceeds L env may setting mode start [([], s₀)] offset false := by
  refine fun m h => .of_step ?_
  obtain ⟨top, below, hm, htop, _, hbelow⟩ := h.top
  obtain rfl := List.map_eq_nil_iff.mp hbelow
  obtain rfl := h.offset_eq
  simp only [Machine.step, hm, htop]
  split
  · exact .ok (h.record _).giveUp
  · exact .ok (.some honward)

/-- **A grammar whose entries are passed halts.** -/
theorem Entry.Passes.halts {g : Grammar} (h : Entry.Passes L env may g.entries) :
    g.Halts L env may := by
  intro setting mode offset ready
  obtain ⟨entries⟩ := g
  exact h setting mode offset offset ready [] offset (fun _ honward => Session.proceeds_end honward)
    _ ⟨List.forall_mem_nil _, .empty, rfl, rfl, rfl⟩

/-! ## Grammars -/

section

variable {refOk : TypeRef → Prop} {columnsOk : List Region → Prop}

mutual

theorem Grammar.Every.passes (hrefs : ∀ r, refOk r → env.Answers L may r) : ∀ {g : Grammar},
    g.Every (Entry.Refers refOk) columnsOk → Entry.Passes L env may g.entries
  | ⟨_⟩, h => Entry.EveryOf.passes hrefs h

theorem Grammar.EveryIn.each_halts (hrefs : ∀ r, refOk r → env.Answers L may r) :
    ∀ {g? : Option Grammar}, Grammar.EveryIn (Entry.Refers refOk) columnsOk g? →
      ∀ g, g? = some g → g.Halts L env may
  | some _, h, _, rfl => (Grammar.Every.passes hrefs h).halts

theorem Entry.EveryOf.passes (hrefs : ∀ r, refOk r → env.Answers L may r) :
    ∀ {entries : List Entry}, Entry.EveryOf (Entry.Refers refOk) columnsOk entries →
      Entry.Passes L env may entries
  | [], _ => Entry.passes_nil
  | ⟨_, .checker _, _, _⟩ :: _, ⟨⟨_, hc, hsecond⟩, hrest⟩ =>
    Entry.passes_cons
      ⟨fun | _, rfl => Checker.Every.halts hrefs hc, nofun, nofun,
        Grammar.EveryIn.each_halts hrefs hsecond⟩
      (Checker.Every.own_passes hrefs hc) (Entry.EveryOf.passes hrefs hrest)
  | ⟨_, .ref r, _, _⟩ :: _, ⟨⟨hr, _, hsecond⟩, hrest⟩ =>
    Entry.passes_cons
      ⟨nofun, fun | _, rfl => hrefs r hr, nofun, Grammar.EveryIn.each_halts hrefs hsecond⟩
      nofun (Entry.EveryOf.passes hrefs hrest)

theorem Checker.Every.own_passes (hrefs : ∀ r, refOk r → env.Answers L may r) : ∀ {c : Checker},
    c.Every (Entry.Refers refOk) columnsOk →
      ∀ g, Target.checker c = .checker (.grammar g) → Entry.Passes L env may g.entries
  | .grammar _, h, _, rfl => Grammar.Every.passes hrefs h

theorem Checker.Every.halts (hrefs : ∀ r, refOk r → env.Answers L may r) : ∀ {c : Checker},
    c.Every (Entry.Refers refOk) columnsOk → c.Halts L env may
  | .char _, _ => .char _
  | .word _, _ => .word _
  | .any _, _ => .any _
  | .oneOf _ _, h =>
    .oneOf (Checker.EveryOf.each_halts hrefs h.1) (Checker.EveryIn.each_halts hrefs h.2)
  | .not item, h => .not (Checker.Every.halts hrefs (c := item) h)
  | .fixed _, h => .fixed (Region.EveryOf.each_halts hrefs h.2)
  | .grammar _, h => .grammar (Grammar.Every.passes hrefs h).halts

theorem Checker.EveryOf.each_halts (hrefs : ∀ r, refOk r → env.Answers L may r) :
    ∀ {cs : List Checker}, Checker.EveryOf (Entry.Refers refOk) columnsOk cs →
      ∀ c ∈ cs, c.Halts L env may
  | [], _ => List.forall_mem_nil _
  | _ :: _, h =>
    List.forall_mem_cons.mpr ⟨Checker.Every.halts hrefs h.1, Checker.EveryOf.each_halts hrefs h.2⟩

theorem Checker.EveryIn.each_halts (hrefs : ∀ r, refOk r → env.Answers L may r) :
    ∀ {c? : Option Checker}, Checker.EveryIn (Entry.Refers refOk) columnsOk c? →
      ∀ c, c? = some c → c.Halts L env may
  | some _, h, _, rfl => Checker.Every.halts hrefs h

theorem Region.EveryOf.each_halts (hrefs : ∀ r, refOk r → env.Answers L may r) :
    ∀ {regions : List Region}, Region.EveryOf (Entry.Refers refOk) columnsOk regions →
      ∀ region ∈ regions, ∀ g, region.grammar = some g → g.Halts L env may
  | [], _ => List.forall_mem_nil _
  | ⟨_, _, _⟩ :: _, h =>
    List.forall_mem_cons.mpr
      ⟨Grammar.EveryIn.each_halts hrefs h.1, Region.EveryOf.each_halts hrefs h.2⟩

end

/-- **Every search for the grammar ends**, if each type it refers to is there and gives a checker
that is matched at once. -/
theorem Grammar.Every.halts {g : Grammar} (hrefs : ∀ r, refOk r → env.Answers L may r)
    (h : g.Every (Entry.Refers refOk) columnsOk) : g.Halts L env may :=
  (Grammar.Every.passes hrefs h).halts

end

/-! ## The end of a text -/

/-- **At the end of a text or past it a checker without types has a length of none or zero**, after
enough steps. Only past the end, and only if some match is to be read again by a secondary grammar,
there may be no answer: the part of the text up to the match is out of range. -/
theorem Checker.matchAt_past_end {c : Checker} (untyped : c.Every Entry.HasChecker fun _ => True)
    (types : TypeEnv) {text : Text} {offset : Nat} (past : text.size ≤ offset) :
    ∃ answer, (answer = .ok none ∨ answer = .ok (some 0) ∨
        answer = .error .outOfRange ∧ text.size < offset ∧ c.rereads = true) ∧
      ∃ enough, ∀ fuel, enough ≤ fuel → c.matchAt fuel types text offset = answer := by
  have ready : (types.setting text).Ready types (text.size < offset ∧ c.rereads = true) c.rereads
      offset := by
    refine ⟨rfl, rfl, ?_⟩
    by_cases hlt : text.size < offset ∧ c.rereads = true
    · exact .inl hlt
    · exact .inr ⟨past, fun hr => Nat.le_of_not_lt fun h => hlt ⟨h, hr⟩⟩
  have halts : c.Halts (Option Failure) types (text.size < offset ∧ c.rereads = true) :=
    Checker.Every.halts (fun _ h => h.elim)
      (untyped.combine (fun _ h _ => h.refers fun _ => False) (fun _ h _ => h) untyped)
  rcases halts.length ready with ⟨length, hlength, h⟩ | ⟨_, ⟨⟨hlt, hr⟩, rfl⟩, h⟩
  · refine ⟨.ok length, ?_, Filter.eventually_atTop.mp h⟩
    cases length with
    | none => exact .inl rfl
    | some n =>
      obtain rfl := Nat.add_eq_left.mp ((hlength n rfl).stays past)
      exact .inr (.inl rfl)
  · exact ⟨_, .inr (.inr ⟨rfl, hlt, hr⟩), Filter.eventually_atTop.mp h⟩

/-- No characters at all, read again as no entries at all. -/
def Checker.nothingTwice : Checker :=
  .grammar ⟨[⟨none, .checker (.any (some 0)), .one, some ⟨[]⟩⟩]⟩

theorem Checker.nothingTwice_untyped : nothingTwice.Every Entry.HasChecker fun _ => True :=
  ⟨⟨⟨_, rfl⟩, trivial, trivial⟩, trivial⟩

theorem Checker.nothingTwice_matchAt :
    nothingTwice.Every Entry.HasChecker (fun _ => True) ∧ (#['a'] : Text).size ≤ 1 ∧
      ∃ answer, (answer = .ok none ∨ answer = .ok (some 0) ∨
          answer = .error .outOfRange ∧ (#['a'] : Text).size < 1 ∧ nothingTwice.rereads = true) ∧
        ∃ enough, ∀ fuel, enough ≤ fuel → nothingTwice.matchAt fuel .bare #['a'] 1 = answer :=
  ⟨nothingTwice_untyped, Nat.le_refl 1,
    matchAt_past_end nothingTwice_untyped .bare (Nat.le_refl 1)⟩

/-- Past the end there is no part of the text to read again, and no answer. -/
theorem Checker.not_forall_matchAt_past_end :
    ¬ ∀ (c : Checker) (types : TypeEnv) (text : Text) (offset : Nat),
      c.Every Entry.HasChecker (fun _ => True) → text.size ≤ offset →
        ∃ answer, (answer = .ok none ∨ answer = .ok (some 0)) ∧
          ∃ enough, ∀ fuel, enough ≤ fuel → c.matchAt fuel types text offset = answer := by
  intro h
  obtain ⟨answer, hanswer, enough, heq⟩ :=
    h nothingTwice .bare #[] 1 nothingTwice_untyped (Nat.zero_le 1)
  have hstuck : nothingTwice.matchAt (enough + 1) .bare #[] 1 = .error .outOfRange := rfl
  rw [heq (enough + 1) (Nat.le_succ enough)] at hstuck
  rcases hanswer with rfl | rfl <;> cases hstuck

end TextGrammar
