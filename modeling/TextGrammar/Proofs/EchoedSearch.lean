/-
Two searches side by side. From states that stand alike both searches go on alike:
past an entry, back to it further into the text, or into its grammar; and when
they give up they come back to snapshots that were saved alike. What is left to
match may differ, as an entry of one search echoes one of the other, or stands for
a run of others.
-/
import TextGrammar.Proofs.FusedRuns

open Filter (atTop)

namespace TextGrammar

/-! ## Two searches -/

/-- Two searches made side by side from the same offset. -/
structure Twins where
  env : TypeEnv
  setting : Setting
  setting' : Setting
  mode : Mode
  start : Nat
  echoes : setting.Echoes env setting'

variable {L : Type} [FailureLog L] {t : Twins}

namespace Twins

/-- Both end with the same match, both without one, or both are refused. -/
def EndAs (t : Twins) (x x' : Nat → Except Stop (Seen L (Option Match))) : Prop :=
  BothEnd Stop.SameRefusal (Seen.Both (Match.Echoes t.start t.setting.text.size)) x x'

/-- From these steps both searches come to the same. -/
def StepsEcho (t : Twins) (s s' : Step L) : Prop :=
  t.EndAs (fun fuel => s.answer t.setting t.mode fuel) fun fuel => s'.answer t.setting' t.mode fuel

/-- From these states both searches come to the same. -/
def Echo (t : Twins) (m m' : Machine L) : Prop :=
  t.EndAs (fun fuel => Machine.run fuel t.setting t.mode m)
    fun fuel => Machine.run fuel t.setting' t.mode m'

theorem Echo.of_step {m m' : Machine L} (h : BothEnd Stop.SameRefusal t.StepsEcho
    (fun fuel => m.step (runWithin fuel) t.setting t.mode)
    fun fuel => m'.step (runWithin fuel) t.setting' t.mode) : t.Echo m m' := by
  refine BothEnd.of_succ ?_
  simp only [Machine.run_eq_bind]
  exact h.bind fun _ _ hs => hs

/-- Each search may have gone some way on its own. -/
theorem Echo.of_leads {m m' : Machine L} {s s' : Step L} (h : m.Leads t.setting t.mode s)
    (h' : m'.Leads t.setting' t.mode s') (hs : t.StepsEcho s s') : t.Echo m m' := by
  rcases hs with ⟨seen, seen', hseen, hy, hy'⟩ | ⟨stop, stop', hstops, hy, hy'⟩
  · exact .inl ⟨seen, seen', hseen, h _ hy, h' _ hy'⟩
  · exact .inr ⟨stop, stop', hstops, h _ hy, h' _ hy'⟩

end Twins

/-! ## The way back -/

/-- Nothing is left to try at the snapshot. -/
def Snapshot.IsDead (snapshot : Snapshot) : Prop :=
  snapshot.action = .exhausted ∨ snapshot.action = .passOver ∧
    ∀ top below e es, snapshot.sessions = top :: below → top.rest = e :: es →
      (snapshot.forced || top.repeats < e.quantifier.lower) = true

omit [FailureLog L] in
/-- To pass over the current entry, if that has been matched as often as it has to be. -/
theorem Machine.resume_passOver (m : Machine L) {sessions below : List Session} {top : Session}
    {e : Entry} {es : List Entry} (hsessions : sessions = top :: below) (htop : top.rest = e :: es)
    (offset : Nat) (forced : Bool) : m.resume ⟨sessions, offset, forced, .passOver⟩ =
      if (forced || top.repeats < e.quantifier.lower) = true then none
      else some (advance { m with sessions, offset, forced }) := by
  obtain ⟨_, repeats, start, nodes, barrier, use⟩ := top
  simp only at htop
  subst hsessions htop
  rfl

omit [FailureLog L] in
theorem Machine.resume_of_isDead {snapshot : Snapshot} (h : snapshot.IsDead) (m : Machine L) :
    m.resume snapshot = none := by
  obtain ⟨sessions, offset, forced, action⟩ := snapshot
  rcases h with haction | ⟨haction, hdead⟩
  · simp only at haction
    subst haction
    rfl
  · simp only at haction hdead
    subst haction
    simp only [Machine.resume]
    split
    · exact if_pos (hdead _ _ _ _ rfl rfl)
    · rfl

/-- Nothing is left to try at the snapshot of this place. -/
def Snapshot.DeadAt (snapshots : Array Snapshot) (place : Nat) : Prop :=
  ∃ snapshot, snapshots[place]? = some snapshot ∧ snapshot.IsDead

/-- The snapshots of two searches, some of them spent since, both times the same ones. -/
structure Snapshot.SpentBoth (snapshots snapshots' spent spent' : Array Snapshot) : Prop where
  size : spent.size = snapshots.size
  size' : spent'.size = snapshots'.size
  each : ∀ i : Nat, spent[i]? = snapshots[i]? ∧ spent'[i]? = snapshots'[i]? ∨
    Snapshot.DeadAt spent i ∧ Snapshot.DeadAt spent' i

namespace Snapshot.SpentBoth

variable {snapshots snapshots' spent spent' : Array Snapshot}

theorem refl (snapshots snapshots' : Array Snapshot) :
    Snapshot.SpentBoth snapshots snapshots' snapshots snapshots' :=
  ⟨rfl, rfl, fun _ => .inl ⟨rfl, rfl⟩⟩

theorem dead (h : Snapshot.SpentBoth snapshots snapshots' spent spent') {place : Nat}
    (hdead : Snapshot.DeadAt snapshots place ∧ Snapshot.DeadAt snapshots' place) :
    Snapshot.DeadAt spent place ∧ Snapshot.DeadAt spent' place := by
  rcases h.each place with ⟨heq, heq'⟩ | hspent
  · unfold Snapshot.DeadAt
    rw [heq, heq']
    exact hdead
  · exact hspent

theorem trans (h : Snapshot.SpentBoth snapshots snapshots' spent spent')
    {later later' : Array Snapshot} (hlater : Snapshot.SpentBoth spent spent' later later') :
    Snapshot.SpentBoth snapshots snapshots' later later' := by
  refine ⟨hlater.size.trans h.size, hlater.size'.trans h.size', fun i => ?_⟩
  rcases hlater.each i with ⟨heq, heq'⟩ | hdead
  · rw [heq, heq']
    unfold Snapshot.DeadAt
    rw [heq, heq']
    exact h.each i
  · exact .inr hdead

/-- The newest snapshots are as they were, or nothing is left to try at both of them. -/
theorem of_push {snapshot snapshot' : Snapshot} (hsize : snapshots'.size = snapshots.size)
    (h : Snapshot.SpentBoth (snapshots.push snapshot) (snapshots'.push snapshot') spent spent') :
    ∃ earlier newest earlier' newest', spent = earlier.push newest ∧
      spent' = earlier'.push newest' ∧ Snapshot.SpentBoth snapshots snapshots' earlier earlier' ∧
        (newest = snapshot ∧ newest' = snapshot' ∨ newest.IsDead ∧ newest'.IsDead) := by
  obtain ⟨earlier, newest, rfl⟩ :=
    Array.exists_push_of_size_eq_add_one (h.size.trans (Array.size_push _))
  obtain ⟨earlier', newest', rfl⟩ :=
    Array.exists_push_of_size_eq_add_one (h.size'.trans (Array.size_push _))
  have hfirst : earlier.size = snapshots.size := by
    simpa only [Array.size_push, Nat.add_right_cancel_iff] using h.size
  have hsecond : earlier'.size = snapshots'.size := by
    simpa only [Array.size_push, Nat.add_right_cancel_iff] using h.size'
  refine ⟨earlier, newest, earlier', newest', rfl, rfl, ⟨hfirst, hsecond, fun i => ?_⟩, ?_⟩
  · have hi := h.each i
    simp only [Snapshot.DeadAt, Array.getElem?_push, hfirst, hsecond, hsize] at hi
    split at hi
    · next hlast =>
      left
      constructor <;> rw [Array.getElem?_eq_none (by omega), Array.getElem?_eq_none (by omega)]
    · exact hi
  · have hi := h.each snapshots.size
    simpa only [Snapshot.DeadAt, Array.getElem?_push, hfirst, hsecond, hsize, if_true,
      Option.some.injEq, exists_eq_left'] using hi

end Snapshot.SpentBoth

/-! ## Giving up -/

/-- The checker of a type: it is matched at once, and echoes itself. -/
structure Checker.Stays (L : Type) [FailureLog L] (env : TypeEnv) (c : Checker) : Prop where
  echoes : c.Echoes L env c
  closed : ∀ g, c = .grammar g → Strategy.standard.opens g = false

/-- Both searches keep the same checkers. -/
structure Machine.Keep (env : TypeEnv) (m m' : Machine L) : Prop where
  same : m'.checkers = m.checkers
  stay : ∀ kept ∈ m.checkers, kept.2.Stays L env

namespace Twins

/-- Searches that give up with these snapshots come to the same, whatever they have been through
since. -/
def LeadBack (L : Type) [FailureLog L] (t : Twins) (snapshots snapshots' : Array Snapshot) : Prop :=
  ∀ m m' : Machine L, m.Keep t.env m' →
    Snapshot.SpentBoth snapshots snapshots' m.snapshots m'.snapshots →
      t.StepsEcho m.giveUp m'.giveUp

theorem LeadBack.empty : t.LeadBack L #[] #[] := by
  intro m m' _ spent
  have hnone {m : Machine L} (hsize : m.snapshots.size = 0) : m.giveUp = .done none m.failures := by
    simp only [Machine.giveUp, Machine.backtrack, hsize, Machine.backtrackIn]
  rw [hnone spent.size, hnone spent.size']
  exact .ok .none

variable {snapshots snapshots' : Array Snapshot}

theorem LeadBack.spent (h : t.LeadBack L snapshots snapshots') {spent spent' : Array Snapshot}
    (hspent : Snapshot.SpentBoth snapshots snapshots' spent spent') : t.LeadBack L spent spent' :=
  fun m m' keep hm => h m m' keep (hspent.trans hm)

/-- A snapshot may be saved when the searches come to the same from what it leads to. -/
theorem LeadBack.push (h : t.LeadBack L snapshots snapshots')
    (hsize : snapshots'.size = snapshots.size) {snapshot snapshot' : Snapshot}
    (hnext : ∀ m m' : Machine L, m.Keep t.env m' →
      Snapshot.SpentBoth snapshots snapshots' m.snapshots m'.snapshots →
        Option.Rel t.Echo (m.resume snapshot) (m'.resume snapshot')) :
    t.LeadBack L (snapshots.push snapshot) (snapshots'.push snapshot') := by
  intro m m' keep hspent
  obtain ⟨earlier, newest, earlier', newest', hm, hm', hearlier, hnewest⟩ := hspent.of_push hsize
  have hback := Machine.backtrack_push m earlier newest
  have hback' := Machine.backtrack_push m' earlier' newest'
  rw [← hm] at hback
  rw [← hm'] at hback'
  have keep' : Machine.Keep t.env { m with snapshots := earlier }
      { m' with snapshots := earlier' } := ⟨keep.same, keep.stay⟩
  have hgiveUp := h { m with snapshots := earlier } { m' with snapshots := earlier' } keep' hearlier
  have hresume : Option.Rel t.Echo (Machine.resume { m with snapshots := earlier } newest)
      (Machine.resume { m' with snapshots := earlier' } newest') := by
    rcases hnewest with ⟨rfl, rfl⟩ | ⟨hdead, hdead'⟩
    · exact hnext _ _ keep' hearlier
    · rw [Machine.resume_of_isDead hdead, Machine.resume_of_isDead hdead']
      exact .none
  have hgo {m : Machine L} {snapshots : Array Snapshot} {next : Option (Machine L)}
      (heq : m.backtrack = next.or (Machine.backtrack { m with snapshots })) :
      m.giveUp = next.elim (Machine.giveUp { m with snapshots }) .next := by
    simp only [Machine.giveUp]
    rw [heq]
    cases next with
    | none => simp only [Option.none_or, Option.elim]
    | some next => simp only [Option.some_or, Option.elim]
  rw [hgo hback, hgo hback']
  generalize Machine.resume { m with snapshots := earlier } newest = next at hresume ⊢
  generalize Machine.resume { m' with snapshots := earlier' } newest' = next' at hresume ⊢
  cases hresume with
  | none => exact hgiveUp
  | some hecho => exact hecho

end Twins

/-! ## Repeats -/

namespace Quantifier.Restated

variable {q q' : Quantifier} (h : q.Restated q')
include h

theorem lower : q'.lower = q.lower := by
  rcases h with rfl | ⟨hq, hq'⟩
  · rfl
  · simp only [isOne, Bool.and_eq_true, beq_iff_eq] at hq hq'
    rw [hq.1, hq'.1]

theorem upper : q'.upper = q.upper := by
  rcases h with rfl | ⟨hq, hq'⟩
  · rfl
  · simp only [isOne, Bool.and_eq_true, beq_iff_eq] at hq hq'
    rw [hq.2, hq'.2]

theorem isZero : q'.isZero = q.isZero := by
  simp only [Quantifier.isZero, h.lower, h.upper]

theorem isFull (repeats : Nat) : q'.isFull repeats = q.isFull repeats := by
  simp only [Quantifier.isFull, h.upper]

/-- Where the greediness differs, there is only one repeat: it is asked for, or it was before. -/
theorem isFull_or_lt (hne : q' ≠ q) (repeats : Nat) :
    q.isFull repeats = true ∨ repeats < q.lower := by
  rcases h with rfl | ⟨hq, _⟩
  · exact absurd rfl hne
  · simp only [isOne, Bool.and_eq_true, beq_iff_eq] at hq
    simp only [Quantifier.isFull, hq.1, hq.2, decide_eq_true_eq]
    omega

end Quantifier.Restated

/-! ## States -/

/-- What a session of each search has left to match, and where both were opened. -/
structure Left where
  first : List Entry
  second : List Entry
  start : Nat

/-- The current entries are not repeated alike. -/
def Left.Differ (left : Left) : Prop :=
  ∃ e es e' es', left.first = e :: es ∧ left.second = e' :: es' ∧ e'.quantifier ≠ e.quantifier

/-- The same session but for what is left to match and for nodes without names. -/
structure Session.Echoes (left : Left) (session session' : Session) : Prop where
  rest : session.rest = left.first
  rest' : session'.rest = left.second
  start : session.start = left.start
  start' : session'.start = left.start
  repeats : session'.repeats = session.repeats
  marks : session'.nodes.marks = session.nodes.marks
  barrier : session'.barrier = session.barrier
  use : session.use = none
  use' : session'.use = none

/-- Sessions of both searches, the innermost first. Where the entries around a session are not
repeated alike, there is nothing left to try at the snapshots saved when it was opened. -/
inductive Session.AllEcho (snapshots snapshots' : Array Snapshot) :
    List Left → List Session → List Session → Prop
  | nil : AllEcho snapshots snapshots' [] [] []
  | cons {left : Left} {lefts : List Left} {session session' : Session}
    {sessions sessions' : List Session} (h : session.Echoes left session')
    (hshut : ∀ parent ∈ lefts.head?, parent.Differ → ∀ place, session.barrier = some place →
      Snapshot.DeadAt snapshots place ∧ Snapshot.DeadAt snapshots' place)
    (hbelow : AllEcho snapshots snapshots' lefts sessions sessions') :
    AllEcho snapshots snapshots' (left :: lefts) (session :: sessions) (session' :: sessions')

namespace Session.AllEcho

variable {snapshots snapshots' : Array Snapshot} {lefts : List Left}
  {sessions sessions' : List Session}

theorem mono (h : Session.AllEcho snapshots snapshots' lefts sessions sessions')
    {later later' : Array Snapshot} (hdead : ∀ place, Snapshot.DeadAt snapshots place ∧
      Snapshot.DeadAt snapshots' place → Snapshot.DeadAt later place ∧
        Snapshot.DeadAt later' place) :
    Session.AllEcho later later' lefts sessions sessions' := by
  induction h with
  | nil => exact .nil
  | cons h hshut _ ih =>
    exact .cons h (fun parent hparent hdiffer place hplace =>
      hdead place (hshut parent hparent hdiffer place hplace)) ih

theorem marks (h : Session.AllEcho snapshots snapshots' lefts sessions sessions') :
    (sessions'.map Session.nodes).map Trail.marks =
      (sessions.map Session.nodes).map Trail.marks := by
  induction h with
  | nil => rfl
  | cons h _ _ ih => simp only [List.map_cons, h.marks, ih]

end Session.AllEcho

/-- What is dead stays dead when a snapshot is saved. -/
theorem Snapshot.DeadAt.push {snapshots : Array Snapshot} {place : Nat}
    (h : Snapshot.DeadAt snapshots place) (snapshot : Snapshot) :
    Snapshot.DeadAt (snapshots.push snapshot) place := by
  obtain ⟨dead, hplace, hdead⟩ := h
  have hlt : place < snapshots.size := (Array.getElem?_eq_some_iff.mp hplace).1
  refine ⟨dead, ?_, hdead⟩
  rw [Array.getElem?_push, if_neg (Nat.ne_of_lt hlt), hplace]

namespace Twins

/-- States of both searches with the same to fall back on. -/
structure Backs (t : Twins) (m m' : Machine L) : Prop extends m.Keep t.env m' where
  size : m'.snapshots.size = m.snapshots.size
  back : t.LeadBack L m.snapshots m'.snapshots

/-- States of both searches in their midst, by what is left to match, the offset, the repeats of the
current entries, and whether these have to match once more. -/
structure Stands (t : Twins) (lefts : List Left) (offset repeats : Nat) (forced : Bool)
    (m m' : Machine L) : Prop extends t.Backs m m' where
  within : offset ≤ t.setting.text.size
  sessions : Session.AllEcho m.snapshots m'.snapshots lefts m.sessions m'.sessions
  repeated : ∀ top ∈ m.sessions.head?, top.repeats = repeats
  offset_eq : m.offset = offset
  offset_eq' : m'.offset = offset
  forced_eq : m.forced = forced
  forced_eq' : m'.forced = forced

/-- From all such states both searches come to the same. -/
def Proceeds (L : Type) [FailureLog L] (t : Twins) (lefts : List Left) (offset repeats : Nat)
    (forced : Bool) : Prop :=
  ∀ m m' : Machine L, t.Stands lefts offset repeats forced m m' → t.Echo m m'

section

variable {m m' : Machine L} {left : Left} {lefts : List Left} {offset repeats : Nat} {forced : Bool}

theorem Backs.record (h : t.Backs m m') (failures failures' : L) :
    t.Backs (m.record failures) (m'.record failures') :=
  ⟨⟨h.same, h.stay⟩, h.size, h.back⟩

theorem Backs.giveUp (h : t.Backs m m') : t.StepsEcho m.giveUp m'.giveUp :=
  h.back m m' h.toKeep (.refl _ _)

namespace Stands

/-- The settings around the current entries echo each other. -/
theorem inner (h : t.Stands lefts offset repeats forced m m') :
    (m.inner t.setting).Echoes t.env (m'.inner t.setting') := by
  refine ⟨t.echoes.types, t.echoes.types', t.echoes.standard, t.echoes.standard', t.echoes.text, ?_⟩
  simp only [Machine.inner, Machine.scopes, List.map_append, h.sessions.marks, t.echoes.outer]

theorem top (h : t.Stands (left :: lefts) offset repeats forced m m') :
    ∃ top below top' below', m.sessions = top :: below ∧ m'.sessions = top' :: below' ∧
      top.Echoes left top' ∧ top.repeats = repeats ∧
        Session.AllEcho m.snapshots m'.snapshots lefts below below' := by
  have hsessions := h.sessions
  have hrepeats := h.repeated
  cases hm : m.sessions with
  | nil =>
    rw [hm] at hsessions
    cases hsessions
  | cons top below =>
    rw [hm] at hsessions hrepeats
    generalize m'.sessions = sessions' at hsessions ⊢
    cases hsessions with
    | cons htop _ hbelow => exact ⟨top, below, _, _, rfl, rfl, htop, hrepeats top rfl, hbelow⟩

/-- The same states with other failures, and with checkers that were asked for since. -/
theorem after (h : t.Stands lefts offset repeats forced m m') {next next' : Machine L}
    (keep : next.Keep t.env next') (hsessions : next.sessions = m.sessions)
    (hsessions' : next'.sessions = m'.sessions) (hsnapshots : next.snapshots = m.snapshots)
    (hsnapshots' : next'.snapshots = m'.snapshots) (hoffset : next.offset = m.offset)
    (hoffset' : next'.offset = m'.offset) (hforced : next.forced = m.forced)
    (hforced' : next'.forced = m'.forced) : t.Stands lefts offset repeats forced next next' := by
  refine ⟨⟨keep, ?_, ?_⟩, h.within, ?_, ?_, hoffset.trans h.offset_eq, hoffset'.trans h.offset_eq',
    hforced.trans h.forced_eq, hforced'.trans h.forced_eq'⟩
  · rw [hsnapshots, hsnapshots', h.size]
  · rw [hsnapshots, hsnapshots']
    exact h.back
  · rw [hsnapshots, hsnapshots', hsessions, hsessions']
    exact h.sessions
  · rw [hsessions]
    exact h.repeated

variable {e e' : Entry} {rest rest' : List Entry} {opened : Nat}

theorem advance
    (h : t.Stands (⟨e :: rest, e' :: rest', opened⟩ :: lefts) offset repeats forced m m') :
    t.Stands (⟨rest, rest', opened⟩ :: lefts) offset 0 false m.advance m'.advance := by
  obtain ⟨top, below, top', below', hm, hm', htop, _, _⟩ := h.top
  have hsessions := h.sessions
  rw [hm, hm'] at hsessions
  cases hsessions with
  | cons _ hshut hbelow =>
    simp only [Machine.advance, hm, hm']
    refine ⟨⟨⟨h.same, h.stay⟩, h.size, h.back⟩, h.within, .cons ?_ hshut hbelow, ?_, h.offset_eq,
      h.offset_eq', rfl, rfl⟩
    · exact ⟨congrArg List.tail htop.rest, congrArg List.tail htop.rest', htop.start, htop.start',
        rfl, htop.marks, htop.barrier, htop.use, htop.use'⟩
    · intro _ hhead
      obtain rfl := Option.some.inj hhead
      rfl

/-- States like those that were saved. -/
theorem again (h : t.Stands lefts offset repeats forced m m') {back back' : Machine L}
    (keep : back.Keep t.env back')
    (spent : Snapshot.SpentBoth m.snapshots m'.snapshots back.snapshots back'.snapshots)
    (forced' : Bool) : t.Stands lefts offset repeats forced'
      { back with sessions := m.sessions, offset := m.offset, forced := forced' }
      { back' with sessions := m'.sessions, offset := m'.offset, forced := forced' } :=
  ⟨⟨⟨keep.same, keep.stay⟩, (spent.size'.trans h.size).trans spent.size.symm, h.back.spent spent⟩,
    h.within, h.sessions.mono fun _ => spent.dead, h.repeated, h.offset_eq, h.offset_eq', rfl, rfl⟩

theorem save (h : t.Stands lefts offset repeats forced m m') (action : Action)
    (hnext : ∀ back back' : Machine L, back.Keep t.env back' →
      Snapshot.SpentBoth m.snapshots m'.snapshots back.snapshots back'.snapshots →
        Option.Rel t.Echo (back.resume ⟨m.sessions, m.offset, m.forced, action⟩)
          (back'.resume ⟨m'.sessions, m'.offset, m'.forced, action⟩)) :
    t.Stands lefts offset repeats forced (m.save action) (m'.save action) := by
  refine ⟨⟨⟨h.same, h.stay⟩, ?_, h.back.push h.size hnext⟩, h.within, ?_, h.repeated, h.offset_eq,
    h.offset_eq', h.forced_eq, h.forced_eq'⟩
  · simp only [Machine.save, Array.size_push, h.size]
  · exact h.sessions.mono fun place hdead => ⟨hdead.1.push _, hdead.2.push _⟩

section

variable (h : t.Stands (⟨e :: rest, e' :: rest', opened⟩ :: lefts) offset repeats forced m m')
include h

/-- To pass over an entry later is to go on after it. -/
theorem savePassOver (hlower : e'.quantifier.lower = e.quantifier.lower)
    (hnext : t.Proceeds L (⟨rest, rest', opened⟩ :: lefts) offset 0 false) :
    t.Stands (⟨e :: rest, e' :: rest', opened⟩ :: lefts) offset repeats forced (m.save .passOver)
      (m'.save .passOver) := by
  obtain ⟨top, below, top', below', hm, hm', htop, _, _⟩ := h.top
  refine h.save .passOver fun back back' keep spent => ?_
  rw [back.resume_passOver hm htop.rest, back'.resume_passOver hm' htop.rest', htop.repeats, hlower,
    h.forced_eq, h.forced_eq', h.offset_eq, h.offset_eq']
  split
  · exact .none
  · have hagain := h.again keep spent forced
    rw [h.offset_eq, h.offset_eq'] at hagain
    exact .some (hnext _ _ hagain.advance)

/-- To ask for one repeat more later is to be back at the entry. -/
theorem saveOneMore (hforced : t.Proceeds L (⟨e :: rest, e' :: rest', opened⟩ :: lefts) offset
      repeats true) :
    t.Stands (⟨e :: rest, e' :: rest', opened⟩ :: lefts) offset repeats forced (m.save .oneMore)
      (m'.save .oneMore) :=
  h.save .oneMore fun _ _ keep spent => .some (hforced _ _ (h.again keep spent true))

/-- Nothing is left to try where an entry that has to be matched was to be passed over. -/
theorem dead_of_lower (hlower : e'.quantifier.lower = e.quantifier.lower)
    (hmust : forced = true ∨ repeats < e.quantifier.lower) :
    Snapshot.DeadAt (m.save .passOver).snapshots m.snapshots.size ∧
      Snapshot.DeadAt (m'.save .passOver).snapshots m.snapshots.size := by
  obtain ⟨top, below, top', below', hm, hm', htop, hrepeats, _⟩ := h.top
  have hmust' : (forced || decide (repeats < e.quantifier.lower)) = true := by
    simpa only [Bool.or_eq_true, decide_eq_true_eq] using hmust
  constructor
  · refine ⟨_, Array.getElem?_push_size, .inr ⟨rfl, fun other _ f fs heq hrest => ?_⟩⟩
    obtain rfl : top = other := (List.cons.inj (hm.symm.trans heq)).1
    obtain rfl : e = f := (List.cons.inj (htop.rest.symm.trans hrest)).1
    simpa only [h.forced_eq, hrepeats] using hmust'
  · rw [← h.size]
    refine ⟨_, Array.getElem?_push_size, .inr ⟨rfl, fun other _ f fs heq hrest => ?_⟩⟩
    obtain rfl : top' = other := (List.cons.inj (hm'.symm.trans heq)).1
    obtain rfl : e' = f := (List.cons.inj (htop.rest'.symm.trans hrest)).1
    simpa only [h.forced_eq', htop.repeats, hrepeats, hlower] using hmust'

/-- Into nested grammars, with the way around them saved. -/
theorem enter (hlower : e'.quantifier.lower = e.quantifier.lower)
    (hnext : t.Proceeds L (⟨rest, rest', opened⟩ :: lefts) offset 0 false)
    (hmust : e'.quantifier ≠ e.quantifier → forced = true ∨ repeats < e.quantifier.lower)
    (g g' : Grammar) : t.Stands
      (⟨g.entries, g'.entries, offset⟩ :: ⟨e :: rest, e' :: rest', opened⟩ :: lefts) offset 0 false
      (m.enter g none) (m'.enter g' none) := by
  have hsave := h.savePassOver hlower hnext
  refine ⟨⟨⟨h.same, h.stay⟩, hsave.size, hsave.back⟩, h.within, .cons ?_ ?_ hsave.sessions, ?_,
    h.offset_eq, h.offset_eq', rfl, rfl⟩
  · exact ⟨rfl, rfl, h.offset_eq, h.offset_eq', rfl, rfl, congrArg some h.size, rfl, rfl⟩
  · intro parent hparent hdiffer place hplace
    obtain rfl := Option.some.inj hparent
    obtain rfl := Option.some.inj hplace
    obtain ⟨f, fs, f', fs', heq, heq', hne⟩ := hdiffer
    obtain rfl : e = f := (List.cons.inj heq).1
    obtain rfl : e' = f' := (List.cons.inj heq').1
    exact h.dead_of_lower hlower (hmust hne)
  · intro _ hhead
    obtain rfl := Option.some.inj hhead
    rfl

end

/-- After a repeat both searches go on after the entry if the repeat is empty, and are back at the
entry further into the text if it is not. -/
theorem accept (h : t.Stands (⟨e :: rest, e' :: rest', opened⟩ :: lefts) offset repeats forced m m')
    {from_ stop : Nat} {nodes nodes' : List Node} (hle : from_ ≤ stop)
    (hsize : stop ≤ t.setting.text.size) (hnodes : Node.SameMarks nodes nodes')
    (hnext : t.Proceeds L (⟨rest, rest', opened⟩ :: lefts) from_ 0 false)
    (hagain : ∀ stop repeats, from_ < stop →
      t.Proceeds L (⟨e :: rest, e' :: rest', opened⟩ :: lefts) stop repeats false) :
    t.Echo (m.accept from_ stop nodes) (m'.accept from_ stop nodes') := by
  obtain ⟨top, below, top', below', hm, hm', htop, hrepeats, _⟩ := h.top
  have hsessions := h.sessions
  rw [hm, hm'] at hsessions
  cases hsessions with
  | cons _ hshut hbelow =>
    -- The states with the repeat, before it is known whether the entry is at its end.
    have hmore : t.Stands (⟨e :: rest, e' :: rest', opened⟩ :: lefts) stop (repeats + 1) false
        { m with
          sessions :=
            { top with nodes := top.nodes.pushAll nodes, repeats := top.repeats + 1 } :: below
          offset := stop, forced := false }
        { m' with
          sessions :=
            { top' with nodes := top'.nodes.pushAll nodes', repeats := top'.repeats + 1 } :: below'
          offset := stop, forced := false } := by
      refine ⟨⟨⟨h.same, h.stay⟩, h.size, h.back⟩, hsize, .cons ?_ hshut hbelow, ?_, rfl, rfl, rfl,
        rfl⟩
      · refine ⟨htop.rest, htop.rest', htop.start, htop.start', congrArg (· + 1) htop.repeats, ?_,
          htop.barrier, htop.use, htop.use'⟩
        simp only [Trail.marks_pushAll, htop.marks]
        rw [hnodes]
      · intro _ hhead
        obtain rfl := Option.some.inj hhead
        exact congrArg (· + 1) hrepeats
    rcases Nat.eq_or_lt_of_le hle with rfl | hlt
    · simp only [Machine.accept, hm, hm', beq_self_eq_true, if_true]
      exact hnext _ _ hmore.advance
    · simp only [Machine.accept, hm, hm', beq_eq_false_iff_ne.mpr (Nat.ne_of_lt hlt),
        Bool.false_eq_true, if_false]
      exact hagain stop _ hlt _ _ hmore

end Stands

end

end Twins

/-! ## Attempts -/

/-- Both times the type gives the same checker, or the same error, and lets matches stand alike. -/
def TypeEnv.AnswersAlike (L : Type) [FailureLog L] (env : TypeEnv) (r : TypeRef) : Prop :=
  ∀ type, env.find? r.name = some type → type.SeesMarks ∧
    ∀ host host' : Host, host.Echoes host' →
      (∃ c, env.supply host r.param type = .ok (.ok c) ∧
        env.supply host' r.param type = .ok (.ok c) ∧ c.Stays L env) ∨
      ∃ error, env.supply host r.param type = .ok (.error error) ∧
        env.supply host' r.param type = .ok (.error error)

/-- What both entries are matched with: checkers that are matched at once, grammars that may be
walked, or a type they refer to. -/
inductive Target.Echoes (L : Type) [FailureLog L] (env : TypeEnv)
    (own : Grammar → Grammar → Prop) : Target → Target → Prop
  | closed {c c' : Checker} (h : c.Echoes L env c')
    (hc : ∀ g, c = .grammar g → Strategy.standard.opens g = false)
    (hc' : ∀ g, c' = .grammar g → Strategy.standard.opens g = false) :
    Echoes L env own (.checker c) (.checker c')
  | walked {g g' : Grammar} (h : g.Echoes L env g')
    (hopens : Strategy.standard.opens g' = Strategy.standard.opens g) (hown : own g g') :
    Echoes L env own (.checker (.grammar g)) (.checker (.grammar g'))
  | ref {r : TypeRef} (h : env.AnswersAlike L r) : Echoes L env own (.ref r) (.ref r)

/-- Both attempts match as much, or open grammars that belong together, or both fail. -/
inductive Attempt.Echoes (offset size : Nat) (own : Grammar → Grammar → Prop) :
    Attempt → Attempt → Prop
  | matched {stop : Nat} {nodes nodes' : List Node} (hnodes : Node.SameMarks nodes nodes')
    (hle : offset ≤ stop) (hsize : stop ≤ size) :
    Echoes offset size own (.matched stop nodes) (.matched stop nodes')
  | opens {g g' : Grammar} (hown : own g g') :
    Echoes offset size own (.opens g none) (.opens g' none)
  | failed : Echoes offset size own .failed .failed

namespace Twins

/-- What the attempts leave: states that stand as before, and what they come to. -/
def Tried (t : Twins) (lefts : List Left) (offset repeats : Nat) (forced : Bool)
    (own : Grammar → Grammar → Prop) (r r' : Machine L × Attempt) : Prop :=
  t.Stands lefts offset repeats forced r.1 r'.1 ∧
    r.2.Echoes offset t.setting.text.size own r'.2

variable {m m' : Machine L} {lefts : List Left} {offset repeats : Nat} {forced : Bool}
  {e e' : Entry} {own : Grammar → Grammar → Prop}

theorem Stands.record (h : t.Stands lefts offset repeats forced m m') (failures failures' : L) :
    t.Stands lefts offset repeats forced (m.record failures) (m'.record failures') :=
  h.after ⟨h.same, h.stay⟩ rfl rfl rfl rfl rfl rfl rfl rfl

theorem matchChecker_tried (h : t.Stands lefts offset repeats forced m m')
    (he : e.Echoes L t.env e') {c c' : Checker} (hc : c.Echoes L t.env c') {use : Option TypeUse}
    (huse : ∀ u, use = some u → u.type.SeesMarks) :
    BothEnd Stop.SameRefusal (t.Tried lefts offset repeats forced own)
      (fun fuel => m.matchChecker (runWithin fuel) t.setting e c use)
      fun fuel => m'.matchChecker (runWithin fuel) t.setting' e' c' use := by
  simp only [Machine.matchChecker, h.offset_eq, h.offset_eq']
  refine (hc.found h.inner h.within).bind fun seen seen' hseen => ?_
  obtain ⟨value, failures⟩ := seen
  obtain ⟨value', failures'⟩ := seen'
  cases hseen with
  | none => exact .ok ⟨h.record _ _, .failed⟩
  | @some found found' hfound =>
    have hoffset : (m.record failures).offset = offset := h.offset_eq
    have hoffset' : (m'.record failures').offset = offset := h.offset_eq'
    simp only [hoffset, hoffset']
    refine (Entry.complete_echoes he h.inner hfound huse).bind fun completed completed' hdone => ?_
    obtain ⟨nodes, later⟩ := completed
    obtain ⟨nodes', later'⟩ := completed'
    cases hdone with
    | none => exact .ok ⟨(h.record _ _).record _ _, .failed⟩
    | some hnodes =>
      simp only [hfound.stop]
      exact .ok ⟨(h.record _ _).record _ _, .matched hnodes hfound.start_le hfound.le_size⟩

/-- A checker that is not walked. -/
theorem attemptChecker_tried (h : t.Stands lefts offset repeats forced m m')
    (he : e.Echoes L t.env e') {c c' : Checker} (hc : c.Echoes L t.env c')
    (hclosed : ∀ g, c = .grammar g → Strategy.standard.opens g = false)
    (hclosed' : ∀ g, c' = .grammar g → Strategy.standard.opens g = false) {use : Option TypeUse}
    (huse : ∀ u, use = some u → u.type.SeesMarks) :
    BothEnd Stop.SameRefusal (t.Tried lefts offset repeats forced own)
      (fun fuel => m.attemptChecker (runWithin fuel) t.setting e c use)
      fun fuel => m'.attemptChecker (runWithin fuel) t.setting' e' c' use := by
  have hatOnce {setting : Setting} (hstandard : setting.strategy = .standard) {m : Machine L}
      {e : Entry} {c : Checker} (hc : ∀ g, c = .grammar g → Strategy.standard.opens g = false)
      (run : Runner L) :
      m.attemptChecker run setting e c use = m.matchChecker run setting e c use := by
    cases c with
    | grammar g =>
      simp only [Machine.attemptChecker, hstandard, hc g rfl, Bool.false_eq_true, if_false]
    | _ => rfl
  simp only [hatOnce t.echoes.standard hclosed, hatOnce t.echoes.standard' hclosed']
  exact matchChecker_tried h he hc huse

/-- The type is asked, or gave its checker before, in both searches alike. -/
theorem checkerOf_tried (h : t.Stands lefts offset repeats forced m m') {use : TypeUse}
    (hsupply : ∀ host host' : Host, host.Echoes host' →
      (∃ c, t.env.supply host use.param use.type = .ok (.ok c) ∧
        t.env.supply host' use.param use.type = .ok (.ok c) ∧ c.Stays L t.env) ∨
      ∃ error, t.env.supply host use.param use.type = .ok (.error error) ∧
        t.env.supply host' use.param use.type = .ok (.error error)) :
    BothEnd Stop.SameRefusal (fun r r' => t.Stands lefts offset repeats forced r.1 r'.1 ∧
      r'.2 = r.2 ∧ r.2.Stays L t.env)
      (fun _ => m.checkerOf t.setting use) fun _ => m'.checkerOf t.setting' use := by
  simp only [Machine.checkerOf, t.echoes.types, t.echoes.types', t.echoes.standard,
    t.echoes.standard', h.same]
  generalize hkeeps : (Strategy.standard.keepsCheckers && !use.type.hostDependent) = keeps
  cases hlookup : (if keeps = true then m.checkers.lookup (use.type.name, use.param) else none) with
  | some c =>
    refine .ok ⟨h, rfl, ?_⟩
    split at hlookup
    · obtain ⟨before, after, hl, _⟩ := List.lookup_eq_some_iff.mp hlookup
      exact h.stay _ (hl ▸ List.mem_append_right before List.mem_cons_self)
    · cases hlookup
  | none =>
    have hhost : Host.Echoes ⟨t.setting.text, m.offset, (m.inner t.setting).outer⟩
        ⟨t.setting'.text, m'.offset, (m'.inner t.setting').outer⟩ :=
      ⟨t.echoes.text, h.offset_eq'.trans h.offset_eq.symm, h.inner.outer⟩
    rcases hsupply _ _ hhost with ⟨c, hc, hc', hstays⟩ | ⟨error, herror, herror'⟩
    · simp only [hc, hc']
      refine .ok ⟨?_, rfl, hstays⟩
      split
      · exact h.after ⟨rfl, List.forall_mem_cons.mpr ⟨hstays, h.stay⟩⟩
          rfl rfl rfl rfl rfl rfl rfl rfl
      · exact h
    · simp only [herror, herror']
      exact .refused _

/-- **Attempts at entries that echo each other come to the same.** -/
theorem attempt_tried (h : t.Stands lefts offset repeats forced m m') (he : e.Echoes L t.env e')
    (htarget : e.target.Echoes L t.env own e'.target) :
    BothEnd Stop.SameRefusal (t.Tried lefts offset repeats forced own)
      (fun fuel => m.attempt (runWithin fuel) t.setting e)
      fun fuel => m'.attempt (runWithin fuel) t.setting' e' := by
  simp only [Machine.attempt]
  generalize e.target = target at htarget ⊢
  generalize e'.target = target' at htarget ⊢
  cases htarget with
  | closed hc hclosed hclosed' =>
    exact attemptChecker_tried h he hc hclosed hclosed' fun _ hu => by cases hu
  | @walked g g' hg hopens hown =>
    cases hopen : Strategy.standard.opens g with
    | true =>
      rw [hopen] at hopens
      simp only [Machine.attemptChecker, t.echoes.standard, t.echoes.standard', hopen, hopens,
        if_true]
      exact .ok ⟨h, .opens hown⟩
    | false =>
      rw [hopen] at hopens
      exact attemptChecker_tried h he (.grammar hg) (fun _ heq => Checker.grammar.inj heq ▸ hopen)
        (fun _ heq => Checker.grammar.inj heq ▸ hopens) fun _ hu => by cases hu
  | @ref r hanswers =>
    simp only [t.echoes.types, t.echoes.types']
    cases hfind : t.env.find? r.name with
    | none =>
      simp only [h.offset_eq, h.offset_eq']
      exact .refused _
    | some type =>
      obtain ⟨hsees, hsupply⟩ := hanswers type hfind
      simp only [Machine.attemptType]
      have hasked : BothEnd Stop.SameRefusal
          (fun r r' => t.Stands lefts offset repeats forced r.1 r'.1 ∧ r'.2 = r.2 ∧
            r.2.Stays L t.env) (fun _ => m.checkerOf t.setting ⟨type, r.param⟩)
          fun _ => m'.checkerOf t.setting' ⟨type, r.param⟩ := checkerOf_tried h hsupply
      refine hasked.bind fun _ _ hgiven => ?_
      obtain ⟨hstands, hsame, hstays⟩ := hgiven
      rw [hsame]
      exact attemptChecker_tried hstands he hstays.echoes hstays.closed hstays.closed fun u hu => by
        obtain rfl := Option.some.inj hu
        exact hsees

end Twins

end TextGrammar
