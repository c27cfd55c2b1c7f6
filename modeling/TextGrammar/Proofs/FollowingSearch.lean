/-
A search that follows another one, step by step. The states of the first are
those of the second at other offsets, with what the first keeps of checkers.
Every step leads both on in the same way, so the two end with the same match or
the same failure, but for the offsets, unless the first ends early.
-/
import TextGrammar.Proofs.Following

namespace TextGrammar

/-! ## States -/

namespace Pairing

variable (p : Pairing)

def SessionsOk (sessions : List Session) : Prop :=
  ∀ session ∈ sessions, (∀ entry ∈ session.rest, p.EntryOk entry) ∧
    ∀ use, session.use = some use → p.UseOk use

/-- The state of a search, and the state of the search it follows. -/
def Beside (n : Nat) (m m' : Machine (Option Failure)) : Prop :=
  ∃ checkers, m = m'.shift n checkers ∧ m'.Holds (fun _ => p.SessionsOk) (p.kept checkers)

/-- What the two ways to search have in common, and that types asked at states that belong together
give the same checker. -/
structure Lawful : Prop extends p.Shared where
  start : p.kept [] []
  asks : ∀ (n : Nat) (setting setting' : Setting) (m m' : Machine (Option Failure)) (use : TypeUse),
    p.Apart n setting setting' → p.Beside n m m' → p.UseOk use →
      p.Stops n (fun a b => p.Beside n a.1 b.1 ∧ a.2 = b.2 ∧ p.CheckerOk b.2)
        (m.checkerOf setting use) (m'.checkerOf setting' use)

variable {p}

theorem sessionsOk_closed : Session.Closed fun _ => p.SessionsOk := by
  intro _ top below h session hsession
  rcases List.mem_cons.mp hsession with rfl | hsession
  · obtain ⟨hrest, huse⟩ := h top List.mem_cons_self
    exact ⟨fun entry hentry => hrest entry (List.mem_of_mem_tail hentry), huse⟩
  · exact h session (List.mem_cons_of_mem _ hsession)

variable {n : Nat} {setting setting' : Setting} {m m' : Machine (Option Failure)}

namespace Beside

theorem offset (h : p.Beside n m m') : m.offset = m'.offset + n := by
  obtain ⟨_, rfl, _⟩ := h
  rfl

theorem forced (h : p.Beside n m m') : m.forced = m'.forced := by
  obtain ⟨_, rfl, _⟩ := h
  rfl

theorem inner (h : p.Beside n m m') (shared : p.Shared) (hs : p.Apart n setting setting') :
    p.Apart n (m.inner setting) (m'.inner setting') := by
  obtain ⟨_, rfl, _⟩ := h
  refine ⟨hs.late, hs.types, hs.types', hs.strategy, hs.strategy', hs.text, ?_⟩
  simp only [Machine.inner, Machine.shift_scopes]
  exact shared.levels m'.scopes hs.outer

theorem advance (h : p.Beside n m m') : p.Beside n m.advance m'.advance := by
  obtain ⟨kept, rfl, holds⟩ := h
  exact ⟨kept, Machine.shift_advance n kept m', holds.advance sessionsOk_closed⟩

theorem accept (h : p.Beside n m m') (start stop : Nat) (nodes : List Node) :
    p.Beside n (m.accept (start + n) (stop + n) (Node.shiftAll n nodes))
      (m'.accept start stop nodes) := by
  obtain ⟨kept, rfl, holds⟩ := h
  refine ⟨kept, Machine.shift_accept n kept m' start stop nodes, ?_⟩
  cases hm : m'.sessions with
  | cons top below =>
    refine holds.toStores.accept sessionsOk_closed hm fun session hsession => ?_
    have hsessions := holds.sessions
    rw [hm] at hsessions
    rcases List.mem_cons.mp hsession with rfl | hsession
    · exact hsessions top List.mem_cons_self
    · exact hsessions session (List.mem_cons_of_mem _ hsession)
  | nil =>
    have hnone : p.SessionsOk [] := fun session hsession => nomatch hsession
    have hnext : Machine.Holds (fun _ => p.SessionsOk) (p.kept kept)
        { m' with sessions := [], offset := stop, forced := false } :=
      ⟨⟨holds.saved, holds.checkers⟩, hnone⟩
    simp only [Machine.accept, hm]
    split
    · exact hnext.advance sessionsOk_closed
    · exact hnext

theorem save (h : p.Beside n m m') (action : Action) :
    p.Beside n (m.save action) (m'.save action) := by
  obtain ⟨kept, rfl, holds⟩ := h
  exact ⟨kept, Machine.shift_save n kept m' action, holds.save action⟩

theorem enter (h : p.Beside n m m') {g : Grammar} (hg : p.GrammarOk g) {use : Option TypeUse}
    (huse : ∀ u, use = some u → p.UseOk u) :
    p.Beside n (m.enter g use) (m'.enter g use) := by
  obtain ⟨kept, rfl, holds⟩ := h
  refine ⟨kept, Machine.shift_enter n kept m' g use, holds.enter fun session hsession => ?_⟩
  rcases List.mem_cons.mp hsession with rfl | hsession
  · cases g
    exact ⟨Entry.EveryOf.each hg, huse⟩
  · exact holds.sessions session hsession

theorem record (h : p.Beside n m m') (failures : Option Failure) :
    p.Beside n (m.record (failures.map (Failure.shift n))) (m'.record failures) := by
  obtain ⟨kept, rfl, holds⟩ := h
  exact ⟨kept, Machine.shift_record n kept m' failures, holds.toStores.record failures,
    holds.sessions⟩

theorem fail (h : p.Beside n m m') (offset : Nat) (expected : Expectation) (repeats : Nat) :
    p.Beside n (m.fail (offset + n) expected repeats) (m'.fail offset expected repeats) :=
  h.record (some ⟨offset, expected, repeats⟩)

theorem close (h : p.Beside n m m') (barrier : Option Nat) :
    p.Beside n (m.close barrier) (m'.close barrier) := by
  obtain ⟨kept, rfl, holds⟩ := h
  refine ⟨kept, Machine.shift_close n kept m' barrier, holds.toStores.close barrier, ?_⟩
  cases barrier <;> exact holds.sessions

theorem closing (h : p.Beside n m m') (closes : Prop) [Decidable closes] (barrier : Option Nat) :
    p.Beside n (if closes then m.close barrier else m)
      (if closes then m'.close barrier else m') := by
  split
  · exact h.close barrier
  · exact h

end Beside

/-- Both searches keep the same checkers. -/
def SameKept (checkerOk : Checker → Prop)
    (kept kept' : List ((String × Option String) × Checker)) : Prop :=
  kept = kept' ∧ ∀ key c, kept'.lookup key = some c → checkerOk c

/-- Searches that keep the same checkers, as long as types give both the same. -/
theorem Shared.lawful (shared : p.Shared) (hstrategy : p.strategy = p.strategy')
    (hkept : p.kept = SameKept p.CheckerOk)
    (hgiven : ∀ (use : TypeUse) (host : Host) (c : Checker), p.UseOk use →
      p.types'.supply host use.param use.type = .ok (.ok c) → p.CheckerOk c)
    (hsupply : ∀ (n : Nat) (use : TypeUse) (text tail : Text) (offset : Nat)
      (outer outer' : List Trail), p.late n → p.UseOk use → Text.Tail n text tail →
      p.around n outer outer' →
        p.Faults Eq (p.types.supply ⟨text, offset + n, outer⟩ use.param use.type)
          (p.types'.supply ⟨tail, offset, outer'⟩ use.param use.type)) : p.Lawful where
  toShared := shared
  start := by
    rw [hkept]
    exact ⟨rfl, fun _ _ hlookup => nomatch hlookup⟩
  asks := by
    intro n setting setting' m m' use hs hbeside huse
    have houter := (hbeside.inner shared hs).outer
    obtain ⟨kept, rfl, holds⟩ := hbeside
    have hsame := holds.checkers
    rw [hkept] at hsame
    obtain ⟨rfl, hlooked⟩ := hsame
    have hkeeps : setting.strategy.keepsCheckers = setting'.strategy.keepsCheckers := by
      rw [hs.strategy, hs.strategy', hstrategy]
    simp only [Machine.checkerOf, hkeeps, Machine.shift_checkers, Machine.shift_offset]
    generalize (setting'.strategy.keepsCheckers && !use.type.hostDependent) = keeps
    cases hlookup : (if keeps = true then m'.checkers.lookup (use.type.name, use.param) else none)
      with
    | some c =>
      refine .ok ⟨⟨_, rfl, holds⟩, rfl, hlooked (use.type.name, use.param) c ?_⟩
      split at hlookup
      · exact hlookup
      · cases hlookup
    | none =>
      have hfollows := hsupply n use setting.text setting'.text m'.offset _ _ hs.late huse hs.text
        houter
      rw [← hs.types, ← hs.types'] at hfollows
      simp only
      generalize setting.types.supply _ use.param use.type = x at hfollows ⊢
      generalize hy : setting'.types.supply _ use.param use.type = y at hfollows ⊢
      cases hfollows with
      | early h => exact .early h
      | error h =>
        obtain ⟨rfl, hcommon⟩ := h
        exact .error (.fault _ hcommon)
      | ok h =>
        next given given' =>
        subst h
        cases given with
        | error e => exact .error (.refused _)
        | ok c =>
          have hc : p.CheckerOk c := hgiven use _ c huse (hs.types' ▸ hy)
          refine .ok ⟨?_, rfl, hc⟩
          cases keeps with
          | false => exact ⟨_, rfl, holds⟩
          | true =>
            refine ⟨_, rfl, ⟨holds.saved, ?_⟩, holds.sessions⟩
            rw [hkept]
            refine ⟨rfl, fun key other hother => ?_⟩
            simp only [if_true, List.lookup_cons] at hother
            split at hother
            · exact Option.some.inj hother ▸ hc
            · exact hlooked key other hother

/-- Both steps lead to states that belong together, or both searches end with the same. -/
def StepsOn (p : Pairing) (n : Nat) : Step (Option Failure) → Step (Option Failure) → Prop
  | .next m, .next m' => p.Beside n m m'
  | .done result failures, .done result' failures' =>
    result = result'.map (Match.shift n) ∧ failures = failures'.map (Failure.shift n)
  | _, _ => False

theorem Beside.giveUp (h : p.Beside n m m') : p.StepsOn n m.giveUp m'.giveUp := by
  obtain ⟨kept, rfl, holds⟩ := h
  have hback := Machine.shift_backtrack n kept m'
  simp only [Machine.giveUp, hback]
  cases hnext : m'.backtrack with
  | none => exact ⟨rfl, rfl⟩
  | some next =>
    exact ⟨kept, rfl, holds.toStores.backtrackIn sessionsOk_closed hnext⟩

end Pairing

/-! ## Attempts -/

/-- What an attempt comes to, at other offsets. -/
def Attempt.shift (n : Nat) : Attempt → Attempt
  | .matched stop nodes => .matched (stop + n) (Node.shiftAll n nodes)
  | .opens g use => .opens g use
  | .failed => .failed

namespace Pairing

variable {p : Pairing} {n : Nat} {setting setting' : Setting} {m m' : Machine (Option Failure)}
  {run run' : Runner (Option Failure)}

/-- A grammar to be walked is one that a search may get to. -/
def AttemptOk (p : Pairing) : Attempt → Prop
  | .opens g use => p.GrammarOk g ∧ ∀ u, use = some u → p.UseOk u
  | .matched _ _ | .failed => True

/-- An attempt follows another one. -/
def Attempts (p : Pairing) (n : Nat) (r r' : Machine (Option Failure) × Attempt) : Prop :=
  p.Beside n r.1 r'.1 ∧ r.2 = r'.2.shift n ∧ p.AttemptOk r'.2

theorem matchChecker_follows (hrun : p.Runs run run') (shared : p.Shared)
    (hs : p.Apart n setting setting') (h : p.Beside n m m') {entry : Entry}
    (hentry : p.EntryOk entry) {c : Checker} (hc : p.CheckerOk c)
    {use : Option TypeUse}
    (huse : ∀ u, use = some u → p.UseOk u) :
    p.Stops n (p.Attempts n) (m.matchChecker run setting entry c use)
      (m'.matchChecker run' setting' entry c use) := by
  have hinner := h.inner shared hs
  have hoffset (failures : Option Failure) : (m.record failures).offset = m'.offset + n := h.offset
  simp only [Machine.matchChecker, h.offset]
  refine (Checker.foundAt_follows hrun shared hinner hc m'.offset).bind fun seen seen' heq => ?_
  subst heq
  obtain ⟨_ | found, failures⟩ := seen'
  · exact .ok ⟨h.record failures, rfl, trivial⟩
  simp only [Seen.shift, Option.map_some, hoffset]
  refine (Entry.complete_follows hrun shared hinner hentry m'.offset found huse).bind
    fun completed completed' heq => ?_
  subst heq
  obtain ⟨_ | nodes, later⟩ := completed'
  · exact .ok ⟨(h.record failures).record later, rfl, trivial⟩
  · exact .ok ⟨(h.record failures).record later, rfl, trivial⟩

theorem attemptChecker_follows (hrun : p.Runs run run') (shared : p.Shared)
    (hs : p.Apart n setting setting') (h : p.Beside n m m') {entry : Entry}
    (hentry : p.EntryOk entry) {c : Checker} (hc : p.CheckerOk c)
    {use : Option TypeUse}
    (huse : ∀ u, use = some u → p.UseOk u) :
    p.Stops n (p.Attempts n) (m.attemptChecker run setting entry c use)
      (m'.attemptChecker run' setting' entry c use) := by
  have hmatch := matchChecker_follows hrun shared hs h hentry hc huse
  cases c with
  | grammar g =>
    simp only [Machine.attemptChecker, hs.strategy, hs.strategy', shared.opens]
    split
    · exact .ok ⟨h, rfl, hc, huse⟩
    · exact hmatch
  | _ => exact hmatch

theorem attemptType_follows (hrun : p.Runs run run') (lawful : p.Lawful)
    (hs : p.Apart n setting setting') (h : p.Beside n m m') {entry : Entry}
    (hentry : p.EntryOk entry) {use : TypeUse} (huse : p.UseOk use) :
    p.Stops n (p.Attempts n) (m.attemptType run setting entry use)
      (m'.attemptType run' setting' entry use) := by
  refine (lawful.asks n setting setting' m m' use hs h huse).bind fun a b hab => ?_
  obtain ⟨hbeside, heq, hc⟩ := hab
  simp only [heq]
  refine attemptChecker_follows hrun lawful.toShared hs hbeside hentry hc fun u hu => ?_
  exact Option.some.inj hu ▸ huse

/-- **An attempt at an entry** comes to the same in both searches. -/
theorem attempt_follows (hrun : p.Runs run run') (lawful : p.Lawful)
    (hs : p.Apart n setting setting') (h : p.Beside n m m') {entry : Entry}
    (hentry : p.EntryOk entry) :
    p.Stops n (p.Attempts n) (m.attempt run setting entry) (m'.attempt run' setting' entry) := by
  have htarget := hentry.target
  have hasks := hentry.entry
  simp only [Machine.attempt]
  cases ht : entry.target with
  | checker c =>
    rw [ht] at htarget
    exact attemptChecker_follows hrun lawful.toShared hs h hentry htarget fun u hu => nomatch hu
  | ref r =>
    simp only [hs.types, hs.types', lawful.find]
    cases hfind : p.types'.find? r.name with
    | none => exact h.offset ▸ .error (.unknown r.name m'.offset)
    | some type =>
      exact attemptType_follows hrun lawful hs h hentry
        ⟨hasks.2 r type ht hfind, lawful.found r.name type hfind⟩
  | type type =>
    rw [ht] at htarget
    exact attemptType_follows hrun lawful hs h hentry ⟨hasks.1 type ht, htarget⟩

/-! ## Steps -/

theorem stepEntry_follows (hrun : p.Runs run run') (lawful : p.Lawful)
    (hs : p.Apart n setting setting') (h : p.Beside n m m') {entry : Entry}
    (hentry : p.EntryOk entry) (repeats : Nat) :
    p.Stops n (p.StepsOn n) (m.stepEntry run setting entry repeats)
      (m'.stepEntry run' setting' entry repeats) := by
  simp only [Machine.stepEntry, h.forced]
  split
  · exact .ok h.advance
  split
  · exact .ok h.advance
  split
  · exact .ok (h.save .oneMore).advance
  refine (attempt_follows hrun lawful hs h hentry).bind fun a b hab => ?_
  obtain ⟨m, result⟩ := a
  obtain ⟨m', result'⟩ := b
  obtain ⟨hbeside, heq, hok⟩ := hab
  simp only at hbeside heq hok
  subst heq
  cases result' with
  | matched stop nodes =>
    simp only [Attempt.shift, hbeside.forced]
    refine .ok ?_
    split
    · have hsave := hbeside.save .passOver
      rw [hsave.offset]
      exact hsave.accept _ stop nodes
    · rw [hbeside.offset]
      exact hbeside.accept _ stop nodes
  | opens g use => exact .ok (hbeside.enter hok.1 hok.2)
  | failed =>
    simp only [Attempt.shift, hbeside.forced]
    split
    · rw [hbeside.offset]
      exact .ok (hbeside.fail m'.offset (.target entry.target) repeats).giveUp
    · exact .ok hbeside.advance

theorem stepOut_follows (hrun : p.Runs run run') (lawful : p.Lawful)
    (hs : p.Apart n setting setting') {checkers : List ((String × Option String) × Checker)}
    (holds : m'.Holds (fun _ => p.SessionsOk) (p.kept checkers)) {finished parent : Session}
    {below : List Session} (hm : m'.sessions = finished :: parent :: below) :
    p.Stops n (p.StepsOn n)
      ((m'.shift n checkers).stepOut run setting (finished.shift n) (parent.shift n)
        (below.map (Session.shift n)))
      (m'.stepOut run' setting' finished parent below) := by
  have hbeside : p.Beside n (m'.shift n checkers) m' := ⟨checkers, rfl, holds⟩
  have hsessions := holds.sessions
  rw [hm] at hsessions
  obtain ⟨entries, repeats, start, nodes, barrier, use⟩ := parent
  cases entries with
  | nil => exact .ok hbeside.giveUp
  | cons entry rest =>
    have hparent := hsessions ⟨entry :: rest, repeats, start, nodes, barrier, use⟩
      (List.mem_cons_of_mem _ List.mem_cons_self)
    have hback : p.Beside n
        { m'.shift n checkers with
          sessions := Session.shift n ⟨entry :: rest, repeats, start, nodes, barrier, use⟩ ::
            below.map (Session.shift n) }
        { m' with sessions := ⟨entry :: rest, repeats, start, nodes, barrier, use⟩ :: below } :=
      ⟨checkers, rfl, ⟨holds.saved, holds.checkers⟩,
        fun session hsession => hsessions session (List.mem_cons_of_mem _ hsession)⟩
    have hout := hback.closing (entry.quantifier.greediness == .possessive) finished.barrier
    simp only [Machine.stepOut, Session.shift] at hout ⊢
    generalize (if (entry.quantifier.greediness == .possessive) = true then Machine.close _ _ else
      ({ m' with sessions := _ } : Machine (Option Failure))) = out' at hout ⊢
    generalize (if (entry.quantifier.greediness == .possessive) = true then Machine.close _ _ else
      ({ m'.shift n checkers with sessions := _ } : Machine (Option Failure))) = out at hout ⊢
    rw [hout.offset, Trail.toList_shift]
    refine (Entry.complete_follows hrun lawful.toShared (hout.inner lawful.toShared hs)
      (hparent.1 entry List.mem_cons_self) finished.start
      ⟨out'.offset, finished.nodes.toList, true⟩
      (hsessions finished List.mem_cons_self).2).bind fun seen seen' heq => ?_
    subst heq
    obtain ⟨_ | nodes, failures⟩ := seen'
    · exact .ok ((hout.record failures).fail _ _ _).giveUp
    · exact .ok ((hout.record failures).accept finished.start out'.offset nodes)

/-- **Each step follows a step** of the other search. -/
theorem step_follows (hrun : p.Runs run run') (lawful : p.Lawful)
    (hs : p.Apart n setting setting') (h : p.Beside n m m') (mode : Mode) :
    p.Stops n (p.StepsOn n) (m.step run setting mode) (m'.step run' setting' mode) := by
  obtain ⟨checkers, rfl, holds⟩ := h
  have hbeside : p.Beside n (m'.shift n checkers) m' := ⟨checkers, rfl, holds⟩
  have hsessions := holds.sessions
  have hshift : (m'.shift n checkers).sessions = m'.sessions.map (Session.shift n) := rfl
  simp only [Machine.step, hshift]
  cases hm : m'.sessions with
  | nil => exact .ok ⟨rfl, rfl⟩
  | cons top below =>
    rw [hm] at hsessions
    have htop := (hsessions top List.mem_cons_self).1
    obtain ⟨entries, repeats, start, nodes, barrier, use⟩ := top
    cases entries with
    | cons entry rest =>
      exact stepEntry_follows hrun lawful hs hbeside (htop entry List.mem_cons_self) repeats
    | nil =>
      cases below with
      | cons parent below => exact stepOut_follows hrun lawful hs holds hm
      | nil =>
        have hend : ((m'.offset + n) != setting.text.size) = (m'.offset != setting'.text.size) := by
          rw [Bool.eq_iff_iff, bne_iff_ne, bne_iff_ne, hs.text.size, ne_eq, ne_eq,
            Nat.add_right_cancel_iff]
        simp only [List.map_cons, List.map_nil, Session.shift, Machine.shift_offset, hend]
        split
        · exact .ok (hbeside.fail m'.offset .endOfInput 0).giveUp
        · refine .ok ⟨?_, rfl⟩
          simp only [Option.map_some, Match.shift, Trail.toList_shift]

/-! ## Runs -/

theorem Lawful.beside_start (lawful : p.Lawful) {g : Grammar} (hg : p.GrammarOk g)
    (offset : Nat) :
    p.Beside n (.start g (offset + n)) (.start g offset) := by
  refine ⟨[], (Machine.shift_start n g offset).symm, ⟨fun _ hmem => ?_, lawful.start⟩, ?_⟩
  · exact absurd hmem (Array.not_mem_empty _)
  · intro session hsession
    obtain rfl := List.mem_singleton.mp hsession
    cases g
    exact ⟨Entry.EveryOf.each hg, fun u hu => nomatch hu⟩

/-- The first search is allowed as many steps as the second, or fewer where to be out of steps is to
end early. -/
def Allows (p : Pairing) (fuel fuel' : Nat) : Prop :=
  fuel = fuel' ∨ fuel ≤ fuel' ∧ p.early .outOfFuel

theorem Allows.same (fuel : Nat) : p.Allows fuel fuel := .inl rfl

theorem Allows.succ {fuel fuel' : Nat} (h : p.Allows (fuel + 1) fuel') :
    ∃ fewer, fuel' = fewer + 1 ∧ p.Allows fuel fewer := by
  rcases h with rfl | ⟨hle, hearly⟩
  · exact ⟨fuel, rfl, .inl rfl⟩
  · obtain ⟨fewer, rfl⟩ := Nat.exists_eq_add_of_le' hle
    exact ⟨fewer + fuel, rfl, .inr ⟨Nat.le_add_left _ _, hearly⟩⟩

/-- **A run follows a run.** -/
theorem run_follows (lawful : p.Lawful) {fuel fuel' : Nat} (hfuel : p.Allows fuel fuel')
    (hs : p.Apart n setting setting') (h : p.Beside n m m') (mode : Mode) :
    p.Stops n (fun a b => a = b.shift n (Match.shift n)) (Machine.run fuel setting mode m)
      (Machine.run fuel' setting' mode m') := by
  induction fuel generalizing fuel' n setting setting' mode m m' with
  | zero =>
    rcases hfuel with rfl | ⟨_, hearly⟩
    · exact .error (.fault _ lawful.outOfFuel)
    · exact .early hearly
  | succ fuel ih =>
    obtain ⟨fewer, rfl, hfewer⟩ := hfuel.succ
    have hrun : p.Runs (fun s md g offset => Machine.run fuel s md (.start g offset))
        (fun s md g offset => Machine.run fewer s md (.start g offset)) :=
      fun _ _ _ mode _ offset hs hg => ih hfewer hs (lawful.beside_start hg offset) mode
    have hstep := step_follows hrun lawful hs h mode
    simp only [Machine.run]
    generalize Machine.step _ setting mode m = x at hstep ⊢
    generalize Machine.step _ setting' mode m' = y at hstep ⊢
    cases hstep with
    | early h => exact .early h
    | error h => exact .error h
    | ok h =>
      next s s' =>
      rcases s with next | ⟨result, failures⟩ <;> rcases s' with next' | ⟨result', failures'⟩
      case next.next => exact ih hfewer hs h mode
      case done.done =>
        obtain ⟨rfl, rfl⟩ := h
        exact .ok rfl
      all_goals cases h

theorem searchWithin_follows (lawful : p.Lawful) {fuel fuel' : Nat} (hfuel : p.Allows fuel fuel') :
    p.Runs (searchWithin fuel) (searchWithin fuel') :=
  fun _ _ _ mode _ offset hs hg => run_follows lawful hfuel hs (lawful.beside_start hg offset) mode

/-- At no distance the results are the same, unless the first search ends early. -/
theorem Stops.eq_of_zero {x y : Except Stop (Seen (Option Failure) (Option Match))}
    (h : p.Stops 0 (fun a b => a = b.shift 0 (Match.shift 0)) x y) :
    SameUnless p.early p.common x y := by
  cases h with
  | early h =>
    next stop =>
    cases stop with
    | fault f => exact .early f h
    | refused error => exact h.elim
  | error h =>
    cases h with
    | refused error => exact .same (fun f hf => nomatch hf)
    | fault f hf => exact .same fun other hother => by cases hother; exact hf
    | unknown name offset => exact .same (fun f hf => nomatch hf)
  | ok h =>
    next a b =>
    obtain ⟨value, failures⟩ := b
    have hmatch : Match.shift 0 = id := funext Match.shift_zero
    have hfailure : Failure.shift 0 = id := rfl
    simp only [Seen.shift, hmatch, hfailure, Option.map_id_fun, id_eq] at h
    exact h ▸ .same (fun f hf => nomatch hf)

end Pairing

end TextGrammar
