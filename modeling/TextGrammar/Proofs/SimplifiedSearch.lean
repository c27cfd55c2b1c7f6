/-
A search for a grammar and one for the simplified grammar, step by step. Both
make the same moves: their states differ in what is left of the grammars they
are inside of, where one has the simplified entries of the other, and in the
failures they have met. They end after as many steps with the same match. This
needs entries that are matched at once to stay so: an alternative is matched at
once, and what would take its place when it has a sole choice may be walked. A
record in its place adds nodes; without types nothing looks at these, and the
states may differ in their nodes as well.
-/
import TextGrammar.Proofs.Refinement
import TextGrammar.Proofs.SimplifiedCheckers
import TextGrammar.Types.Builtin
import Mathlib.Data.List.Forall2

namespace TextGrammar

/-! ## Results that agree -/

section

variable {ε α β γ δ : Type} {r : α → β → Prop}

/-- Both are values that are related, or the same error. -/
def Agree (r : α → β → Prop) : Except ε α → Except ε β → Prop
  | .ok a, .ok b => r a b
  | .error e, .error e' => e = e'
  | _, _ => False

theorem Agree.bind {s : γ → δ → Prop} {x : Except ε α} {y : Except ε β} {f : α → Except ε γ}
    {g : β → Except ε δ} (h : Agree r x y) (hfg : ∀ a b, r a b → Agree s (f a) (g b)) :
    Agree s (x >>= f) (y >>= g) := by
  match x, y, h with
  | .ok a, .ok b, h => exact hfg a b h
  | .error e, .error _, h => exact h

theorem Agree.of_map {α : Type} {f : α → β} {x y : Except ε α} (h : x.map f = y.map f) :
    Agree (fun a b => f a = f b) x y := by
  match x, y with
  | .ok a, .ok b => exact Except.ok.inj h
  | .error e, .error e' => exact Except.error.inj h
  | .ok a, .error e => cases h
  | .error e, .ok b => cases h

theorem Agree.map_eq {α : Type} {f : α → β} {x y : Except ε α}
    (h : Agree (fun a b => f a = f b) x y) : x.map f = y.map f := by
  match x, y, h with
  | .ok a, .ok b, h => exact congrArg Except.ok h
  | .error e, .error _, h => exact congrArg Except.error h

end

/-! ## States that mirror each other -/

variable {L : Type} {types : String → ParserType} {deep : Bool}

/-- The simplified entries, or the same ones if there may be types, which give grammars of their
own. -/
def Entry.AllMirror (types : String → ParserType) (deep : Bool) (es es' : List Entry) : Prop :=
  deep = true ∧ es' = es ∨ (Entry.ThroughoutAll Checker.IsRegular (Entry.Simplifies types deep) es ∧
    es' = Entry.simplifyAll es)

/-- The simplified entry, or the same one if there may be types. -/
def Entry.Mirrors (types : String → ParserType) (deep : Bool) (e e' : Entry) : Prop :=
  deep = true ∧ e' = e ∨
    (e.Throughout Checker.IsRegular (Entry.Simplifies types deep) ∧ e' = e.simplify)

/-- The simplified grammar, or the same one if there may be types. -/
def Grammar.Mirrors (types : String → ParserType) (deep : Bool) (g g' : Grammar) : Prop :=
  deep = true ∧ g' = g ∨
    (g.Throughout Checker.IsRegular (Entry.Simplifies types deep) ∧ g' = g.simplify)

/-- The same session but for the entries that are left, and for its nodes where these are not
compared. No type has opened it then. -/
def Session.Mirrors (types : String → ParserType) (deep : Bool) (s s' : Session) : Prop :=
  ∃ rest nodes, Entry.AllMirror types deep s.rest rest ∧ (deep = true → nodes = s.nodes) ∧
    (deep = false → s.use = none) ∧ s' = { s with rest, nodes }

/-- The same snapshot but for what differs in its sessions. -/
def Snapshot.Mirrors (types : String → ParserType) (deep : Bool) (s s' : Snapshot) : Prop :=
  ∃ sessions, List.Forall₂ (Session.Mirrors types deep) s.sessions sessions ∧
    s' = { s with sessions }

/-- The same state but for what differs in its sessions and for the failures met. -/
structure Machine.Mirrors (types : String → ParserType) (deep : Bool) (m m' : Machine L) :
    Prop where
  sessions : List.Forall₂ (Session.Mirrors types deep) m.sessions m'.sessions
  size : m'.snapshots.size = m.snapshots.size
  snapshots : ∀ i (h : i < m.snapshots.size) (h' : i < m'.snapshots.size),
    m.snapshots[i].Mirrors types deep m'.snapshots[i]
  offset : m'.offset = m.offset
  forced : m'.forced = m.forced
  checkers : m'.checkers = m.checkers

theorem Entry.AllMirror.nil {es : List Entry} (h : Entry.AllMirror types deep [] es) : es = [] := by
  rcases h with ⟨_, rfl⟩ | ⟨_, rfl⟩ <;> rfl

theorem Entry.AllMirror.tail {es es' : List Entry} (h : Entry.AllMirror types deep es es') :
    Entry.AllMirror types deep es.tail es'.tail := by
  rcases h with ⟨hdeep, rfl⟩ | ⟨hes, rfl⟩
  · exact .inl ⟨hdeep, rfl⟩
  · cases es with
    | nil => exact .inr ⟨hes, rfl⟩
    | cons e es => exact .inr ⟨hes.2, rfl⟩

theorem Entry.AllMirror.cons {e : Entry} {es rest : List Entry}
    (h : Entry.AllMirror types deep (e :: es) rest) :
    ∃ e' es', e.Mirrors types deep e' ∧ rest = e' :: es' := by
  rcases h with ⟨hdeep, rfl⟩ | ⟨hes, rfl⟩
  · exact ⟨e, es, .inl ⟨hdeep, rfl⟩, rfl⟩
  · exact ⟨e.simplify, Entry.simplifyAll es, .inr ⟨hes.1, rfl⟩, rfl⟩

theorem Grammar.Mirrors.entries {g g' : Grammar} (h : g.Mirrors types deep g') :
    Entry.AllMirror types deep g.entries g'.entries := by
  rcases h with ⟨hdeep, rfl⟩ | ⟨hg, rfl⟩
  · exact .inl ⟨hdeep, rfl⟩
  · cases g
    exact .inr ⟨hg, rfl⟩

/-- Simplification changes nothing about how often an entry is matched. -/
theorem Entry.Mirrors.quantifier {e e' : Entry} (h : e.Mirrors types deep e') :
    e'.quantifier = e.quantifier := by
  rcases h with ⟨_, rfl⟩ | ⟨_, rfl⟩
  · rfl
  · cases e
    rfl

namespace Machine.Mirrors

variable {m m' : Machine L}

theorem scopes (h : m.Mirrors types deep m') (hdeep : deep = true) : m'.scopes = m.scopes := by
  have hnodes : ∀ {ss ss' : List Session}, List.Forall₂ (Session.Mirrors types deep) ss ss' →
      ss'.map Session.nodes = ss.map Session.nodes := by
    intro ss ss' h
    induction h with
    | nil => rfl
    | cons hs _ ih =>
      obtain ⟨rest, nodes, _, hnodes, _, rfl⟩ := hs
      rw [List.map_cons, List.map_cons, ih, hnodes hdeep]
  exact hnodes h.sessions

theorem inner (h : m.Mirrors types deep m') {setting setting' : Setting}
    (hseen : setting.SeenAs deep setting') :
    (m.inner setting).SeenAs deep (m'.inner setting') := by
  refine ⟨hseen.alone, fun hdeep => ?_⟩
  rw [Machine.inner, Machine.inner, h.scopes hdeep, hseen.same hdeep]

/-! ## Moves -/

theorem advance (h : m.Mirrors types deep m') : m.advance.Mirrors types deep m'.advance := by
  have hsessions := h.sessions
  unfold Machine.advance
  cases hm : m.sessions with
  | nil =>
    rw [hm, List.forall₂_nil_left_iff] at hsessions
    simp only [hsessions]
    exact ⟨.nil, h.size, h.snapshots, h.offset, rfl, h.checkers⟩
  | cons top below =>
    rw [hm, List.forall₂_cons_left_iff] at hsessions
    obtain ⟨_, below', ⟨rest, nodes, hrest, hnodes, huse, rfl⟩, hbelow, hm'⟩ := hsessions
    simp only [hm']
    exact ⟨.cons ⟨rest.tail, nodes, hrest.tail, hnodes, huse, rfl⟩ hbelow, h.size, h.snapshots,
      h.offset, rfl, h.checkers⟩

theorem accept (h : m.Mirrors types deep m') (start stop : Nat) {nodes nodes' : List Node}
    (hnodes : deep = true → nodes' = nodes) :
    (m.accept start stop nodes).Mirrors types deep (m'.accept start stop nodes') := by
  have hsessions := h.sessions
  unfold Machine.accept
  cases hm : m.sessions with
  | nil =>
    rw [hm, List.forall₂_nil_left_iff] at hsessions
    have hpushed : Machine.Mirrors types deep
        { m with sessions := [], offset := stop, forced := false }
        { m' with sessions := [], offset := stop, forced := false } :=
      ⟨.nil, h.size, h.snapshots, rfl, rfl, h.checkers⟩
    simp only [hsessions]
    split
    · exact hpushed.advance
    · exact hpushed
  | cons top below =>
    rw [hm, List.forall₂_cons_left_iff] at hsessions
    obtain ⟨_, below', ⟨rest, trail, hrest, htrail, huse, rfl⟩, hbelow, hm'⟩ := hsessions
    have hpushed : Machine.Mirrors types deep
        { m with
          sessions := { top with nodes := top.nodes.pushAll nodes, repeats := top.repeats + 1 } ::
            below
          offset := stop, forced := false }
        { m' with
          sessions := ⟨rest, top.repeats + 1, top.start, trail.pushAll nodes', top.barrier,
            top.use⟩ :: below'
          offset := stop, forced := false } :=
      ⟨.cons ⟨rest, _, hrest, fun hdeep => by rw [htrail hdeep, hnodes hdeep], huse, rfl⟩ hbelow,
        h.size, h.snapshots, rfl, rfl, h.checkers⟩
    simp only [hm']
    split
    · exact hpushed.advance
    · exact hpushed

theorem acceptHere (h : m.Mirrors types deep m') (stop : Nat) {nodes nodes' : List Node}
    (hnodes : deep = true → nodes' = nodes) :
    (m.accept m.offset stop nodes).Mirrors types deep (m'.accept m'.offset stop nodes') := by
  rw [h.offset]
  exact h.accept m.offset stop hnodes

theorem save (h : m.Mirrors types deep m') (action : Action) :
    (m.save action).Mirrors types deep (m'.save action) := by
  refine ⟨h.sessions, ?_, fun i hi hi' => ?_, h.offset, h.forced, h.checkers⟩
  · simp only [Machine.save, Array.size_push, h.size]
  · simp only [Machine.save, Array.getElem_push, h.size]
    split
    · next hlt => exact h.snapshots i hlt (h.size ▸ hlt)
    · refine ⟨m'.sessions, h.sessions, ?_⟩
      rw [h.offset, h.forced]

theorem enter (h : m.Mirrors types deep m') {g g' : Grammar} (hg : g.Mirrors types deep g')
    {use : Option TypeUse} (huse : deep = false → use = none) :
    (m.enter g use).Mirrors types deep (m'.enter g' use) := by
  have hsave := h.save .passOver
  refine ⟨.cons ⟨g'.entries, .empty, hg.entries, fun _ => rfl, huse, ?_⟩ hsave.sessions, hsave.size,
    hsave.snapshots, hsave.offset, rfl, hsave.checkers⟩
  simp only [Machine.save, h.size, h.offset]

theorem close (h : m.Mirrors types deep m') (barrier : Option Nat) :
    (m.close barrier).Mirrors types deep (m'.close barrier) := by
  cases barrier with
  | none => exact h
  | some place =>
    refine ⟨h.sessions, ?_, fun i hi hi' => ?_, h.offset, h.forced, h.checkers⟩
    · simp only [Machine.close, Array.size_modify, h.size]
    · simp only [Machine.close, Array.size_modify] at hi hi'
      obtain ⟨sessions, hsessions, heq⟩ := h.snapshots i hi hi'
      simp only [Machine.close, Array.getElem_modify]
      split
      · rw [heq]
        exact ⟨sessions, hsessions, rfl⟩
      · exact ⟨sessions, hsessions, heq⟩

theorem closing (h : m.Mirrors types deep m') (closes : Prop) [Decidable closes]
    (barrier : Option Nat) : Machine.Mirrors types deep (if closes then m.close barrier else m)
      (if closes then m'.close barrier else m') := by
  split
  · exact h.close barrier
  · exact h

theorem resume (h : m.Mirrors types deep m') {snapshot snapshot' : Snapshot}
    (hsnapshot : snapshot.Mirrors types deep snapshot') :
    Option.Rel (Machine.Mirrors types deep) (m.resume snapshot) (m'.resume snapshot') := by
  obtain ⟨sessions', hsessions, rfl⟩ := hsnapshot
  obtain ⟨sessions, offset, forced, action⟩ := snapshot
  have hback (forced : Bool) : Machine.Mirrors types deep { m with sessions, offset, forced }
      { m' with sessions := sessions', offset, forced } :=
    ⟨hsessions, h.size, h.snapshots, rfl, rfl, h.checkers⟩
  cases action with
  | exhausted => exact .none
  | oneMore => exact .some (hback true)
  | passOver =>
    cases sessions with
    | nil =>
      rw [List.forall₂_nil_left_iff] at hsessions
      subst hsessions
      exact .none
    | cons top below =>
      rw [List.forall₂_cons_left_iff] at hsessions
      obtain ⟨_, below', ⟨rest, trail, hrest, _, _, rfl⟩, hbelow, rfl⟩ := hsessions
      obtain ⟨es, repeats, start, nodes, barrier, use⟩ := top
      simp only at hrest
      cases es with
      | nil =>
        obtain rfl := hrest.nil
        exact .none
      | cons e es =>
        obtain ⟨e', es', he', rfl⟩ := hrest.cons
        simp only [Machine.resume, he'.quantifier]
        split
        · exact .none
        · exact .some (hback forced).advance

theorem backtrackIn {count : Nat} (h : m.Mirrors types deep m') :
    Option.Rel (Machine.Mirrors types deep) (Machine.backtrackIn count m)
      (Machine.backtrackIn count m') := by
  induction count generalizing m m' with
  | zero => exact .none
  | succ count ih =>
    simp only [Machine.backtrackIn, Array.back?_eq_getElem?, h.size]
    by_cases hsize : m.snapshots.size - 1 < m.snapshots.size
    · have hsize' : m.snapshots.size - 1 < m'.snapshots.size := h.size ▸ hsize
      have hpop : Machine.Mirrors types deep { m with snapshots := m.snapshots.pop }
          { m' with snapshots := m'.snapshots.pop } := by
        refine ⟨h.sessions, ?_, fun i hi hi' => ?_, h.offset, h.forced, h.checkers⟩
        · simp only [Array.size_pop, h.size]
        · simp only [Array.getElem_pop]
          exact h.snapshots i _ _
      have hresume := hpop.resume (h.snapshots _ hsize hsize')
      simp only [Array.getElem?_eq_getElem hsize, Array.getElem?_eq_getElem hsize']
      generalize Machine.resume { m with snapshots := m.snapshots.pop } _ = next at hresume ⊢
      generalize Machine.resume { m' with snapshots := m'.snapshots.pop } _ = next' at hresume ⊢
      cases hresume with
      | none => exact ih hpop
      | some hnext => exact .some hnext
    · have hnone : m.snapshots[m.snapshots.size - 1]? = none := by
        rw [Array.getElem?_eq_none_iff]
        omega
      have hnone' : m'.snapshots[m.snapshots.size - 1]? = none := by
        rw [Array.getElem?_eq_none_iff, h.size]
        omega
      simp only [hnone, hnone']
      exact .none

theorem record [FailureLog L] (h : m.Mirrors types deep m') (failures failures' : L) :
    (m.record failures).Mirrors types deep (m'.record failures') :=
  ⟨h.sessions, h.size, h.snapshots, h.offset, h.forced, h.checkers⟩

end Machine.Mirrors

/-- Both steps lead to states that mirror each other, or both searches end with the same match. -/
def Step.Mirrors (types : String → ParserType) (deep : Bool) : Step L → Step L → Prop
  | .next m, .next m' => m.Mirrors types deep m'
  | .done result _, .done result' _ => result.map (Match.seen deep) = result'.map (Match.seen deep)
  | _, _ => False

variable {m m' : Machine L}

theorem Machine.Mirrors.giveUp (h : m.Mirrors types deep m') :
    m.giveUp.Mirrors types deep m'.giveUp := by
  have hback : Option.Rel (Machine.Mirrors types deep) (Machine.backtrackIn m.snapshots.size m) _ :=
    h.backtrackIn
  simp only [Machine.giveUp, Machine.backtrack, h.size]
  generalize Machine.backtrackIn _ m = next at hback ⊢
  generalize Machine.backtrackIn _ m' = next' at hback ⊢
  cases hback with
  | none => rfl
  | some hnext => exact hnext

/-! ## Attempts -/

@[simp] theorem Machine.record_offset [FailureLog L] (m : Machine L) (failures : L) :
    (m.record failures).offset = m.offset := rfl

/-- The same result, up to the entries of a grammar that is to be walked and to nodes that are not
compared. -/
def Attempt.Mirrors (types : String → ParserType) (deep : Bool) : Attempt → Attempt → Prop
  | .matched stop nodes, .matched stop' nodes' => stop' = stop ∧ (deep = true → nodes' = nodes)
  | .opens g use, .opens g' use' =>
    g.Mirrors types deep g' ∧ use' = use ∧ (deep = false → use = none)
  | .failed, .failed => True
  | _, _ => False

/-- The simplified checker for an entry, or the same one if there may be types. -/
def Checker.Mirrors (types : String → ParserType) (deep : Bool) (c c' : Checker) : Prop :=
  deep = true ∧ c' = c ∨ (c.Throughout Checker.IsRegular (Entry.Simplifies types deep) ∧
    (Entry.ofChecker c).StaysWhole deep ∧ c' = c.simplify)

theorem Seen.rel_of_through {α : Type} {view : α → α} {seen seen' : Seen L (Option α)}
    (h : seen.through view = seen'.through view) :
    Option.Rel (fun a b => view a = view b) seen.value seen'.value := by
  obtain ⟨_ | a, _⟩ := seen <;> obtain ⟨_ | b, _⟩ := seen'
  · exact .none
  · cases h
  · cases h
  · exact .some (Option.some.inj h)

variable [FailureLog L] {run : Runner L} {setting setting' : Setting}

section

variable (hrun : run.Simplifies types deep) (hstrategy : setting.strategy = .standard)
  (hseen : setting.SeenAs deep setting')
include hrun hstrategy hseen

theorem Entry.Mirrors.complete {e e' : Entry} (he : e.Mirrors types deep e') (offset : Nat)
    {found found' : Found} (hfound : found.seen deep = found'.seen deep) {use : Option TypeUse}
    (huse : deep = false → use = none) :
    (e.complete run setting offset found use).map (Seen.through (Node.seen deep)) =
      (e'.complete run setting' offset found' use).map (Seen.through (Node.seen deep)) := by
  rcases he with ⟨rfl, rfl⟩ | ⟨he, rfl⟩
  · obtain rfl := hseen.same rfl
    obtain rfl : found = found' := hfound
    rfl
  · exact (Entry.complete_simplify hrun hstrategy hseen he hfound.symm huse).symm

theorem Machine.matchChecker_mirrors (h : m.Mirrors types deep m') {e e' : Entry}
    (he : e.Mirrors types deep e') {c c' : Checker} (hc : c.Mirrors types deep c')
    {use : Option TypeUse} (huse : deep = false → use = none) :
    Agree (fun r r' => r.1.Mirrors types deep r'.1 ∧ r.2.Mirrors types deep r'.2)
      (m.matchChecker run setting e c use) (m'.matchChecker run setting' e' c' use) := by
  have hinner := h.inner hseen
  have hstandard : (m.inner setting).strategy = .standard := hstrategy
  have htaken : (c.foundAt run (m.inner setting) m.offset).map (Seen.through (Found.seen deep)) =
      (c'.foundAt run (m'.inner setting') m.offset).map (Seen.through (Found.seen deep)) := by
    rcases hc with ⟨hdeep, rfl⟩ | ⟨hc, hwhole, rfl⟩
    · rw [hinner.same hdeep]
    · exact (Checker.takenSeen_simplify hrun hstandard hinner hc hwhole).symm
  simp only [Machine.matchChecker, h.offset]
  refine (Agree.of_map htaken).bind fun seen seen' hvalue => ?_
  obtain ⟨value, failures⟩ := seen
  obtain ⟨value', failures'⟩ := seen'
  cases Seen.rel_of_through hvalue with
  | none => exact ⟨h.record failures failures', trivial⟩
  | @some found found' hfound =>
    simp only [Machine.record_offset, h.offset]
    have hcomplete := he.complete hrun hstandard hinner m.offset hfound huse
    refine (Agree.of_map hcomplete).bind fun completed completed' hnodes => ?_
    obtain ⟨nodes, later⟩ := completed
    obtain ⟨nodes', later'⟩ := completed'
    have hrecord := (h.record failures failures').record later later'
    have hstop : found'.stop = found.stop := by
      simpa only [Found.seen_stop] using (congrArg Found.stop hfound).symm
    cases Seen.rel_of_through hnodes with
    | none => exact ⟨hrecord, trivial⟩
    | some hsame =>
      refine ⟨hrecord, hstop, ?_⟩
      rintro rfl
      exact hsame.symm

omit [FailureLog L] hrun hstrategy hseen in
/-- A grammar that takes the place of another checker is not walked. -/
theorem Checker.isDeterministic_of_simplify {c : Checker} (hregular : c.IsRegular)
    (hwhole : (Entry.ofChecker c).StaysWhole deep) (h : ∀ g, c ≠ .grammar g) {g : Grammar}
    (heq : c.simplify = .grammar g) : g.isDeterministic = some true := by
  cases c with
  | char set => cases heq
  | word word =>
    obtain ⟨c, _ | ⟨_, _⟩⟩ := word
    · cases heq
    · cases heq
  | oneOf cs fallback =>
    simpa only [Entry.StaysWhole, Entry.ofChecker, Entry.ofTarget, heq] using hwhole
  | any width => cases heq
  | not item =>
    rw [simplify_not hregular] at heq
    cases heq
  | fixed regions => cases heq
  | grammar g => exact absurd rfl (h g)

omit hrun in
/-- A checker is matched at once, or walked, as the simplified one is. -/
theorem Machine.attemptChecker_mirrors_of (h : m.Mirrors types deep m') {e e' : Entry}
    {c c' : Checker} (hc : c.Mirrors types deep c') {use : Option TypeUse}
    (huse : deep = false → use = none)
    (hmatch : Agree (fun r r' => r.1.Mirrors types deep r'.1 ∧ r.2.Mirrors types deep r'.2)
      (m.matchChecker run setting e c use) (m'.matchChecker run setting' e' c' use)) :
    Agree (fun r r' => r.1.Mirrors types deep r'.1 ∧ r.2.Mirrors types deep r'.2)
      (m.attemptChecker run setting e c use) (m'.attemptChecker run setting' e' c' use) := by
  rcases hc with ⟨hdeep, rfl⟩ | ⟨hc, hwhole, rfl⟩
  · cases c' with
    | grammar g =>
      simp only [Machine.attemptChecker, hseen.strategy]
      split
      · exact ⟨h, .inl ⟨hdeep, rfl⟩, rfl, huse⟩
      · exact hmatch
    | _ => exact hmatch
  · by_cases hgrammar : ∃ g, c = .grammar g
    · obtain ⟨g, rfl⟩ := hgrammar
      have hopens : setting'.strategy.opens g.simplify = setting.strategy.opens g := by
        simp only [hseen.strategy, hstrategy, Strategy.standard,
          Grammar.isDeterministic_simplify (g := g) hc.2]
      simp only [Checker.simplify, Machine.attemptChecker, hopens] at hmatch ⊢
      split
      · exact ⟨h, .inr ⟨hc.2, rfl⟩, rfl, huse⟩
      · exact hmatch
    · have hne : ∀ g, c ≠ .grammar g := fun g heq => hgrammar ⟨g, heq⟩
      have hplain : m.attemptChecker run setting e c use =
          m.matchChecker run setting e c use := by
        cases c with
        | grammar g => exact absurd rfl (hne g)
        | _ => rfl
      have hsimple : m'.attemptChecker run setting' e' c.simplify use =
          m'.matchChecker run setting' e' c.simplify use := by
        cases hs : c.simplify with
        | grammar g =>
          have hclosed : setting'.strategy.opens g = false := by
            simp only [hseen.strategy, hstrategy, Strategy.standard,
              Checker.isDeterministic_of_simplify hc.checker hwhole hne hs, bne_self_eq_false]
          simp only [Machine.attemptChecker, hclosed, Bool.false_eq_true, if_false]
        | _ => rfl
      rw [hplain, hsimple]
      exact hmatch

theorem Machine.attemptChecker_mirrors (h : m.Mirrors types deep m') {e e' : Entry}
    (he : e.Mirrors types deep e') {c c' : Checker} (hc : c.Mirrors types deep c')
    {use : Option TypeUse} (huse : deep = false → use = none) :
    Agree (fun r r' => r.1.Mirrors types deep r'.1 ∧ r.2.Mirrors types deep r'.2)
      (m.attemptChecker run setting e c use) (m'.attemptChecker run setting' e' c' use) :=
  Machine.attemptChecker_mirrors_of hstrategy hseen h hc huse
    (Machine.matchChecker_mirrors hrun hstrategy hseen h he hc huse)

/-- A type is asked only where nodes are compared, and sees the same of them. -/
theorem Machine.attemptType_mirrors (h : m.Mirrors types deep m') (hdeep : deep = true)
    {e e' : Entry} (he : e.Mirrors types deep e') (use : TypeUse) :
    Agree (fun r r' => r.1.Mirrors types deep r'.1 ∧ r.2.Mirrors types deep r'.2)
      (m.attemptType run setting e use) (m'.attemptType run setting' e' use) := by
  have hchecker : Agree (fun r r' => r.1.Mirrors types deep r'.1 ∧ r.2 = r'.2)
      (m.checkerOf setting use) (m'.checkerOf setting' use) := by
    obtain rfl := hseen.same hdeep
    simp only [Machine.checkerOf, h.checkers, (h.inner (.refl _)).same hdeep, h.offset]
    split
    · exact ⟨h, rfl⟩
    · split
      · rfl
      · rfl
      · refine ⟨?_, rfl⟩
        split
        · exact ⟨h.sessions, h.size, h.snapshots, rfl, h.forced, rfl⟩
        · exact h
  refine hchecker.bind fun ⟨m, c⟩ ⟨m', c'⟩ ⟨hm, hc⟩ => ?_
  obtain rfl : c = c' := hc
  exact Machine.attemptChecker_mirrors hrun hstrategy hseen hm he (.inl ⟨hdeep, rfl⟩)
    fun hflat => by cases hdeep.symm.trans hflat

/-- **An attempt at an entry comes to the same** as one at the simplified entry. -/
theorem Machine.attempt_mirrors (h : m.Mirrors types deep m') {e e' : Entry}
    (he : e.Mirrors types deep e') :
    Agree (fun r r' => r.1.Mirrors types deep r'.1 ∧ r.2.Mirrors types deep r'.2)
      (m.attempt run setting e) (m'.attempt run setting' e') := by
  have htarget : (∃ c c', e.target = .checker c ∧ e'.target = .checker c' ∧
        c.Mirrors types deep c') ∨
      (deep = true ∧ e'.target = e.target ∧ ∀ c, e.target ≠ .checker c) := by
    rcases he with ⟨hdeep, rfl⟩ | ⟨he, rfl⟩
    · cases ht : e'.target with
      | checker c => exact .inl ⟨c, c, rfl, rfl, .inl ⟨hdeep, rfl⟩⟩
      | _ => exact .inr ⟨hdeep, rfl, by simp⟩
    · obtain ⟨capture, target, q, second⟩ := e
      cases target with
      | checker c => exact .inl ⟨c, c.simplify, rfl, rfl, .inr ⟨he.2.1, he.1.whole, rfl⟩⟩
      | _ =>
        have hdeep : deep = true := by
          by_contra hflat
          obtain ⟨c, hc⟩ := he.1.untyped (Bool.eq_false_of_not_eq_true hflat)
          cases hc
        exact .inr ⟨hdeep, rfl, by simp⟩
  simp only [Machine.attempt]
  rcases htarget with ⟨c, c', ht, ht', hc⟩ | ⟨hdeep, htarget, hne⟩
  · rw [ht, ht']
    exact Machine.attemptChecker_mirrors hrun hstrategy hseen h he hc fun _ => rfl
  · rw [htarget]
    cases ht : e.target with
    | checker c => exact absurd ht (hne c)
    | ref r =>
      simp only [h.offset, hseen.same hdeep]
      split
      · exact Machine.attemptType_mirrors hrun hstrategy (.refl setting) h hdeep he _
      · rfl
    | type t => exact Machine.attemptType_mirrors hrun hstrategy hseen h hdeep he _

/-! ## Steps -/

theorem Machine.stepEntry_mirrors (h : m.Mirrors types deep m') {e e' : Entry}
    (he : e.Mirrors types deep e') (repeats : Nat) :
    Agree (Step.Mirrors types deep) (m.stepEntry run setting e repeats)
      (m'.stepEntry run setting' e' repeats) := by
  simp only [Machine.stepEntry, he.quantifier, h.forced]
  split
  · exact h.advance
  split
  · exact h.advance
  split
  · exact (h.save .oneMore).advance
  refine (Machine.attempt_mirrors hrun hstrategy hseen h he).bind ?_
  rintro ⟨m, result⟩ ⟨m', result'⟩ ⟨hm, hresult⟩
  simp only at hm hresult
  cases result with
  | matched stop nodes =>
    cases result'
    case matched stop' nodes' =>
      obtain ⟨rfl, hnodes⟩ := hresult
      simp only [hm.forced]
      split
      · exact (hm.save .passOver).acceptHere stop' hnodes
      · exact hm.acceptHere stop' hnodes
    all_goals cases hresult
  | opens g use =>
    cases result'
    case opens g' use' =>
      obtain ⟨hg, rfl, huse⟩ := hresult
      exact hm.enter hg huse
    all_goals cases hresult
  | failed =>
    cases result'
    case failed =>
      simp only [hm.forced]
      split
      · exact (hm.record _ _).giveUp
      · exact hm.advance
    all_goals cases hresult

theorem Machine.stepOut_mirrors (h : m.Mirrors types deep m')
    {finished finished' parent parent' : Session} {below below' : List Session}
    (hfinished : finished.Mirrors types deep finished')
    (hparent : parent.Mirrors types deep parent')
    (hbelow : List.Forall₂ (Session.Mirrors types deep) below below') :
    Agree (Step.Mirrors types deep) (m.stepOut run setting finished parent below)
      (m'.stepOut run setting' finished' parent' below') := by
  obtain ⟨_, found, _, hfound, huse, rfl⟩ := hfinished
  obtain ⟨rest, trail, hrest, htrail, hused, rfl⟩ := hparent
  obtain ⟨es, repeats, start, nodes, barrier, use⟩ := parent
  simp only at hrest
  cases es with
  | nil =>
    obtain rfl := hrest.nil
    exact h.giveUp
  | cons e es =>
    have hback : Machine.Mirrors types deep
        { m with sessions := ⟨e :: es, repeats, start, nodes, barrier, use⟩ :: below }
        { m' with sessions := ⟨rest, repeats, start, trail, barrier, use⟩ :: below' } :=
      ⟨.cons ⟨rest, trail, hrest, htrail, hused, rfl⟩ hbelow, h.size, h.snapshots, h.offset,
        h.forced, h.checkers⟩
    obtain ⟨e', es', he, rfl⟩ := hrest.cons
    simp only [Machine.stepOut, he.quantifier]
    generalize ({ m with sessions := _ } : Machine L) = back at hback ⊢
    generalize ({ m' with sessions := _ } : Machine L) = back' at hback ⊢
    have hclosed := hback.closing (e.quantifier.greediness == .possessive) finished.barrier
    generalize (if (e.quantifier.greediness == .possessive) = true
      then back.close finished.barrier else back) = out at hclosed ⊢
    generalize (if (e.quantifier.greediness == .possessive) = true
      then back'.close finished.barrier else back') = out' at hclosed ⊢
    have hsame : Found.seen deep ⟨out.offset, finished.nodes.toList, true⟩ =
        Found.seen deep ⟨out'.offset, found.toList, true⟩ := by
      rw [hclosed.offset]
      cases deep with
      | false => rfl
      | true => rw [hfound rfl]
    have hstandard : (out.inner setting).strategy = .standard := hstrategy
    have hcomplete :=
      he.complete hrun hstandard (hclosed.inner hseen) finished.start hsame huse
    refine (Agree.of_map hcomplete).bind fun seen seen' hvalue => ?_
    obtain ⟨value, failures⟩ := seen
    obtain ⟨value', failures'⟩ := seen'
    have hrecord := hclosed.record failures failures'
    cases Seen.rel_of_through hvalue with
    | some hnodes =>
      simp only [hclosed.offset]
      refine hrecord.accept finished.start out.offset ?_
      rintro rfl
      exact hnodes.symm
    | none => exact (hrecord.record _ _).giveUp

/-- **Each step for a grammar is one for the simplified grammar.** -/
theorem Machine.step_mirrors (h : m.Mirrors types deep m') (mode : Mode) :
    Agree (Step.Mirrors types deep) (m.step run setting mode) (m'.step run setting' mode) := by
  have hsessions := h.sessions
  simp only [Machine.step]
  cases hm : m.sessions with
  | nil =>
    rw [hm, List.forall₂_nil_left_iff] at hsessions
    simp only [hsessions]
    rfl
  | cons top below =>
    rw [hm, List.forall₂_cons_left_iff] at hsessions
    obtain ⟨top', below', htop, hbelow, hm'⟩ := hsessions
    obtain ⟨rest, trail, hrest, htrail, _, rfl⟩ := id htop
    obtain ⟨es, repeats, start, nodes, barrier, use⟩ := top
    simp only at hrest
    simp only [hm']
    cases es with
    | cons e es =>
      obtain ⟨e', es', he, rfl⟩ := hrest.cons
      exact Machine.stepEntry_mirrors hrun hstrategy hseen h he repeats
    | nil =>
      obtain rfl := hrest.nil
      cases hbelow with
      | cons hparent hbelow =>
        exact Machine.stepOut_mirrors hrun hstrategy hseen h htop hparent hbelow
      | nil =>
        simp only [h.offset, hseen.text]
        split
        · exact (h.record _ _).giveUp
        · refine congrArg some ?_
          cases deep with
          | false => rfl
          | true => rw [htrail rfl]

end

/-! ## Runs -/

theorem Machine.mirrors_start {g g' : Grammar} (h : g.Mirrors types deep g') (offset : Nat) :
    (Machine.start g offset : Machine L).Mirrors types deep (Machine.start g' offset) where
  sessions := .cons ⟨g'.entries, .empty, h.entries, fun _ => rfl, fun _ => rfl, rfl⟩ .nil
  size := rfl
  snapshots _ hi := absurd hi (Nat.not_lt_zero _)
  offset := rfl
  forced := rfl
  checkers := rfl

/-- **Runs for a grammar and for the simplified grammar end alike**, and after as many steps. -/
theorem Machine.run_mirrors (fuel : Nat) (hstrategy : setting.strategy = .standard)
    (hseen : setting.SeenAs deep setting') (mode : Mode) (h : m.Mirrors types deep m') :
    Agree (fun a b => a.through (Match.seen deep) = b.through (Match.seen deep))
      (Machine.run fuel setting mode m) (Machine.run fuel setting' mode m') := by
  induction fuel generalizing setting setting' mode m m' with
  | zero => rfl
  | succ fuel ih =>
    have hrun : Runner.Simplifies (L := L) types deep
        (fun s md g offset => Machine.run fuel s md (.start g offset)) := by
      intro s s' md g offset hss hs hg
      exact (ih hs hss md (Machine.mirrors_start (.inr ⟨hg, rfl⟩) offset)).map_eq.symm
    have hstep := Machine.step_mirrors hrun hstrategy hseen h mode
    simp only [Machine.run]
    generalize Machine.step _ setting mode m = x at hstep ⊢
    generalize Machine.step _ setting' mode m' = y at hstep ⊢
    rcases x with stop | (next | _) <;> rcases y with stop' | (next' | _)
    case error.error => exact hstep
    case ok.next.ok.next => exact ih hstrategy hseen mode hstep
    case ok.done.ok.done => exact hstep
    all_goals cases hstep

/-! ## Answers -/

/-- The same end: a match from the same start to the same stop, and with the same nodes if these are
compared, or no match both times. -/
inductive SameEnd (deep : Bool) : Except Stop MatchTree → Except Stop MatchTree → Prop where
  | matched {tree tree' : MatchTree} : tree.text = tree'.text → tree.root.start = tree'.root.start →
    tree.root.stop = tree'.root.stop → (deep = true → tree = tree') →
      SameEnd deep (.ok tree) (.ok tree')
  | unmatched (u v : Unmatched) :
    SameEnd deep (.error (.refused (.unmatched u))) (.error (.refused (.unmatched v)))
  | stopped (stop : Stop) : SameEnd deep (.error stop) (.error stop)

namespace Grammar

variable {g : Grammar} {env : TypeEnv} {text : Text}

theorem matchFrom_simplify (hg : g.Throughout Checker.IsRegular (Entry.Simplifies types deep))
    (fuel : Nat) (mode : Mode) (start : Nat) :
    SameEnd deep (g.simplify.matchFrom fuel env text mode start)
      (g.matchFrom fuel env text mode start) := by
  have hsearch : Agree (fun a b => a.through (Match.seen deep) = b.through (Match.seen deep))
      (searchWithin fuel (env.setting text) mode g start)
      (searchWithin fuel (env.setting text) mode g.simplify start) :=
    Machine.run_mirrors fuel rfl (.refl _) mode (Machine.mirrors_start (.inr ⟨hg, rfl⟩) start)
  simp only [Grammar.matchFrom]
  generalize searchWithin fuel (env.setting text) mode g start = x at hsearch ⊢
  generalize searchWithin fuel (env.setting text) mode g.simplify start = y at hsearch ⊢
  rcases x with stop | ⟨value, _⟩ <;> rcases y with stop' | ⟨value', _⟩
  case error.error =>
    obtain rfl : stop = stop' := hsearch
    exact .stopped stop
  case ok.ok =>
    cases Seen.rel_of_through hsearch with
    | none => exact .unmatched _ _
    | @some m m' hm =>
      have hstop : m'.stop = m.stop := by
        simpa only [Match.seen_stop] using (congrArg Match.stop hm).symm
      refine .matched rfl rfl hstop ?_
      rintro rfl
      obtain rfl : m = m' := hm
      rfl
  all_goals cases hsearch

theorem findFrom_simplify (hg : g.Throughout Checker.IsRegular (Entry.Simplifies types deep))
    (fuel count start : Nat) (furthest furthest' : Option Unmatched) :
    SameEnd deep (findFrom fuel env text g.simplify count start furthest)
      (findFrom fuel env text g count start furthest') := by
  induction count generalizing start furthest furthest' with
  | zero => exact .unmatched _ _
  | succ count ih =>
    simp only [findFrom]
    have hattempt : SameEnd deep (g.simplify.matchFrom fuel env text .beginning start) _ :=
      matchFrom_simplify hg fuel .beginning start
    generalize g.simplify.matchFrom fuel env text .beginning start = x at hattempt ⊢
    generalize g.matchFrom fuel env text .beginning start = y at hattempt ⊢
    cases hattempt with
    | matched htext hstart hstop hsame => exact .matched htext hstart hstop hsame
    | unmatched u v => exact ih _ _ _
    | stopped stop =>
      split
      · exact ih _ _ _
      · exact .stopped _

/-- **A simplified grammar matches the same**, a beginning of the text, all of it or the first place
that matches, after as many steps and with the same nodes. Its entries that are matched at once have
to stay so: no alternative of it becomes a grammar that is walked, or a record. In a grammar without
types alternatives may become records, if it is enough that matches start and stop where they
did. -/
theorem simplify_matches (hg : g.Throughout Checker.IsRegular (Entry.Simplifies types deep))
    (fuel : Nat) (env : TypeEnv) (text : Text) :
    SameEnd deep (g.simplify.parse fuel env text) (g.parse fuel env text) ∧
      SameEnd deep (g.simplify.matchWhole fuel env text) (g.matchWhole fuel env text) ∧
        SameEnd deep (g.simplify.find fuel env text) (g.find fuel env text) :=
  ⟨matchFrom_simplify hg fuel .beginning 0, matchFrom_simplify hg fuel .whole 0,
    findFrom_simplify hg fuel _ 0 none none⟩

/-- One of three words, of which the first is there twice. -/
def repeatedChoice : Grammar :=
  ⟨[.ofChecker (.alternative
    [.literal ['b'], .literal ['a', 'b'], .literal ['b']])]⟩

/-- A record that is the only choice of an alternative. -/
def soleRecord : Grammar :=
  ⟨[.ofChecker (.alternative [.fixed [⟨"column", some 1, none⟩]])]⟩

theorem repeatedChoice_simplify :
    (repeatedChoice.Throughout Checker.IsRegular
        (Entry.Simplifies (fun _ => Builtin.identifier) true) ∧
      repeatedChoice.simplify =
        ⟨[.ofChecker (.oneOf [.literal ['a', 'b'], .single 'b'] none)]⟩ ∧
      SameEnd true (repeatedChoice.simplify.parse 5 .bare #['a', 'b'])
        (repeatedChoice.parse 5 .bare #['a', 'b']) ∧
      repeatedChoice.parse 5 .bare #['a', 'b'] = .ok (.ofNodes #['a', 'b'] 0 2 [.leaf 0 2])) ∧
    soleRecord.Throughout Checker.IsRegular
        (Entry.Simplifies (fun _ => Builtin.identifier) false) ∧
      soleRecord.simplify = ⟨[.ofChecker (.fixed [⟨"column", some 1, none⟩])]⟩ ∧
      SameEnd false (soleRecord.simplify.parse 5 .bare #['a']) (soleRecord.parse 5 .bare #['a']) ∧
      soleRecord.parse 5 .bare #['a'] = .ok (.ofNodes #['a'] 0 1 [.leaf 0 1]) := by
  refine ⟨?_, ?_⟩
  · have simple : repeatedChoice.simplify =
        ⟨[.ofChecker (.oneOf [.literal ['a', 'b'], .single 'b'] none)]⟩ := rfl
    have regular : repeatedChoice.Throughout Checker.IsRegular
        (Entry.Simplifies (fun _ => Builtin.identifier) true) :=
      ⟨⟨⟨trivial, (fun _ ht => by cases ht), fun h => by cases h⟩,
        ⟨trivial, ⟨trivial, trivial, trivial, trivial⟩, trivial⟩, trivial⟩, trivial⟩
    have parses : repeatedChoice.parse 5 .bare #['a', 'b'] =
        .ok (.ofNodes #['a', 'b'] 0 2 [.leaf 0 2]) := rfl
    exact ⟨regular, simple, (simplify_matches regular 5 .bare #['a', 'b']).1, parses⟩
  · have simple : soleRecord.simplify = ⟨[.ofChecker (.fixed [⟨"column", some 1, none⟩])]⟩ := rfl
    have regular : soleRecord.Throughout Checker.IsRegular
        (Entry.Simplifies (fun _ => Builtin.identifier) false) :=
      ⟨⟨⟨rfl, (fun _ ht => by cases ht), fun _ => ⟨_, rfl⟩⟩,
        ⟨trivial, ⟨⟨trivial, trivial, trivial⟩, trivial⟩, trivial⟩, trivial⟩, trivial⟩
    have parses : soleRecord.parse 5 .bare #['a'] = .ok (.ofNodes #['a'] 0 1 [.leaf 0 1]) := rfl
    exact ⟨regular, simple, (simplify_matches regular 5 .bare #['a']).1, parses⟩

/-! ### A sole choice that comes to be walked -/

/-- Some `a` as the only choice of an alternative, and another `a`. -/
def soleChoice : Grammar :=
  ⟨[.ofChecker (.alternative [.sequence
      [(Entry.ofChecker (.single 'a')).quantified ⟨1, none, .maximum⟩]]),
    .ofChecker (.single 'a')]⟩

/-- Some `a` and another `a`. -/
def walkedChoice : Grammar :=
  ⟨[.ofChecker (.sequence [(Entry.ofChecker (.single 'a')).quantified ⟨1, none, .maximum⟩]),
    .ofChecker (.single 'a')]⟩

theorem walkedChoice_untyped : walkedChoice.Untyped :=
  ⟨⟨⟨_, rfl⟩, ⟨⟨⟨_, rfl⟩, trivial, trivial⟩, trivial⟩, trivial⟩,
    ⟨⟨_, rfl⟩, trivial, trivial⟩, trivial⟩

theorem walkedChoice_built : walkedChoice.Built :=
  ⟨⟨trivial, ⟨⟨trivial, trivial, trivial⟩, trivial⟩, trivial⟩, ⟨trivial, trivial, trivial⟩, trivial⟩

/-- Simplified grammars do not always match where the grammars do: the choice of an alternative is
matched at once, and keeps all `a`, but a grammar in its place is walked and gives one back. -/
theorem not_forall_simplify_matches : ¬ ∀ (g : Grammar) (env : TypeEnv) (text : Text),
    g.Throughout Checker.IsRegular (fun _ => True) → g.Built → text.size < maxCount →
      ∃ enough, ∀ fuel ≥ enough, ((∃ tree, g.simplify.parse fuel env text = .ok tree) ↔
        ∃ tree, g.parse fuel env text = .ok tree) := by
  intro hclaim
  have regular : soleChoice.Throughout Checker.IsRegular fun _ => True :=
    ⟨⟨trivial, ⟨trivial, ⟨⟨trivial, ⟨trivial, trivial, trivial⟩, trivial⟩, trivial⟩, trivial⟩,
      trivial⟩, ⟨trivial, trivial, trivial⟩, trivial⟩
  have built : soleChoice.Built :=
    ⟨⟨trivial, ⟨⟨⟨⟨trivial, trivial, trivial⟩, trivial⟩, trivial⟩, trivial⟩, trivial⟩,
      ⟨trivial, trivial, trivial⟩, trivial⟩
  have untyped : soleChoice.Untyped :=
    ⟨⟨⟨_, rfl⟩, ⟨⟨⟨⟨⟨_, rfl⟩, trivial, trivial⟩, trivial⟩, trivial⟩, trivial⟩, trivial⟩,
      ⟨⟨_, rfl⟩, trivial, trivial⟩, trivial⟩
  have fits : #['a', 'a'].size < maxCount := by decide
  obtain ⟨enough, hsame⟩ := hclaim soleChoice .bare #['a', 'a'] regular built fits
  -- The choice keeps both `a`; walked, it gives the second one back.
  have simple : soleChoice.simplify = walkedChoice := by cbv
  have hnone :
      soleChoice.outcomes Strategy.standard.opens TypeEnv.bare.classes #['a', 'a'] 0 = [] := by
    cbv
  have hsome : walkedChoice.outcomes Strategy.standard.opens TypeEnv.bare.classes #['a', 'a'] 0 =
      [⟨2, [.leaf 0 1, .leaf 1 2]⟩] := by
    cbv
  obtain ⟨u, hplain⟩ := matchFrom_eventually untyped built .bare fits (Nat.zero_le _) .beginning
  obtain ⟨v, hwalked⟩ := matchFrom_eventually walkedChoice_untyped walkedChoice_built .bare fits
    (Nat.zero_le _) .beginning
  rw [hnone] at hplain
  rw [hsome] at hwalked
  obtain ⟨enough', hends⟩ := Filter.eventually_atTop.mp (hplain.and hwalked)
  let fuel := max enough enough'
  obtain ⟨hplain, hwalked⟩ := hends fuel (Nat.le_max_right _ _)
  have hsimple : soleChoice.simplify.parse fuel .bare #['a', 'a'] = _ := simple ▸ hwalked
  obtain ⟨tree, htree⟩ := (hsame fuel (Nat.le_max_left _ _)).mp ⟨_, hsimple⟩
  cases htree.symm.trans hplain

end Grammar

end TextGrammar
