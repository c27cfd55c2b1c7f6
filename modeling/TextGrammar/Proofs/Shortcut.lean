/-
A nested grammar that leaves no choice is matched by a search of its own and not
walked by the search that meets it. That saves snapshots, and nothing else can
be told from it: neither the match nor the failure that got furthest.

Such a grammar has one outcome at most, and when it has none it leaves a failure
where it was tried or further on. So the failure that the outer search adds when
its search for the grammar came to nothing never is the furthest one.
-/
import TextGrammar.Proofs.Refinement

namespace TextGrammar

/-- Every nested grammar is walked. -/
def Strategy.walking : Strategy := ⟨fun _ => true, true⟩

/-! ## Traces without a choice -/

/-- There is one outcome and no failure after it, or no outcome and a failure from the offset on. -/
def Trace.Sure (offset : Nat) (t : Trace (Option Failure) Match) : Prop :=
  (∃ l m, t = .once l m) ∨ ∃ f, offset ≤ f.offset ∧ t = .done (some f)

/-- A failure is never followed by one that is further back. -/
theorem furthest_some (a : Option Failure) (f : Failure) :
    ∃ f', furthest a (some f) = some f' ∧ f.offset ≤ f'.offset := by
  cases a with
  | none => exact ⟨f, rfl, Nat.le_refl _⟩
  | some a =>
    by_cases hlt : a.offset < f.offset
    · exact ⟨f, by simp [furthest, further, hlt], Nat.le_refl _⟩
    · exact ⟨a, by simp [furthest, further, hlt], by omega⟩

namespace Trace.Sure

variable {offset : Nat} {t : Trace (Option Failure) Match}

theorem one (m : Match) : (Trace.one m : Trace (Option Failure) Match).Sure offset :=
  .inl ⟨none, m, rfl⟩

theorem preceded (l : Option Failure) (h : t.Sure offset) : (t.preceded l).Sure offset := by
  obtain ⟨l', m, rfl⟩ | ⟨f, hf, rfl⟩ := h
  · exact .inl ⟨furthest l l', m, rfl⟩
  · obtain ⟨f', hf', hle⟩ := furthest_some l f
    exact .inr ⟨f', Nat.le_trans hf hle, congrArg Trace.done hf'⟩

theorem map_after (nodes : List Node) (h : t.Sure offset) : (t.map (.after nodes)).Sure offset := by
  obtain ⟨l, m, rfl⟩ | ⟨f, hf, rfl⟩ := h
  · exact .inl ⟨l, m.after nodes, rfl⟩
  · exact .inr ⟨f, hf, rfl⟩

theorem mono {offset' : Nat} (h : t.Sure offset) (hle : offset' ≤ offset) : t.Sure offset' := by
  obtain ⟨l, m, rfl⟩ | ⟨f, hf, rfl⟩ := h
  · exact .inl ⟨l, m, rfl⟩
  · exact .inr ⟨f, Nat.le_trans hle hf, rfl⟩

theorem bind {k : Match → Trace (Option Failure) Match} (h : t.Sure offset)
    (hk : ∀ m ∈ t.values, (k m).Sure offset) : (t.bind k).Sure offset := by
  obtain ⟨l, m, rfl⟩ | ⟨f, hf, rfl⟩ := h
  · rw [Trace.once_bind]
    exact (hk m (by simp)).preceded l
  · exact .inr ⟨f, hf, rfl⟩

/-- For a search with one answer it makes no difference whether it is walked. -/
theorem map_found (h : t.Sure offset) (size : Nat) :
    Trace.ofSeen (t.settle .beginning size).found = t.map Match.found := by
  obtain ⟨l, m, rfl⟩ | ⟨f, hf, rfl⟩ := h <;> rfl

end Trace.Sure

/-- Repeats without a choice, of what has one answer at every offset. -/
theorem Quantifier.trace_sure {q : Quantifier} (hq : q.isDeterministic = true) {size : Nat}
    {once : (repeats offset : Nat) → Trace (Option Failure) Match}
    {missed : (repeats offset : Nat) → Option Failure} {stuck : (repeats offset : Nat) → Bool}
    (honce : ∀ r o, (∃ l m, once r o = .once l m ∧ missed r o = none ∧ stuck r o = false) ∨
      ∃ l f, once r o = .done l ∧ missed r o = some f ∧ o ≤ f.offset ∧ stuck r o = true)
    (repeats offset : Nat) : (q.trace size once missed stuck repeats offset).Sure offset := by
  induction repeats, offset using Quantifier.room_induction size with
  | step repeats offset ih =>
  have hnext (m : Match) :
      (m.goOnTrace size offset (q.trace size once missed stuck (repeats + 1))).Sure offset := by
    simp only [Match.goOnTrace]
    split
    · next hgo =>
      exact ((ih (repeats + 1) m.stop hgo.1 hgo.2).map_after m.nodes).mono (Nat.le_of_lt hgo.1)
    · exact .one m
  rw [Quantifier.trace_eq]
  rcases Quantifier.plan_cases q repeats with ⟨hp, -⟩ | ⟨-, hf, hp⟩
  · simp only [hp]
    exact .one _
  -- with fixed bounds an entry that is not full needs one repeat more
  have hchoice : q.lower ≤ repeats → q.greediness = .possessive := by
    intro hle
    simp only [Quantifier.isDeterministic, Quantifier.isFixed, Bool.or_eq_true, beq_iff_eq] at hq
    refine hq.resolve_left fun hu => ?_
    simp only [Quantifier.isFull, hu, decide_eq_false_iff_not] at hf
    exact hf hle
  rcases hp with ⟨hp, -⟩ | ⟨-, hle, hg⟩ | ⟨-, hle, hg⟩ | ⟨hp, -, -⟩
  · simp only [hp]
    rcases honce repeats offset with ⟨l, m, honce, hmissed, -⟩ | ⟨l, f, honce, hmissed, hf, -⟩
    · rw [honce, hmissed, Trace.once_bind]
      have := ((hnext m).preceded l)
      rwa [← Trace.append_nothing (Trace.preceded _ _)] at this
    · rw [honce, hmissed]
      obtain ⟨f', hf', hle⟩ := furthest_some l f
      exact .inr ⟨f', Nat.le_trans hf hle, congrArg Trace.done hf'⟩
  · rw [hchoice hle] at hg
    cases hg
  · rw [hchoice hle] at hg
    cases hg
  · simp only [hp]
    rcases honce repeats offset with ⟨l, m, honce, -, hstuck⟩ | ⟨l, f, honce, -, -, hstuck⟩
    · rw [honce, hstuck, Trace.once_bind]
      exact (hnext m).preceded l
    · rw [honce, hstuck]
      exact (Trace.Sure.one _).preceded l

/-! ## Grammars without a choice -/

section

variable {classes : CharClasses} {text : Text}

theorem bothDeterministic_eq_true {a : Option Bool} {b : Unit → Option Bool}
    (h : bothDeterministic a b = some true) : a = some true ∧ b () = some true := by
  simp only [bothDeterministic] at h
  split at h
  · cases h
  · exact ⟨rfl, h⟩
  · split at h <;> cases h

/-- A target without a choice is not walked. -/
theorem Target.isWalked_of_isDeterministic {t : Target} (h : t.isDeterministic = some true) :
    t.isWalked Strategy.standard.opens = false := by
  cases t with
  | checker c =>
    cases c with
    | grammar g =>
      simp only [Target.isDeterministic, Checker.isDeterministic] at h
      simp only [Target.isWalked, Strategy.standard, h]
      rfl
    | _ => rfl
  | ref r => rfl
  | type t => rfl

/-- An entry without a choice that is not walked. -/
theorem Entry.trace_sure {e : Entry} (hc : e.HasChecker) (hd : e.isDeterministic = some true)
    (offset : Nat) :
    (e.trace Strategy.standard.opens classes text offset :
      Trace (Option Failure) Match).Sure offset := by
  obtain ⟨capture, target, q, second⟩ := e
  obtain ⟨c, rfl⟩ : ∃ c, target = .checker c := hc
  simp only [Entry.isDeterministic] at hd
  split at hd
  · next hq =>
    have hw := Target.isWalked_of_isDeterministic (bothDeterministic_eq_true hd).1
    rw [Entry.trace, hw]
    simp only [Entry.traceOf, Target.trace_attempted hw, Entry.bind_completed, Bool.false_or,
      Bool.false_eq_true, if_false, Trace.values_ofSeen]
    refine Quantifier.trace_sure hq (fun r o => ?_) 0 offset
    rcases Entry.attempted (L := Option Failure) _ _ _ _ with ⟨_ | m, l⟩
    · exact .inr ⟨l, _, rfl, rfl, Nat.le_refl _, rfl⟩
    · exact .inl ⟨l, m, rfl, rfl, rfl⟩
  · cases hd

theorem Entry.allTrace_sure {es : List Entry}
    (h : ∀ e ∈ es, e.HasChecker ∧ e.Every (fun _ => True) Region.AreColumns)
    (hd : Entry.allDeterministic es = some true) (fits : text.size < maxCount) {offset : Nat}
    (hoff : offset ≤ text.size) :
    (Entry.allTrace Strategy.standard.opens classes es text offset :
      Trace (Option Failure) Match).Sure offset := by
  induction es generalizing offset with
  | nil =>
    simp only [Entry.allTrace]
    exact .one _
  | cons e es ih =>
    obtain ⟨⟨hc, built⟩, h⟩ := List.forall_mem_cons.mp h
    simp only [Entry.allDeterministic] at hd
    have hsure : (e.trace Strategy.standard.opens classes text offset :
        Trace (Option Failure) Match).Sure offset := by
      split at hd
      · next hz =>
        obtain ⟨capture, target, q, second⟩ := e
        have hz : q.isZero = true := hz
        rw [Entry.trace]
        simp only [Entry.traceOf]
        rw [Quantifier.trace_eq]
        simp only [Quantifier.plan, hz, Bool.true_or, if_true]
        exact .one _
      · exact Entry.trace_sure hc (bothDeterministic_eq_true hd).1 offset
    have hd' : Entry.allDeterministic es = some true := by
      split at hd
      · exact hd
      · exact (bothDeterministic_eq_true hd).2
    simp only [Entry.allTrace]
    refine hsure.bind fun m hm => ?_
    rw [Entry.values_trace] at hm
    have within := Entry.outcomes_within built fits hoff m hm
    exact ((ih h hd' within.2).map_after m.nodes).mono within.1

/-- A grammar without a choice. -/
theorem Grammar.trace_sure {g : Grammar} {entryOk : Entry → Prop}
    (h : g.Every (fun e => e.HasChecker ∧ entryOk e) Region.AreColumns)
    (hd : g.isDeterministic = some true) (fits : text.size < maxCount) {offset : Nat}
    (hoff : offset ≤ text.size) :
    (g.trace Strategy.standard.opens classes text offset :
      Trace (Option Failure) Match).Sure offset := by
  obtain ⟨es⟩ := g
  simp only [Grammar.trace]
  simp only [Grammar.isDeterministic] at hd
  refine Entry.allTrace_sure (fun e he => ?_) hd fits hoff
  have := Entry.EveryOf.each h e he
  exact ⟨this.entry.1, this.built⟩

/-! ## Both ways the same -/

/-- In what follows, what a search with the shortcut meets is compared with what one without it
meets. -/
def Grammar.Agrees (g : Grammar) : Prop :=
  ∀ (classes : CharClasses) (text : Text) (offset : Nat), text.size < maxCount →
    offset ≤ text.size →
      (g.trace Strategy.standard.opens classes text offset : Trace (Option Failure) Match) =
        g.trace Strategy.walking.opens classes text offset

theorem Grammar.Agrees.outcomes {g : Grammar} (h : g.Agrees) {offset : Nat}
    (fits : text.size < maxCount) (hoff : offset ≤ text.size) :
    g.outcomes Strategy.standard.opens classes text offset =
      g.outcomes Strategy.walking.opens classes text offset := by
  rw [← Grammar.values_trace (L := Option Failure), h classes text offset fits hoff,
    Grammar.values_trace]

def Entry.Agrees (e : Entry) : Prop :=
  ∀ (classes : CharClasses) (text : Text) (offset : Nat), text.size < maxCount →
    offset ≤ text.size →
      (e.trace Strategy.standard.opens classes text offset : Trace (Option Failure) Match) =
        e.trace Strategy.walking.opens classes text offset

/-- Entries that agree one by one agree one after the other. -/
theorem Grammar.Agrees.of_each {es : List Entry}
    (h : ∀ e ∈ es, e.Agrees ∧ e.Every (fun _ => True) Region.AreColumns) :
    (⟨es⟩ : Grammar).Agrees := by
  intro classes text offset fits hoff
  simp only [Grammar.trace]
  induction es generalizing offset with
  | nil => simp only [Entry.allTrace]
  | cons e es ih =>
    obtain ⟨⟨agrees, built⟩, h⟩ := List.forall_mem_cons.mp h
    simp only [Entry.allTrace]
    rw [agrees classes text offset fits hoff]
    refine Trace.bind_congr fun m hm => ?_
    rw [Entry.values_trace] at hm
    rw [ih h m.stop (Entry.outcomes_within built fits hoff m hm).2]

/-- Repeats that meet the same at every offset of the text, and that miss the same where the
difference is not covered by what they met before. -/
theorem Quantifier.trace_congr {q : Quantifier} {size : Nat}
    {once once' : (repeats offset : Nat) → Trace (Option Failure) Match}
    {missed missed' : (repeats offset : Nat) → Option Failure}
    {stuck stuck' : (repeats offset : Nat) → Bool}
    (honce : ∀ r, ∀ o ≤ size, once r o = once' r o)
    (hmissed : ∀ r, ∀ o ≤ size, ∀ next : Match → Trace (Option Failure) Match,
      (once' r o).bind next ++ .done (missed r o) = (once' r o).bind next ++ .done (missed' r o))
    (hstuck : ∀ r, ∀ o ≤ size, stuck r o = stuck' r o) (repeats offset : Nat) :
    offset ≤ size → q.trace size once missed stuck repeats offset =
      q.trace size once' missed' stuck' repeats offset := by
  induction repeats, offset using Quantifier.room_induction size with
  | step repeats offset ih =>
  intro hoff
  have hnext : Match.goOnTrace size offset (q.trace size once missed stuck (repeats + 1)) =
      Match.goOnTrace size offset (q.trace size once' missed' stuck' (repeats + 1)) := by
    funext m
    simp only [Match.goOnTrace]
    split
    · next hgo => rw [ih (repeats + 1) m.stop hgo.1 hgo.2 hgo.2]
    · rfl
  rw [Quantifier.trace_eq, Quantifier.trace_eq]
  simp only [hnext, honce repeats offset hoff, hstuck repeats offset hoff,
    hmissed repeats offset hoff]

/-- An entry without a secondary grammar, as long as its target meets the same. -/
theorem Entry.traceOf_congr {e : Entry} {walked : Bool} {size : Nat}
    {raw raw' : Nat → Trace (Option Failure) Found}
    {reread : Nat → Found → Seen (Option Failure) (Option Found)}
    (hraw : ∀ o ≤ size, raw o = raw' o) {offset : Nat} (hoff : offset ≤ size) :
    e.traceOf walked size raw reread offset = e.traceOf walked size raw' reread offset := by
  refine Quantifier.trace_congr (fun r o ho => ?_) (fun r o ho next => ?_) (fun r o ho => ?_) 0
    offset hoff <;> simp only [hraw o ho]

/-- An entry that is walked and one that is not, over a grammar without a choice. -/
theorem Entry.traceOf_walked {e : Entry} {size : Nat} {trace : Nat → Trace (Option Failure) Match}
    {reread : Nat → Found → Seen (Option Failure) (Option Found)}
    (hreread : ∀ o found, reread o found = .of (some found))
    (hsure : ∀ o ≤ size, (trace o).Sure o) {offset : Nat} (hoff : offset ≤ size) :
    e.traceOf false size (fun o => (trace o).map Match.found) reread offset =
      e.traceOf true size (fun o => (trace o).map Match.found) reread offset := by
  have hcompleted (r o : Nat) :
      e.completed false (reread o) r o = e.completed true (reread o) r o := by
    funext found
    simp only [Entry.completed, hreread]
    rfl
  have hvalues (r o : Nat) : (((trace o).map Match.found).bind
      (e.completed true (reread o) r o)).values.isEmpty = (trace o).values.isEmpty := by
    simp only [Trace.values_bind, Entry.values_completed, hreread, Trace.values_map]
    cases (trace o).values <;> rfl
  refine Quantifier.trace_congr (fun r o _ => ?_) (fun r o ho next => ?_) (fun r o _ => ?_) 0 offset
    hoff
  · simp only [hcompleted]
  · simp only [hcompleted, hvalues, Bool.false_or, Bool.true_or, if_true]
    obtain ⟨l, m, h⟩ | ⟨f, hf, h⟩ := hsure o ho
    · simp only [h, Trace.values_once, List.isEmpty_cons, Bool.not_false, if_true]
    · -- the failure to find the target is no further than what the grammar left
      have hlt : ¬ f.offset < o := by omega
      simp only [h, Trace.values_done, List.isEmpty_nil, Bool.not_true, Bool.false_eq_true, if_false]
      refine congrArg Trace.done ?_
      simp [FailureLog.merge, FailureLog.of, FailureLog.empty, furthest, further, hlt]
  · simp only [hcompleted, hvalues, Trace.values_map, List.isEmpty_map, if_true, Bool.false_eq_true,
      if_false]

/-- All that a search does with a checker is the same both ways. -/
structure Checker.Agrees (c : Checker) : Prop where
  tried : ∀ (classes : CharClasses) (text : Text) (offset : Nat), text.size < maxCount →
    offset ≤ text.size →
      (c.tried Strategy.standard.opens classes text offset :
        Seen (Option Failure) (Option Found)) = c.tried Strategy.walking.opens classes text offset
  attempted : ∀ (classes : CharClasses) (text : Text) (offset : Nat), text.size < maxCount →
    offset ≤ text.size →
      (c.attempted Strategy.standard.opens classes text offset :
        Seen (Option Failure) (Option Found)) =
          c.attempted Strategy.walking.opens classes text offset
  walked : ∀ g, c = .grammar g → g.Agrees

theorem Checker.Agrees.found {c : Checker} (h : c.Agrees) {offset : Nat}
    (fits : text.size < maxCount) (hoff : offset ≤ text.size) :
    c.found Strategy.standard.opens classes text offset =
      c.found Strategy.walking.opens classes text offset := by
  rw [← Checker.value_tried (L := Option Failure), h.tried classes text offset fits hoff,
    Checker.value_tried]

theorem Checker.Agrees.of_tried {c : Checker} (hg : ∀ g, c ≠ .grammar g)
    (hf : ∀ regions, c ≠ .fixed regions)
    (tried : ∀ (classes : CharClasses) (text : Text) (offset : Nat), text.size < maxCount →
      offset ≤ text.size → (c.tried Strategy.standard.opens classes text offset :
        Seen (Option Failure) (Option Found)) =
          c.tried Strategy.walking.opens classes text offset) : c.Agrees := by
  refine ⟨tried, ?_, fun g heq => absurd heq (hg g)⟩
  cases c with
  | fixed regions => exact absurd rfl (hf regions)
  | _ => exact tried

theorem Checker.Agrees.grammar {g : Grammar} (h : g.Agrees) : (Checker.grammar g).Agrees := by
  have tried : ∀ (classes : CharClasses) (text : Text) (offset : Nat), text.size < maxCount →
      offset ≤ text.size → ((Checker.grammar g).tried Strategy.standard.opens classes text offset :
        Seen (Option Failure) (Option Found)) =
          (Checker.grammar g).tried Strategy.walking.opens classes text offset := by
    intro classes text offset fits hoff
    simp only [Checker.tried, h classes text offset fits hoff]
  exact ⟨tried, tried, fun _ heq => Checker.grammar.inj heq ▸ h⟩

theorem Checker.Agrees.oneOf {cs : List Checker} {fallback : Option Checker}
    (hcs : ∀ c ∈ cs, c.Agrees) (hfallback : ∀ c, fallback = some c → c.Agrees) :
    (Checker.oneOf cs fallback).Agrees := by
  refine .of_tried (by simp) (by simp) fun classes text offset fits hoff => ?_
  have hamong : (Checker.triedAmong Strategy.standard.opens classes cs text offset :
      Seen (Option Failure) (Option Found)) =
        Checker.triedAmong Strategy.walking.opens classes cs text offset := by
    induction cs with
    | nil => simp only [Checker.triedAmong]
    | cons c cs ih =>
      obtain ⟨hc, hcs⟩ := List.forall_mem_cons.mp hcs
      simp only [Checker.triedAmong, ih hcs, hc.tried classes text offset fits hoff]
  have hother : (Checker.triedFallback Strategy.standard.opens classes fallback text offset :
      Seen (Option Failure) (Option Found)) =
        Checker.triedFallback Strategy.walking.opens classes fallback text offset := by
    cases fallback with
    | none => simp only [Checker.triedFallback]
    | some c =>
      simp only [Checker.triedFallback, (hfallback c rfl).tried classes text offset fits hoff]
  simp only [Checker.tried, hamong, hother]

theorem Checker.Agrees.not {item : Checker} (h : item.Agrees) : item.not.Agrees := by
  refine .of_tried (by simp) (by simp) fun classes text offset fits hoff => ?_
  simp only [Checker.tried, Checker.found, h.found fits hoff]

/-- Columns take the same, when their grammars agree. -/
theorem Region.accept_agrees {regions : List Region}
    (h : ∀ region ∈ regions, ∀ g, region.grammar = some g → g.Agrees) (fits : text.size < maxCount)
    (start : Nat) :
    Region.accept Strategy.standard.opens classes regions text start =
      Region.accept Strategy.walking.opens classes regions text start := by
  induction regions generalizing start with
  | nil => simp only [Region.accept]
  | cons region regions ih =>
    obtain ⟨hregion, hregions⟩ := List.forall_mem_cons.mp h
    have haccepts (stop : Nat) :
        Region.accepts Strategy.standard.opens classes region (text.slice start stop) =
          Region.accepts Strategy.walking.opens classes region (text.slice start stop) := by
      have hslice := Nat.lt_of_le_of_lt (Text.size_slice_le text start stop) fits
      obtain ⟨name, width, _ | g⟩ := region
      · simp only [Region.accepts]
      · simp only [Region.accepts, (hregion g rfl).outcomes hslice (Nat.zero_le _)]
    simp only [Region.accept, haccepts, ih hregions]

theorem Checker.Agrees.fixed {regions : List Region}
    (h : ∀ region ∈ regions, ∀ g, region.grammar = some g → g.Agrees) :
    (Checker.fixed regions).Agrees := by
  refine ⟨fun classes text offset fits _ => ?_, fun classes text offset fits _ => ?_,
    fun _ heq => (nomatch heq)⟩
  · simp only [Checker.tried, Checker.found, Region.accept_agrees h fits]
  · simp only [Checker.attempted, Region.accept_agrees h fits]

/-- An entry without a secondary grammar agrees when its checker does. -/
theorem Entry.agrees_of {e : Entry} {c : Checker} (ht : e.target = .checker c)
    (hsecond : e.secondary = none) (hc : c.Agrees)
    (hsure : ∀ g, c = .grammar g → g.isDeterministic = some true → ∀ (classes : CharClasses)
      (text : Text) (offset : Nat), text.size < maxCount → offset ≤ text.size →
        (g.trace Strategy.standard.opens classes text offset :
          Trace (Option Failure) Match).Sure offset) : e.Agrees := by
  intro classes text offset fits hoff
  obtain ⟨capture, target, q, second⟩ := e
  obtain rfl : target = .checker c := ht
  obtain rfl : second = none := hsecond
  rw [Entry.trace, Entry.trace]
  simp only [Grammar.reread]
  cases hw : (Target.checker c).isWalked Strategy.standard.opens with
  | true =>
    cases c with
    | grammar g =>
      have hopens : Strategy.standard.opens g = true := hw
      have hagrees := hc.walked g rfl
      refine Entry.traceOf_congr (fun o ho => ?_) hoff
      simp only [Target.trace, hopens, if_true, hagrees classes text o fits ho, Strategy.walking]
    | _ => cases hw
  | false =>
    by_cases hgrammar : ∃ g, c = .grammar g
    · obtain ⟨g, rfl⟩ := hgrammar
      have hagrees := hc.walked g rfl
      have hd : g.isDeterministic = some true := by
        simpa [Target.isWalked, Strategy.standard] using hw
      have hsure : ∀ o ≤ text.size, (g.trace Strategy.walking.opens classes text o :
          Trace (Option Failure) Match).Sure o := by
        intro o ho
        rw [← hagrees classes text o fits ho]
        exact hsure g rfl hd classes text o fits ho
      refine (Entry.traceOf_congr (fun o ho => ?_) hoff).trans
        (Entry.traceOf_walked (fun _ _ => rfl) hsure hoff)
      rw [Target.trace_attempted hw]
      simp only [Checker.attempted, Checker.tried, hagrees classes text o fits ho]
      exact (hsure o ho).map_found _
    · have hw' : (Target.checker c).isWalked Strategy.walking.opens = false := by
        cases c with
        | grammar g => exact absurd ⟨g, rfl⟩ hgrammar
        | _ => rfl
      rw [hw']
      refine Entry.traceOf_congr (fun o ho => ?_) hoff
      rw [Target.trace_attempted hw, Target.trace_attempted hw',
        hc.attempted classes text o fits ho]

/-- The entry matches with a checker, and what it matched stands as it is. -/
def Entry.IsSimple (e : Entry) : Prop := e.HasChecker ∧ e.HasNoSecond

mutual

/-- **The shortcut makes no difference** to what a search meets in a grammar. -/
theorem Grammar.agrees : ∀ {g : Grammar}, g.Every Entry.IsSimple Region.AreColumns → g.Agrees
  | ⟨_⟩, h => .of_each (Entry.eachAgrees h)

theorem Grammar.agreesIn : ∀ {g? : Option Grammar},
    Grammar.EveryIn Entry.IsSimple Region.AreColumns g? → ∀ g, g? = some g → g.Agrees
  | none, _, _ => fun h => nomatch h
  | some _, h, _ => fun heq => Option.some.inj heq ▸ Grammar.agrees h

theorem Entry.eachAgrees : ∀ {es : List Entry},
    Entry.EveryOf Entry.IsSimple Region.AreColumns es →
      ∀ e ∈ es, e.Agrees ∧ e.Every (fun _ => True) Region.AreColumns
  | [], _ => fun _ he => nomatch he
  | _ :: _, h => List.forall_mem_cons.mpr ⟨⟨Entry.agrees h.1, h.1.built⟩, Entry.eachAgrees h.2⟩

theorem Entry.agrees : ∀ {e : Entry}, e.Every Entry.IsSimple Region.AreColumns → e.Agrees
  | ⟨_, .checker _, _, _⟩, h =>
    Entry.agrees_of rfl h.1.2 (Checker.agrees h.2.1) fun _ heq hd _ _ _ fits hoff =>
      Grammar.trace_sure (heq ▸ h.2.1) hd fits hoff
  | ⟨_, .ref _, _, _⟩, h => nomatch h.1.1
  | ⟨_, .type _, _, _⟩, h => nomatch h.1.1

theorem Checker.agrees : ∀ {c : Checker}, c.Every Entry.IsSimple Region.AreColumns → c.Agrees
  | .char _, _ | .word _, _ | .any _, _ =>
    .of_tried (by simp) (by simp) fun classes text offset _ _ => by
      simp only [Checker.tried, Checker.found]
  | .oneOf _ _, h => .oneOf (Checker.eachAgrees h.1) (Checker.agreesIn h.2)
  | .not item, h => .not (Checker.agrees (c := item) h)
  | .fixed _, h => .fixed (Region.eachAgrees h.2)
  | .grammar g, h => .grammar (Grammar.agrees (g := g) h)

theorem Checker.eachAgrees : ∀ {cs : List Checker},
    Checker.EveryOf Entry.IsSimple Region.AreColumns cs → ∀ c ∈ cs, c.Agrees
  | [], _ => fun _ hc => nomatch hc
  | _ :: _, h => List.forall_mem_cons.mpr ⟨Checker.agrees h.1, Checker.eachAgrees h.2⟩

theorem Checker.agreesIn : ∀ {fallback : Option Checker},
    Checker.EveryIn Entry.IsSimple Region.AreColumns fallback → ∀ c, fallback = some c → c.Agrees
  | none, _, _ => fun h => nomatch h
  | some c, h, _ => fun heq => Option.some.inj heq ▸ Checker.agrees (c := c) h

theorem Region.eachAgrees : ∀ {regions : List Region},
    Region.EveryOf Entry.IsSimple Region.AreColumns regions →
      ∀ region ∈ regions, ∀ g, region.grammar = some g → g.Agrees
  | [], _ => fun _ h => nomatch h
  | ⟨_, _, _⟩ :: _, h => List.forall_mem_cons.mpr ⟨Grammar.agreesIn h.1, Region.eachAgrees h.2⟩

end

end

/-- **The shortcut cannot be told.** A search for a grammar without types and without secondary
grammars ends with the same answer, its match or the failure that got furthest, when it walks every
nested grammar and when it walks only those that leave a choice. -/
theorem Grammar.search_eq_walking {g : Grammar} (untyped : g.Untyped) (single : g.Single)
    (built : g.Built) (types : TypeEnv) {text : Text} (fits : text.size < maxCount) {start : Nat}
    (hstart : start ≤ text.size) (mode : Mode) :
    ∃ enough answer, ∀ fuel ≥ enough,
      searchWithin fuel (types.setting text) mode g start = .ok answer ∧
      searchWithin fuel { types.setting text with strategy := .walking } mode g start =
        .ok answer := by
  have simple : g.Every Entry.IsSimple Region.AreColumns :=
    Grammar.Every.combine (fun _ hc hs => ⟨hc, hs⟩) (fun _ hc _ => hc) (built.both untyped) single
  have hagrees := Grammar.agrees simple types.classes text start fits hstart
  have hshort := Grammar.searchWithin_eventually untyped built (types.setting text) fits hstart mode
  have hwalked := Grammar.searchWithin_eventually untyped built
    { types.setting text with strategy := .walking } fits hstart mode
  obtain ⟨enough, h⟩ := Filter.eventually_atTop.mp (hshort.and hwalked)
  refine ⟨enough, _, fun fuel hfuel => ⟨(h fuel hfuel).1, ?_⟩⟩
  rw [(h fuel hfuel).2]
  simp only [TypeEnv.setting, hagrees]

/-- As many `a` as there are, in a grammar of their own that gives none back, and then `b`. -/
def Grammar.takingAll : Grammar :=
  ⟨[.ofChecker (.sequence [(Entry.ofChecker (.single 'a')).quantified .zeroOrMore]),
    .ofChecker (.single 'b')]⟩

/-- Only with the shortcut the grammar of all `a` is a search of its own. -/
theorem Grammar.takingAll_search : Grammar.takingAll.Untyped ∧ Grammar.takingAll.Single ∧
    Grammar.takingAll.Built ∧ ∃ enough answer, ∀ fuel ≥ enough,
      searchWithin fuel (TypeEnv.bare.setting #['a', 'a', 'c']) .whole Grammar.takingAll 0 =
        .ok answer ∧
      searchWithin fuel { TypeEnv.bare.setting #['a', 'a', 'c'] with strategy := .walking } .whole
        Grammar.takingAll 0 = .ok answer := by
  have untyped : Grammar.takingAll.Untyped :=
    ⟨⟨⟨_, rfl⟩, ⟨⟨⟨_, rfl⟩, trivial, trivial⟩, trivial⟩, trivial⟩,
      ⟨⟨_, rfl⟩, trivial, trivial⟩, trivial⟩
  have single : Grammar.takingAll.Single :=
    ⟨⟨rfl, ⟨⟨rfl, trivial, trivial⟩, trivial⟩, trivial⟩, ⟨rfl, trivial, trivial⟩, trivial⟩
  have built : Grammar.takingAll.Built :=
    ⟨⟨trivial, ⟨⟨trivial, trivial, trivial⟩, trivial⟩, trivial⟩,
      ⟨trivial, trivial, trivial⟩, trivial⟩
  have fits : #['a', 'a', 'c'].size < maxCount := by decide
  exact ⟨untyped, single, built,
    Grammar.search_eq_walking untyped single built .bare fits (Nat.zero_le _) .whole⟩

end TextGrammar
