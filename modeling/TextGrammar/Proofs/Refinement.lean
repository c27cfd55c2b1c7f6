/-
The search machine answers with the outcomes of `TextGrammar.Proofs.Outcomes`:
for a grammar without types, from every offset of every text, a search with
enough steps ends as the trace of the grammar says.
-/
import TextGrammar.Proofs.Repeats

open Filter (atTop)

namespace TextGrammar

variable {L : Type} [FailureLog L]

/-! ## From entries to searches -/

section

variable [LawfulFailureLog L] {setting : Setting} {mode : Mode} {result : Seen L (Option Match)}

/-- At the end of the outermost session the first outcome the mode accepts is the answer. -/
theorem Trace.carries_settle {start : Nat} {t : Trace L Match} {base : Array Snapshot} {failures : L}
    (hbase : base.size = 0)
    (hresult : result = ⟨(t.settle mode setting.text.size).value,
      FailureLog.merge failures (t.settle mode setting.text.size).failures⟩) :
    t.Carries (Fails setting mode result)
      ((⟨start, none, []⟩ : Frame).GoesOn setting mode result [] .empty) base failures := by
  induction t generalizing base failures with
  | done l =>
    have : base = #[] := Array.size_eq_zero_iff.mp hbase
    subst this
    exact Fails.empty hresult.symm
  | offer l m later ih =>
    intro above hback
    have hstep (run : Runner L) : ((⟨start, none, []⟩ : Frame).state [] 0
        (Trail.empty.pushAll m.nodes) (base ++ above) m.stop false (FailureLog.merge failures
          l)).step run setting mode =
        if mode == .whole && m.stop != setting.text.size then
          .ok (((⟨start, none, []⟩ : Frame).state [] 0 (Trail.empty.pushAll m.nodes) (base ++ above)
            m.stop false (FailureLog.merge failures l)).fail m.stop .endOfInput 0).giveUp
        else .ok (.done (some ⟨m.stop, (Trail.empty.pushAll m.nodes).toList⟩)
          (FailureLog.merge failures l)) := rfl
    simp only [settle] at hresult
    split at hresult
    · next hgo =>
      refine Machine.Ends.of_step (fun run => (hstep run).trans (if_pos hgo)) ?_
      refine Fails.giveUp (hback base _ rfl (ih hbase ?_))
      simp only [hresult, Frame.state, LawfulFailureLog.merge_assoc]
    · next hgo =>
      refine Machine.Ends.of_step (fun run => (hstep run).trans (if_neg hgo)) ?_
      have htrail : (Trail.empty.pushAll m.nodes).toList = m.nodes := by simp
      rw [hresult, htrail]
      rfl

/-- A grammar is followed when its entries are. -/
theorem Entry.AllFollowed.grammar {g : Grammar} (h : Entry.AllFollowed L g.entries) :
    g.Followed L := by
  intro setting mode offset fits hoff
  refine h setting mode _ ⟨offset, none, []⟩ .empty offset #[] FailureLog.empty fits hoff ?_
  refine Trace.carries_settle rfl ?_
  obtain ⟨entries⟩ := g
  simp only [Grammar.trace, LawfulFailureLog.empty_merge]

/-- A search that stands at the entry goes on as the trace of the entry says. -/
def Entry.Followed (L : Type) [FailureLog L] (e : Entry) : Prop :=
  ∀ (setting : Setting) (mode : Mode) (result : Seen L (Option Match)) (frame : Frame)
    (rest : List Entry) (nodes : Trail) (offset : Nat) (base : Array Snapshot) (failures : L),
    setting.text.size < maxCount → offset ≤ setting.text.size →
    (e.trace setting.strategy.opens setting.types.classes setting.text offset).Carries
      (Fails setting mode result) (frame.GoesOn setting mode result rest nodes) base failures →
    (frame.state (e :: rest) 0 nodes base offset false failures).Ends setting mode result

omit [LawfulFailureLog L] in
/-- Repeats of an entry stay in the text. -/
theorem Entry.once_within {e : Entry} (built : e.Every (fun _ => True) Region.AreColumns)
    {opens : Grammar → Bool} {classes : CharClasses} {text : Text} {offset : Nat}
    (fits : text.size < maxCount) (hoff : offset ≤ text.size) {walked : Bool}
    {reread : Found → Seen L (Option Found)} {repeats : Nat} {m : Match}
    (hm : m ∈ ((e.target.trace opens classes text offset : Trace L Found).bind
      (e.completed walked reread repeats offset)).values) :
    offset ≤ m.stop ∧ m.stop ≤ text.size := by
  simp only [Trace.values_bind, List.mem_flatMap, Entry.values_completed, Option.mem_toList,
    Option.map_eq_some_iff] at hm
  obtain ⟨found, hfound, kept, -, rfl⟩ := hm
  rw [Target.values_trace] at hfound
  exact Target.outcomes_within built.target fits hoff found hfound

/-- Entries one after the other are followed when each of them is. -/
theorem Entry.AllFollowed.of_each {es : List Entry}
    (h : ∀ e ∈ es, e.Followed L ∧ e.Every (fun _ => True) Region.AreColumns) :
    Entry.AllFollowed L es := by
  induction es with
  | nil =>
    intro setting mode result frame nodes offset base failures _ _ h
    simp only [Entry.allTrace] at h
    exact Trace.Carries.of_one h
  | cons e es ih =>
    obtain ⟨⟨followed, built⟩, h⟩ := List.forall_mem_cons.mp h
    intro setting mode result frame nodes offset base failures fits hoff ht
    simp only [Entry.allTrace] at ht
    refine followed setting mode result frame es nodes offset base failures fits hoff ?_
    refine Trace.Carries.of_bind (fun m hm snapshots failures hrest => ?_) ht
    rw [Entry.values_trace] at hm
    have within := Entry.outcomes_within built fits hoff m hm
    refine ih h setting mode result frame (nodes.pushAll m.nodes) m.stop snapshots failures fits
      within.2 ?_
    rw [Frame.goesOn_after]
    exact Trace.Carries.map_iff.mp hrest

end

/-! ## Checkers -/

/-- The length of a checker is that of its one match. -/
def Checker.Measured (L : Type) [FailureLog L] (c : Checker) : Prop :=
  ∀ (setting : Setting) (offset : Nat), setting.text.size < maxCount →
    offset ≤ setting.text.size → ∀ᶠ fuel in atTop,
      c.lengthAt (runWithin (L := L) fuel) setting offset =
        .ok ((c.found setting.strategy.opens setting.types.classes setting.text offset).map
          (·.stop - offset))

/-- As a choice a checker comes to its one match. -/
def Checker.Chosen (L : Type) [FailureLog L] (c : Checker) : Prop :=
  ∀ (setting : Setting) (offset : Nat), setting.text.size < maxCount →
    offset ≤ setting.text.size → ∀ᶠ fuel in atTop,
      c.choiceAt (runWithin (L := L) fuel) setting offset =
        .ok (c.tried setting.strategy.opens setting.types.classes setting.text offset)

/-- All that a search does with a checker goes as the checker's trace says. -/
structure Checker.Known (L : Type) [FailureLog L] (c : Checker) : Prop where
  walks : ∀ g, c = .grammar g → Entry.AllFollowed L g.entries
  measured : c.Measured L
  chosen : c.Chosen L
  followed : c.Followed L

theorem Found.leaf_length (offset : Nat) (length : Option Nat) :
    (Found.leaf offset length).map (·.stop - offset) = length := by
  cases length with
  | none => rfl
  | some n =>
    simp only [Found.leaf, Option.map_some, Option.some.injEq]
    omega

theorem longerLength_found (offset : Nat) (a b : Option Found) :
    longerLength (a.map (·.stop - offset)) (b.map (·.stop - offset)) =
      (longer a b).map (·.stop - offset) := by
  cases a <;> cases b <;> try rfl
  next a b =>
    simp only [longer, further, longerLength, Option.map_some]
    split <;> simp only [Option.map_some, Option.some.injEq] <;> omega

section

variable {setting : Setting} {offset : Nat} (fits : setting.text.size < maxCount)
  (hoff : offset ≤ setting.text.size)
include fits hoff

theorem Checker.longestAt_eventually {cs : List Checker} (h : ∀ c ∈ cs, c.Known L) :
    ∀ᶠ fuel in atTop, Checker.longestAt (runWithin (L := L) fuel) setting offset cs =
      .ok ((Checker.longestFound setting.strategy.opens setting.types.classes cs setting.text
        offset).map (·.stop - offset)) := by
  induction cs with
  | nil =>
    refine Filter.Eventually.of_forall fun fuel => ?_
    simp only [Checker.longestAt, Checker.longestFound, Option.map_none]
  | cons c cs ih =>
    obtain ⟨hc, hcs⟩ := List.forall_mem_cons.mp h
    filter_upwards [ih hcs, hc.measured setting offset fits hoff] with fuel hlater hhere
    simp only [Checker.longestAt, hlater, hhere, Bind.bind, Except.bind, longerLength_found,
      Checker.longestFound]
    rfl

theorem Checker.choicesAt_eventually {cs : List Checker} (h : ∀ c ∈ cs, c.Known L) :
    ∀ᶠ fuel in atTop, Checker.choicesAt (runWithin (L := L) fuel) setting offset cs =
      .ok (Checker.triedAmong setting.strategy.opens setting.types.classes cs setting.text
        offset) := by
  induction cs with
  | nil =>
    refine Filter.Eventually.of_forall fun fuel => ?_
    simp only [Checker.choicesAt, Checker.triedAmong]
  | cons c cs ih =>
    obtain ⟨hc, hcs⟩ := List.forall_mem_cons.mp h
    filter_upwards [ih hcs, hc.chosen setting offset fits hoff] with fuel hlater hhere
    simp only [Checker.choicesAt, hlater, hhere, Bind.bind, Except.bind, Checker.triedAmong]
    rfl

theorem Checker.fallbackLengthAt_eventually {fallback : Option Checker}
    (h : ∀ c, fallback = some c → c.Known L) : ∀ᶠ fuel in atTop,
      Checker.fallbackLengthAt (runWithin (L := L) fuel) setting offset fallback =
        .ok ((Checker.fallbackFound setting.strategy.opens setting.types.classes fallback
          setting.text offset).map (·.stop - offset)) := by
  cases fallback with
  | none =>
    refine Filter.Eventually.of_forall fun fuel => ?_
    simp only [Checker.fallbackLengthAt, Checker.fallbackFound, Option.map_none]
  | some c =>
    filter_upwards [(h c rfl).measured setting offset fits hoff] with fuel hc
    simp only [Checker.fallbackLengthAt, hc, Checker.fallbackFound]

theorem Checker.fallbackAt_eventually {fallback : Option Checker}
    (h : ∀ c, fallback = some c → c.Known L) : ∀ᶠ fuel in atTop,
      Checker.fallbackAt (runWithin (L := L) fuel) setting offset fallback =
        .ok (Checker.triedFallback setting.strategy.opens setting.types.classes fallback
          setting.text offset) := by
  cases fallback with
  | none =>
    refine Filter.Eventually.of_forall fun fuel => ?_
    simp only [Checker.fallbackAt, Checker.triedFallback]
  | some c =>
    filter_upwards [(h c rfl).chosen setting offset fits hoff] with fuel hc
    simp only [Checker.fallbackAt, hc, Checker.triedFallback]

end

/-! ## Columns -/

/-- Columns have their layout when each of them takes its grammar. -/
theorem Region.spansFrom_eventually {regions : List Region}
    (h : ∀ region ∈ regions, ∀ g, region.grammar = some g → g.Followed L) {setting : Setting}
    (fits : setting.text.size < maxCount) (start : Nat) : ∀ᶠ fuel in atTop,
      Region.spansFrom (runWithin (L := L) fuel) setting start regions =
        .ok (if Region.accept setting.strategy.opens setting.types.classes regions setting.text start
          then some (Region.layout setting.text.size start regions) else none) := by
  induction regions generalizing start with
  | nil =>
    refine Filter.Eventually.of_forall fun fuel => ?_
    simp only [Region.spansFrom, Region.accept, if_true, Region.layout]
  | cons region regions ih =>
    obtain ⟨hregion, hregions⟩ := List.forall_mem_cons.mp h
    obtain ⟨stop, hstop⟩ : ∃ stop, region.width.elim setting.text.size (start + ·) = stop :=
      ⟨_, rfl⟩
    have hfits : ∀ᶠ fuel in atTop, region.fits (runWithin (L := L) fuel) setting
        (setting.text.slice start stop) = .ok (Region.accepts setting.strategy.opens
          setting.types.classes region (setting.text.slice start stop)) := by
      obtain ⟨name, width, _ | g⟩ := region
      · exact Filter.Eventually.of_forall fun _ => by simp only [Region.fits, Region.accepts]
      · have hslice : (setting.text.slice start stop).size < maxCount :=
          Nat.lt_of_le_of_lt (Text.size_slice_le setting.text start stop) fits
        have hg : ∀ᶠ fuel in atTop, g.matchesAll (runWithin (L := L) fuel) setting
            (setting.text.slice start stop) = .ok ((g.outcomes setting.strategy.opens
              setting.types.classes (setting.text.slice start stop) 0).any
                (·.stop == (setting.text.slice start stop).size)) :=
          (hregion g rfl).matchesAll hslice
        filter_upwards [hg] with fuel hg
        simp only [Region.fits, hg, Region.accepts]
    filter_upwards [hfits, ih hregions stop] with fuel hfits hrest
    simp only [Region.spansFrom_cons, Region.accept, Region.layout, hstop, hfits, hrest, Bind.bind,
      Except.bind]
    cases Region.accepts _ _ _ _ with
    | false => rfl
    | true => cases Region.accept _ _ _ _ _ <;> rfl

/-! ## All parts of a grammar -/

/-- For a checker without nodes the length is all there is to know. -/
theorem Checker.Known.of_measured {c : Checker} (hg : ∀ g, c ≠ .grammar g)
    (hc : ∀ cs fb, c ≠ .oneOf cs fb) (hf : ∀ regions, c ≠ .fixed regions)
    (built : c.Every (fun _ => True) Region.AreColumns) (measured : c.Measured L) : c.Known L := by
  have chosen : c.Chosen L := by
    intro setting offset fits hoff
    filter_upwards [measured setting offset fits hoff] with fuel hlength
    exact Checker.choiceAt_leaf hg hc built fits hoff hlength
  refine ⟨fun g heq => absurd heq (hg g), measured, chosen, ?_⟩
  cases c with
  | fixed regions => exact absurd rfl (hf regions)
  | _ => exact chosen

theorem Checker.Known.grammar [LawfulFailureLog L] {g : Grammar}
    (h : Entry.AllFollowed L g.entries) : (Checker.grammar g).Known L where
  walks _ heq := Checker.grammar.inj heq ▸ h
  measured setting offset fits hoff := by
    filter_upwards [h.grammar.lengthAt fits hoff] with fuel hlength
    simp only [Checker.lengthAt, hlength, Checker.found, Option.map_map]
    rfl
  chosen _ _ fits hoff := h.grammar.choiceAt fits hoff
  followed _ _ fits hoff := h.grammar.choiceAt fits hoff

theorem Checker.Known.oneOf {cs : List Checker} {fallback : Option Checker}
    (hcs : ∀ c ∈ cs, c.Known L) (hfallback : ∀ c, fallback = some c → c.Known L) :
    (Checker.oneOf cs fallback).Known L := by
  have chosen : (Checker.oneOf cs fallback).Chosen L := by
    intro setting offset fits hoff
    filter_upwards [Checker.choicesAt_eventually fits hoff hcs,
      Checker.fallbackAt_eventually fits hoff hfallback] with fuel hchosen hother
    simp only [Checker.choiceAt, hchosen, hother, Checker.tried, Bind.bind, Except.bind]
    rcases Checker.triedAmong _ _ _ _ _ with ⟨_ | _, _⟩ <;> rfl
  refine ⟨by simp, ?_, chosen, chosen⟩
  intro setting offset fits hoff
  filter_upwards [Checker.longestAt_eventually fits hoff hcs,
    Checker.fallbackLengthAt_eventually fits hoff hfallback] with fuel hlongest hother
  simp only [Checker.lengthAt, hlongest, hother, Checker.found, Bind.bind, Except.bind]
  cases Checker.longestFound _ _ _ _ _ <;> rfl

theorem Checker.Known.not {item : Checker} (built : item.Every (fun _ => True) Region.AreColumns)
    (h : item.Known L) : item.not.Known L := by
  refine .of_measured (by simp) (by simp) (by simp) built fun setting offset fits hoff => ?_
  filter_upwards [h.measured setting offset fits hoff] with fuel hitem
  simp only [Checker.lengthAt, Checker.found, Found.leaf_length, hitem, Bind.bind, Except.bind]
  split
  · rfl
  · cases Checker.found _ _ _ _ _ <;> rfl

theorem Checker.Known.fixed {regions : List Region}
    (built : (Checker.fixed regions).Every (fun _ => True) Region.AreColumns)
    (h : ∀ region ∈ regions, ∀ g, region.grammar = some g → g.Followed L) :
    (Checker.fixed regions).Known L := by
  have measured : (Checker.fixed regions).Measured L := by
    intro setting offset fits hoff
    filter_upwards [Region.spansFrom_eventually h fits offset] with fuel hspans
    simp only [Checker.lengthAt, Region.spansAt, hspans, Checker.found]
    by_cases hfit : offset + Region.declaredWidth regions ≤ setting.text.size
    · simp only [hfit, if_true, decide_true, Bool.true_and]
      split <;> rfl
    · simp only [hfit, if_false, decide_false, Bool.false_and]
      rfl
  refine ⟨by simp, measured, ?_, ?_⟩
  · intro setting offset fits hoff
    filter_upwards [measured setting offset fits hoff] with fuel hlength
    exact Checker.choiceAt_leaf (by simp) (by simp) built fits hoff hlength
  · intro setting offset fits hoff
    filter_upwards [Region.spansFrom_eventually h fits offset] with fuel hspans
    simp only [Checker.foundAt, Region.spansAt, hspans, Checker.attempted]
    by_cases hfit : offset + Region.declaredWidth regions ≤ setting.text.size
    · simp only [hfit, if_true, decide_true, Bool.true_and]
      split <;> rfl
    · simp only [hfit, if_false, decide_false, Bool.false_and]
      rfl

theorem Entry.trace_eq (opens : Grammar → Bool) (classes : CharClasses) (e : Entry) (text : Text)
    (offset : Nat) :
    (e.trace opens classes text offset : Trace L Match) =
      e.traceOf (e.target.isWalked opens) text.size (e.target.trace opens classes text)
        (Grammar.reread opens classes e.secondary text) offset := by
  obtain ⟨capture, target, q, second⟩ := e
  rw [Entry.trace]

section

variable [LawfulFailureLog L] {e : Entry} {setting : Setting} {mode : Mode}
  {result : Seen L (Option Match)} {frame : Frame} {rest : List Entry} {nodes : Trail}
  {offset : Nat} {base : Array Snapshot} {failures : L}

/-- The search goes on after an entry that is not walked, as the trace of the entry says. -/
theorem Entry.ends_at_once {c : Checker} (ht : e.target = .checker c)
    (hw : e.target.isWalked setting.strategy.opens = false)
    (built : e.Every (fun _ => True) Region.AreColumns)
    (builtTarget : c.Every (fun _ => True) Region.AreColumns) (hc : c.Followed L)
    (hs : ∀ g, e.secondary = some g → g.Followed L) (fits : setting.text.size < maxCount)
    (hoff : offset ≤ setting.text.size)
    (h : (e.trace setting.strategy.opens setting.types.classes setting.text offset).Carries
      (Fails setting mode result) (frame.GoesOn setting mode result rest nodes) base failures) :
    (frame.state (e :: rest) 0 nodes base offset false failures).Ends setting mode result := by
  rw [Entry.trace_eq, hw] at h
  let seen (offset : Nat) : Seen L (Option Match) :=
    e.attempted (Grammar.reread setting.strategy.opens setting.types.classes e.secondary
      setting.text offset) offset
      (c.attempted setting.strategy.opens setting.types.classes setting.text offset)
  have honce (repeats offset : Nat) : (e.target.trace setting.strategy.opens setting.types.classes
      setting.text offset).bind (e.completed false (Grammar.reread setting.strategy.opens
        setting.types.classes e.secondary setting.text offset) repeats offset) =
      .ofSeen (seen offset) := by
    rw [ht] at hw
    rw [ht, Target.trace_attempted hw, Entry.bind_completed]
  have hattempt (m : Machine L) (hm : m.offset ≤ setting.text.size) : ∀ᶠ fuel in atTop,
      m.attempt (runWithin fuel) setting e =
        .ok (m.record (seen m.offset).failures, (seen m.offset).attempt) :=
    hc.attempt ht hs hw builtTarget fits hm
  refine (Frame.repeats_at_once hattempt).ends ?_ 0 offset nodes base failures hoff ?_
  · intro repeats offset hoff m hm
    rw [← honce repeats offset] at hm
    exact Entry.once_within built fits hoff hm
  · have hempty (o : Option Match) : o.toList.isEmpty = o.isNone := by cases o <;> rfl
    simpa only [Entry.traceOf, honce, Bool.false_or, Trace.values_ofSeen, hempty,
      Option.not_isNone, Bool.false_eq_true, if_false] using h

/-- The search goes on after an entry whose grammar is walked, as the trace of the entry says. -/
theorem Entry.ends_walked {g : Grammar} (ht : e.target = .checker (.grammar g))
    (hopens : setting.strategy.opens g = true)
    (built : e.Every (fun _ => True) Region.AreColumns) (builtTarget : g.Built)
    (hg : Entry.AllFollowed L g.entries) (hs : ∀ g, e.secondary = some g → g.Followed L)
    (fits : setting.text.size < maxCount) (hoff : offset ≤ setting.text.size)
    (h : (e.trace setting.strategy.opens setting.types.classes setting.text offset).Carries
      (Fails setting mode result) (frame.GoesOn setting mode result rest nodes) base failures) :
    (frame.state (e :: rest) 0 nodes base offset false failures).Ends setting mode result := by
  have hw : e.target.isWalked setting.strategy.opens = true := by rwa [ht]
  have hraw (offset : Nat) : (e.target.trace setting.strategy.opens setting.types.classes
      setting.text offset : Trace L Found) = (g.trace setting.strategy.opens
        setting.types.classes setting.text offset).map Match.found := by
    rw [ht]
    simp only [Target.trace, hopens, if_true]
  rw [Entry.trace_eq] at h
  refine (Frame.repeats_walked ht hopens hg hs builtTarget fits).ends ?_ 0 offset nodes base
    failures hoff ?_
  · intro repeats offset hoff m hm
    simp only [← hraw] at hm
    exact Entry.once_within built fits hoff hm
  · simpa only [Entry.traceOf, hw, hraw, Bool.true_or, if_true] using h

end

/-- An entry is followed when its checker and its secondary grammar are. -/
theorem Entry.followed_of [LawfulFailureLog L] {e : Entry} {c : Checker}
    (ht : e.target = .checker c) (built : e.Every (fun _ => True) Region.AreColumns)
    (hc : c.Known L) (hs : ∀ g, e.secondary = some g → g.Followed L) : e.Followed L := by
  intro setting mode result frame rest nodes offset base failures fits hoff h
  have builtTarget : c.Every (fun _ => True) Region.AreColumns := by
    have := built.target
    rwa [ht] at this
  cases hw : e.target.isWalked setting.strategy.opens with
  | false => exact Entry.ends_at_once ht hw built builtTarget hc.followed hs fits hoff h
  | true =>
    rw [ht] at hw
    cases c with
    | grammar g => exact Entry.ends_walked ht hw built builtTarget (hc.walks g rfl) hs fits hoff h
    | _ => cases hw

mutual

/-- **A grammar is followed**, and with it all of its parts. -/
theorem Grammar.walks [LawfulFailureLog L] : ∀ {g : Grammar},
    g.Every Entry.HasChecker Region.AreColumns → Entry.AllFollowed L g.entries
  | ⟨_⟩, h => .of_each (Entry.eachFollowed h)

theorem Grammar.followedIn [LawfulFailureLog L] : ∀ {second : Option Grammar},
    Grammar.EveryIn Entry.HasChecker Region.AreColumns second →
      ∀ g, second = some g → g.Followed L
  | none, _, _ => fun h => nomatch h
  | some _, h, _ => fun heq => Option.some.inj heq ▸ (Grammar.walks h).grammar

theorem Entry.eachFollowed [LawfulFailureLog L] : ∀ {es : List Entry},
    Entry.EveryOf Entry.HasChecker Region.AreColumns es →
      ∀ e ∈ es, e.Followed L ∧ e.Every (fun _ => True) Region.AreColumns
  | [], _ => fun _ he => nomatch he
  | _ :: _, h => List.forall_mem_cons.mpr ⟨⟨Entry.followed h.1, h.1.built⟩, Entry.eachFollowed h.2⟩

theorem Entry.followed [LawfulFailureLog L] : ∀ {e : Entry},
    e.Every Entry.HasChecker Region.AreColumns → e.Followed L
  | ⟨_, .checker _, _, _⟩, h =>
    Entry.followed_of rfl h.built (Checker.known h.2.1) (Grammar.followedIn h.2.2)
  | ⟨_, .ref _, _, _⟩, h => nomatch h.1
  | ⟨_, .type _, _, _⟩, h => nomatch h.1

theorem Checker.known [LawfulFailureLog L] : ∀ {c : Checker},
    c.Every Entry.HasChecker Region.AreColumns → c.Known L
  | .char _, h => .of_measured (by simp) (by simp) (by simp) h.built fun setting offset _ _ => by
    refine Filter.Eventually.of_forall fun fuel => ?_
    cases hc : setting.text[offset]? <;>
      simp only [Checker.lengthAt, Checker.found, Found.leaf_length, hc]
  | .word _, h | .any _, h =>
    .of_measured (by simp) (by simp) (by simp) h.built fun setting offset _ _ => by
      refine Filter.Eventually.of_forall fun fuel => ?_
      simp only [Checker.lengthAt, Checker.found, Found.leaf_length]
  | .oneOf _ _, h => .oneOf (Checker.eachKnown h.1) (Checker.knownIn h.2)
  | .not item, h => .not h.built (Checker.known (c := item) h)
  | .fixed _, h => .fixed h.built (Region.eachFollowed h.2)
  | .grammar g, h => .grammar (Grammar.walks (g := g) h)

theorem Checker.eachKnown [LawfulFailureLog L] : ∀ {cs : List Checker},
    Checker.EveryOf Entry.HasChecker Region.AreColumns cs → ∀ c ∈ cs, c.Known L
  | [], _ => fun _ hc => nomatch hc
  | _ :: _, h => List.forall_mem_cons.mpr ⟨Checker.known h.1, Checker.eachKnown h.2⟩

theorem Checker.knownIn [LawfulFailureLog L] : ∀ {fallback : Option Checker},
    Checker.EveryIn Entry.HasChecker Region.AreColumns fallback →
      ∀ c, fallback = some c → c.Known L
  | none, _, _ => fun h => nomatch h
  | some c, h, _ => fun heq => Option.some.inj heq ▸ Checker.known (c := c) h

theorem Region.eachFollowed [LawfulFailureLog L] : ∀ {regions : List Region},
    Region.EveryOf Entry.HasChecker Region.AreColumns regions →
      ∀ region ∈ regions, ∀ g, region.grammar = some g → g.Followed L
  | [], _ => fun _ h => nomatch h
  | ⟨_, _, _⟩ :: _, h =>
    List.forall_mem_cons.mpr ⟨Grammar.followedIn h.1, Region.eachFollowed h.2⟩

end

/-! ## Answers -/

/-- A search for a grammar without types ends with the answer of its trace, whatever the mode. -/
theorem Grammar.searchWithin_eventually {g : Grammar} (untyped : g.Untyped) (built : g.Built)
    (setting : Setting) {start : Nat} (fits : setting.text.size < maxCount)
    (hstart : start ≤ setting.text.size) (mode : Mode) :
    ∀ᶠ fuel in atTop, searchWithin fuel setting mode g start =
      .ok ((g.trace setting.strategy.opens setting.types.classes setting.text start).settle mode
        setting.text.size) :=
  (Grammar.walks (built.both untyped)).grammar setting mode start fits hstart

/-- What a grammar answers when the match is settled: a tree of the nodes, or the text is
unmatched. -/
def Grammar.answer (text : Text) (start : Nat) (unmatched : Unmatched) :
    Option Match → Except Stop MatchTree
  | some m => .ok (.ofNodes text start m.stop m.nodes)
  | none => .error (.refused (.unmatched unmatched))

/-- The outcome a mode takes: the first one, or the first that ends where the text ends. -/
def Mode.pick (size : Nat) (outcomes : List Match) : Mode → Option Match
  | .beginning => outcomes.head?
  | .whole => outcomes.find? (·.stop == size)

theorem Trace.value_settle {mode : Mode} {size : Nat} {t : Trace L Match} :
    (t.settle mode size).value = mode.pick size t.values := by
  cases mode with
  | beginning => exact Trace.settle_beginning size t
  | whole => exact Trace.settle_whole size t

/-- With enough steps a match of a grammar without types answers with the outcome its mode takes. -/
theorem Grammar.matchFrom_eventually {g : Grammar} (untyped : g.Untyped) (built : g.Built)
    (types : TypeEnv) {text : Text} (fits : text.size < maxCount) {start : Nat}
    (hstart : start ≤ text.size) (mode : Mode) :
    ∃ unmatched, ∀ᶠ fuel in atTop, g.matchFrom fuel types text mode start =
      Grammar.answer text start unmatched (mode.pick text.size
        (g.outcomes Strategy.standard.opens types.classes text start)) := by
  let trace : Trace (Option Failure) Match :=
    g.trace Strategy.standard.opens types.classes text start
  refine ⟨((trace.settle mode text.size).failures.getD ⟨start, .grammar g, 0⟩).unmatched, ?_⟩
  filter_upwards
    [Grammar.searchWithin_eventually untyped built (types.setting text) fits hstart mode] with fuel
    hsearch
  rw [Grammar.matchFrom, hsearch, ← Grammar.values_trace (L := Option Failure),
    ← Trace.value_settle]
  simp only [trace, TypeEnv.setting]
  rcases (g.trace Strategy.standard.opens types.classes text start : Trace (Option Failure)
    Match).settle mode text.size with ⟨_ | m, failures⟩ <;> rfl

/-- **The machine refines the outcomes.** A match of a grammar without types ends, with enough steps
always in the same way: with the first outcome of the grammar, or, when it has to take the whole
text, with the first outcome that ends where the text ends; without such an outcome the text is
unmatched. -/
theorem Grammar.matchFrom_eq_outcome {g : Grammar} (untyped : g.Untyped) (built : g.Built)
    (types : TypeEnv) {text : Text} (fits : text.size < maxCount) {start : Nat}
    (hstart : start ≤ text.size) :
    ∃ (enough : Nat) (short long : Unmatched), ∀ fuel ≥ enough,
      g.matchFrom fuel types text .beginning start = Grammar.answer text start short
        (g.outcomes Strategy.standard.opens types.classes text start).head? ∧
      g.matchFrom fuel types text .whole start = Grammar.answer text start long
        ((g.outcomes Strategy.standard.opens types.classes text start).find?
          (·.stop == text.size)) := by
  obtain ⟨short, hshort⟩ := Grammar.matchFrom_eventually untyped built types fits hstart .beginning
  obtain ⟨long, hlong⟩ := Grammar.matchFrom_eventually untyped built types fits hstart .whole
  obtain ⟨enough, h⟩ := Filter.eventually_atTop.mp (hshort.and hlong)
  exact ⟨enough, short, long, h⟩

/-- As many `a` as there are, in a grammar of their own, and then `ab`. -/
def Grammar.givingBack : Grammar :=
  ⟨[.ofChecker (.sequence [(Entry.ofChecker (.single 'a')).quantified ⟨0, none, .maximum⟩]),
    .ofChecker (.literal ['a', 'b'])]⟩

/-- The nested grammar takes both `a`, and is come back into for one of them. -/
theorem Grammar.givingBack_matchFrom : Grammar.givingBack.Untyped ∧ Grammar.givingBack.Built ∧
    ∃ enough, ∀ fuel ≥ enough,
      Grammar.givingBack.matchFrom fuel .bare #['a', 'a', 'b'] .whole 0 =
        .ok (.ofNodes #['a', 'a', 'b'] 0 3 [.leaf 0 1, .leaf 1 3]) := by
  have untyped : Grammar.givingBack.Untyped :=
    ⟨⟨⟨_, rfl⟩, ⟨⟨⟨_, rfl⟩, trivial, trivial⟩, trivial⟩, trivial⟩,
      ⟨⟨_, rfl⟩, trivial, trivial⟩, trivial⟩
  have built : Grammar.givingBack.Built :=
    ⟨⟨trivial, ⟨⟨trivial, trivial, trivial⟩, trivial⟩, trivial⟩,
      ⟨trivial, trivial, trivial⟩, trivial⟩
  have outcome : (Grammar.givingBack.outcomes Strategy.standard.opens TypeEnv.bare.classes
      #['a', 'a', 'b'] 0).find? (·.stop == 3) = some ⟨3, [.leaf 0 1, .leaf 1 3]⟩ := by
    cbv
  have fits : #['a', 'a', 'b'].size < maxCount := by decide
  obtain ⟨enough, _, _, h⟩ :=
    Grammar.matchFrom_eq_outcome untyped built .bare fits (Nat.zero_le _)
  exact ⟨untyped, built, enough, fun fuel hfuel =>
    (h fuel hfuel).2.trans (congrArg (Grammar.answer _ _ _) outcome)⟩

end TextGrammar
