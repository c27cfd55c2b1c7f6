/-
Names have no say in what matches. They decide how the nodes of a match are
wrapped, kept or dropped, and nothing that a search decides looks at nodes. So
whatever is done to the names in a grammar, it meets the same outcomes up to
their nodes, and between them the same failures up to what was expected there:
a search for it ends at the same offset, or tells of a failure at the same
offset after as many repeats.
-/
import TextGrammar.Proofs.Questions
import TextGrammar.Proofs.Refinement
import TextGrammar.Proofs.Reshaped

namespace TextGrammar

/-! ## Failures at the same place -/

/-- Where a search failed, and after how many repeats. -/
def Failure.place (failure : Failure) : Nat × Nat := (failure.offset, failure.repeats)

/-- What is kept of the failures is the same, but for what was expected. -/
def SamePlace (a b : Option Failure) : Prop := a.map Failure.place = b.map Failure.place

theorem SamePlace.merge {a a' b b' : Option Failure} (ha : SamePlace a a') (hb : SamePlace b b') :
    SamePlace (FailureLog.merge a b) (FailureLog.merge a' b') := by
  cases a with
  | none =>
    cases a' with
    | none => exact hb
    | some a' => cases ha
  | some a =>
    cases a' with
    | none => cases ha
    | some a' =>
      cases b with
      | none =>
        cases b' with
        | none => exact ha
        | some b' => cases hb
      | some b =>
        cases b' with
        | none => cases hb
        | some b' =>
          have hoffset : a.offset = a'.offset := congrArg Prod.fst (Option.some.inj ha)
          have hoffset' : b.offset = b'.offset := congrArg Prod.fst (Option.some.inj hb)
          simp only [FailureLog.merge, furthest, further, hoffset, hoffset']
          split
          · exact hb
          · exact ha

/-- One is there when the other is, and they end at the same offset. -/
structure Seen.Alike {α β : Type} (same : α → β → Prop) (seen : Seen (Option Failure) (Option α))
    (seen' : Seen (Option Failure) (Option β)) : Prop where
  value : Option.Rel same seen.value seen'.value
  failures : SamePlace seen.failures seen'.failures

namespace Seen.Alike

variable {α β γ δ : Type} {same : α → β → Prop} {next : γ → δ → Prop}
  {seen : Seen (Option Failure) (Option α)} {seen' : Seen (Option Failure) (Option β)}

theorem map (h : seen.Alike same seen') {f : α → γ} {g : β → δ}
    (hfg : ∀ a b, same a b → next (f a) (g b)) :
    Seen.Alike next ⟨seen.value.map f, seen.failures⟩ ⟨seen'.value.map g, seen'.failures⟩ := by
  obtain ⟨value, failures⟩ := seen
  obtain ⟨value', failures'⟩ := seen'
  obtain ⟨hvalue, hfailures⟩ := h
  refine ⟨?_, hfailures⟩
  cases hvalue with
  | none => exact .none
  | some h => exact .some (hfg _ _ h)

end Seen.Alike

/-! ## Traces that go on alike -/

namespace Trace

variable {α β γ δ : Type} {same : α → β → Prop} {next : γ → δ → Prop}

/-- Outcome by outcome the traces belong together, with failures at the same places between. -/
inductive Alike (same : α → β → Prop) :
    Trace (Option Failure) α → Trace (Option Failure) β → Prop
  | done {l l' : Option Failure} : SamePlace l l' → Alike same (.done l) (.done l')
  | offer {l l' : Option Failure} {a : α} {b : β} {t : Trace (Option Failure) α}
      {u : Trace (Option Failure) β} : SamePlace l l' → same a b → Alike same t u →
        Alike same (.offer l a t) (.offer l' b u)

namespace Alike

variable {t : Trace (Option Failure) α} {u : Trace (Option Failure) β}

theorem nothing : Alike same .nothing .nothing := .done rfl

theorem once {l l' : Option Failure} {a : α} {b : β} (hl : SamePlace l l') (h : same a b) :
    Alike same (.once l a) (.once l' b) := .offer hl h .nothing

theorem one {a : α} {b : β} (h : same a b) : Alike same (.one a) (.one b) := .once rfl h

theorem ofSeen {seen : Seen (Option Failure) (Option α)} {seen' : Seen (Option Failure) (Option β)}
    (h : seen.Alike same seen') : Alike same (.ofSeen seen) (.ofSeen seen') := by
  obtain ⟨value, failures⟩ := seen
  obtain ⟨value', failures'⟩ := seen'
  obtain ⟨hvalue, hfailures⟩ := h
  cases hvalue with
  | none => exact .done hfailures
  | some h => exact .once hfailures h

theorem preceded (h : Alike same t u) {l l' : Option Failure} (hl : SamePlace l l') :
    Alike same (t.preceded l) (u.preceded l') := by
  cases h with
  | done h => exact .done (hl.merge h)
  | offer h hsame hlater => exact .offer (hl.merge h) hsame hlater

theorem append (h : Alike same t u) {t' : Trace (Option Failure) α} {u' : Trace (Option Failure) β}
    (h' : Alike same t' u') : Alike same (t ++ t') (u ++ u') := by
  induction h with
  | done h => exact h'.preceded h
  | offer h hsame _ ih => exact .offer h hsame ih

theorem bind (h : Alike same t u) {k : α → Trace (Option Failure) γ}
    {k' : β → Trace (Option Failure) δ} (hk : ∀ a b, same a b → Alike next (k a) (k' b)) :
    Alike next (t.bind k) (u.bind k') := by
  induction h with
  | done h => exact .done h
  | offer h hsame _ ih => exact ((hk _ _ hsame).append ih).preceded h

theorem map (h : Alike same t u) {f : α → γ} {g : β → δ}
    (hfg : ∀ a b, same a b → next (f a) (g b)) : Alike next (t.map f) (u.map g) := by
  induction h with
  | done h => exact .done h
  | offer h hsame _ ih => exact .offer h (hfg _ _ hsame) ih

theorem values (h : Alike same t u) : List.Forall₂ same t.values u.values := by
  induction h with
  | done _ => exact .nil
  | offer _ hsame _ ih => exact .cons hsame ih

theorem isEmpty (h : Alike same t u) : t.values.isEmpty = u.values.isEmpty := by
  cases h <;> rfl

end Alike

end Trace

/-! ## Matches that end alike -/

/-- Both matches end at the same offset. -/
def Match.SameStop (m m' : Match) : Prop := m.stop = m'.stop

def Found.SameStop (f f' : Found) : Prop := f.stop = f'.stop

theorem Seen.Alike.found {seen seen' : Seen (Option Failure) (Option Match)}
    (h : seen.Alike Match.SameStop seen') : seen.found.Alike Found.SameStop seen'.found :=
  h.map fun _ _ h => h

theorem Found.SameStop.refl (found : Option Found) : Option.Rel Found.SameStop found found := by
  cases found with
  | none => exact .none
  | some found => exact .some rfl

/-- One of the matches ends there, as one of the others does. -/
theorem Match.any_stop {ms ms' : List Match} (h : List.Forall₂ Match.SameStop ms ms')
    (stop : Nat) : ms.any (·.stop == stop) = ms'.any (·.stop == stop) := by
  induction h with
  | nil => rfl
  | cons h _ ih =>
    have h : _ = _ := h
    simp only [List.any_cons, h, ih]

/-- Of matches that end alike the longer ones do, too. -/
theorem Found.SameStop.longer {a a' b b' : Option Found} (ha : Option.Rel Found.SameStop a a')
    (hb : Option.Rel Found.SameStop b b') :
    Option.Rel Found.SameStop (longer a b) (longer a' b') := by
  cases ha with
  | none => exact hb
  | some ha =>
    cases hb with
    | none => exact .some ha
    | some hb =>
      have ha : _ = _ := ha
      have hb : _ = _ := hb
      simp only [TextGrammar.longer, further, ha, hb]
      split
      · exact .some hb
      · exact .some ha

/-- Traces alike settle alike. -/
theorem Trace.Alike.settle {t u : Trace (Option Failure) Match} (h : t.Alike Match.SameStop u)
    (mode : Mode) (size : Nat) :
    (t.settle mode size).Alike Match.SameStop (u.settle mode size) := by
  induction h with
  | done h => exact ⟨.none, h⟩
  | offer h hsame _ ih =>
    have hstop : _ = _ := hsame
    simp only [Trace.settle, hstop]
    split
    · exact ⟨ih.value, (h.merge rfl).merge ih.failures⟩
    · exact ⟨.some hsame, h⟩

/-! ## Entries -/

theorem Quantifier.trace_alike (q : Quantifier) {size : Nat}
    {once once' : (repeats offset : Nat) → Trace (Option Failure) Match}
    {missed missed' : (repeats offset : Nat) → Option Failure}
    {stuck stuck' : (repeats offset : Nat) → Bool}
    (honce : ∀ r o, (once r o).Alike Match.SameStop (once' r o))
    (hmissed : ∀ r o, SamePlace (missed r o) (missed' r o))
    (hstuck : ∀ r o, stuck r o = stuck' r o) (repeats offset : Nat) :
    (q.trace size once missed stuck repeats offset).Alike Match.SameStop
      (q.trace size once' missed' stuck' repeats offset) := by
  induction repeats, offset using Quantifier.room_induction size with
  | step repeats offset ih =>
  have hstop : (Trace.one ⟨offset, []⟩ : Trace (Option Failure) Match).Alike Match.SameStop
      (.one ⟨offset, []⟩) := .one rfl
  have hmore : ((once repeats offset).bind
        (Match.goOnTrace size offset (q.trace size once missed stuck (repeats + 1)))).Alike
      Match.SameStop ((once' repeats offset).bind
        (Match.goOnTrace size offset (q.trace size once' missed' stuck' (repeats + 1)))) := by
    refine (honce repeats offset).bind fun m m' hm => ?_
    -- Both repeats end at the same offset, so both go on from there, or neither does.
    have hm : m.stop = m'.stop := hm
    simp only [Match.goOnTrace, ← hm]
    split
    · next hgo => exact (ih _ _ hgo.1 hgo.2).map fun _ _ h => h
    · exact .one hm
  have hrequired := hmore.append (.done (hmissed repeats offset))
  rw [Quantifier.trace_eq, Quantifier.trace_eq]
  cases q.plan repeats with
  | stop => exact hstop
  | go => exact hrequired
  | stopThenGo => exact hstop.append hrequired
  | goThenStop => exact hmore.append hstop
  | goOrStop =>
    simp only [hstuck]
    split
    · exact hmore.append hstop
    · exact hmore

/-- The matches of an entry are completed alike, however their nodes are shaped. -/
theorem Entry.completed_alike {entry entry' : Entry} {walked : Bool}
    {reread reread' : Found → Seen (Option Failure) (Option Found)} {found found' : Found}
    (hfound : found.SameStop found')
    (hreread : (reread found).Alike Found.SameStop (reread' found')) (repeats offset : Nat) :
    (entry.completed walked reread repeats offset found).Alike Match.SameStop
      (entry'.completed walked reread' repeats offset found') := by
  simp only [Entry.completed]
  obtain ⟨hvalue, hfailures⟩ := hreread
  generalize (reread found).value = kept at hvalue ⊢
  generalize (reread' found').value = kept' at hvalue ⊢
  cases hvalue with
  | none =>
    refine .done ?_
    split
    · exact hfailures.merge rfl
    · exact hfailures
  | some _ => exact .once hfailures hfound

theorem Entry.traceOf_alike {entry entry' : Entry} (hq : entry'.quantifier = entry.quantifier)
    {raw raw' : Nat → Trace (Option Failure) Found}
    {reread reread' : Nat → Found → Seen (Option Failure) (Option Found)}
    (hraw : ∀ o, (raw o).Alike Found.SameStop (raw' o))
    (hreread : ∀ o found found', Found.SameStop found found' →
      (reread o found).Alike Found.SameStop (reread' o found'))
    (walked : Bool) (size offset : Nat) :
    (entry.traceOf walked size raw reread offset).Alike Match.SameStop
      (entry'.traceOf walked size raw' reread' offset) := by
  have honce (r o : Nat) : ((raw o).bind (entry.completed walked (reread o) r o)).Alike
      Match.SameStop ((raw' o).bind (entry'.completed walked (reread' o) r o)) :=
    (hraw o).bind fun found found' h => Entry.completed_alike h (hreread o found found' h) r o
  simp only [Entry.traceOf, hq]
  refine Quantifier.trace_alike _ honce (fun r o => ?_) (fun r o => ?_) 0 offset
  · simp only [(honce r o).isEmpty]
    split <;> rfl
  · simp only [(honce r o).isEmpty, (hraw o).isEmpty]

/-! ## Grammars -/

section

variable {opens : Grammar → Bool} {classes : CharClasses}
  {capture : Option Capture → Option Capture}

theorem Region.declaredWidth_reshapedAll (regions : List Region) :
    Region.declaredWidth (Region.reshapedAll capture id regions) =
      Region.declaredWidth regions := by
  have hmap (l : List Region) : l.filterMap Region.width = (l.map Region.width).filterMap id := by
    rw [List.filterMap_map]
    rfl
  simp only [Region.declaredWidth, hmap, Region.widths_reshapedAll]

theorem Region.layout_reshapedAll (regions : List Region) (size start : Nat) :
    Region.layout size start (Region.reshapedAll capture id regions) =
      Region.layout size start regions := by
  induction regions generalizing start with
  | nil => rfl
  | cons region regions ih =>
    obtain ⟨name, width, g⟩ := region
    simp only [Region.reshapedAll, Region.reshaped, Region.layout, ih]

variable (hopens : ∀ g : Grammar, opens (g.reshaped capture id) = opens g)
include hopens

theorem Target.isWalked_reshaped (t : Target) :
    (t.reshaped capture id).isWalked opens = t.isWalked opens := by
  cases t with
  | checker c =>
    cases c with
    | grammar g => exact hopens g
    | _ => rfl
  | _ => rfl

omit hopens in
/-- What a checker matches without a search of its own is found without a failure. -/
theorem Seen.Alike.of_eq {found found' : Option Found} (h : found' = found) :
    Seen.Alike Found.SameStop (.of found) (.of found') :=
  ⟨h ▸ Found.SameStop.refl found, rfl⟩

set_option linter.unusedSectionVars false in
mutual

/-- **A search meets the same**, up to nodes and what was expected, whatever the entries are
called. -/
theorem Grammar.trace_reshaped : ∀ (g : Grammar) (text : Text) (offset : Nat),
    (g.trace opens classes text offset : Trace (Option Failure) Match).Alike Match.SameStop
      ((g.reshaped capture id).trace opens classes text offset)
  | ⟨entries⟩, text, offset => by
    simp only [Grammar.reshaped, Grammar.trace]
    exact Entry.allTrace_reshaped entries text offset

theorem Entry.allTrace_reshaped : ∀ (es : List Entry) (text : Text) (offset : Nat),
    (Entry.allTrace opens classes es text offset : Trace (Option Failure) Match).Alike
      Match.SameStop (Entry.allTrace opens classes (Entry.reshapedAll capture id es) text offset)
  | [], _, _ => by
    simp only [Entry.reshapedAll, Entry.allTrace]
    exact .one rfl
  | entry :: entries, text, offset => by
    simp only [Entry.reshapedAll, Entry.allTrace]
    refine (Entry.trace_reshaped entry text offset).bind fun m m' hm => ?_
    have hm : m.stop = m'.stop := hm
    rw [← hm]
    exact (Entry.allTrace_reshaped entries text m.stop).map fun _ _ h => h

theorem Entry.trace_reshaped : ∀ (e : Entry) (text : Text) (offset : Nat),
    (e.trace opens classes text offset : Trace (Option Failure) Match).Alike Match.SameStop
      ((e.reshaped capture id).trace opens classes text offset)
  | ⟨name, target, q, second⟩, text, offset => by
    simp only [Entry.reshaped, Entry.trace, Target.isWalked_reshaped hopens target]
    refine Entry.traceOf_alike ?_ (Target.trace_reshaped target text)
      (fun o found found' h => Grammar.reread_reshaped second text o h) _ _ _
    rfl

theorem Target.trace_reshaped : ∀ (t : Target) (text : Text) (offset : Nat),
    (t.trace opens classes text offset : Trace (Option Failure) Found).Alike Found.SameStop
      ((t.reshaped capture id).trace opens classes text offset)
  | .checker c, text, offset => by
    have tried := Checker.tried_reshaped c text offset
    cases c with
    | grammar g =>
      have h := Grammar.trace_reshaped g text offset
      simp only [Target.reshaped, Checker.reshaped, Target.trace, hopens]
      split
      · exact h.map fun _ _ h => h
      · exact .ofSeen (h.settle .beginning text.size).found
    | fixed regions =>
      simp only [Target.reshaped, Checker.reshaped, Target.trace, Region.declaredWidth_reshapedAll,
        Region.accept_reshapedAll regions, Region.layout_reshapedAll]
      split
      · exact .one rfl
      · exact .nothing
    | _ =>
      simp only [Target.reshaped, Checker.reshaped, Target.trace] at tried ⊢
      exact .ofSeen tried
  | .ref _, _, _ | .type _, _, _ => by
    simp only [Target.reshaped, Target.trace]
    exact .nothing

theorem Checker.tried_reshaped : ∀ (c : Checker) (text : Text) (offset : Nat),
    (c.tried opens classes text offset : Seen (Option Failure) (Option Found)).Alike Found.SameStop
      ((c.reshaped capture id).tried opens classes text offset)
  | .grammar g, text, offset => by
    simp only [Checker.reshaped, Checker.tried]
    exact ((Grammar.trace_reshaped g text offset).settle .beginning text.size).found
  | .oneOf choices fallback, text, offset => by
    have among := Checker.triedAmong_reshapedAll choices text offset
    have other := Checker.triedFallback_reshapedOption fallback text offset
    simp only [Checker.reshaped, Checker.tried]
    generalize (Checker.triedAmong opens classes choices text offset :
      Seen (Option Failure) (Option Found)) = chosen at among ⊢
    generalize (Checker.triedAmong opens classes (Checker.reshapedAll capture id choices) text
      offset : Seen (Option Failure) (Option Found)) = chosen' at among ⊢
    obtain ⟨value, failures⟩ := chosen
    obtain ⟨value', failures'⟩ := chosen'
    obtain ⟨hvalue, hfailures⟩ := among
    cases hvalue with
    | some h => exact ⟨.some h, hfailures⟩
    | none => exact ⟨other.value, hfailures.merge other.failures⟩
  | .char _, _, _ | .word _, _, _ | .any _, _, _ => .of_eq rfl
  | .not item, text, offset => by
    have h := (Checker.tried_reshaped item text offset).value
    simp only [Checker.value_tried] at h
    refine .of_eq ?_
    simp only [Checker.reshaped, Checker.found]
    generalize item.found opens classes text offset = found at h ⊢
    generalize (item.reshaped capture id).found opens classes text offset = found' at h ⊢
    cases h <;> rfl
  | .fixed regions, text, offset => .of_eq (by
    simp only [Checker.reshaped, Checker.found, Region.declaredWidth_reshapedAll,
      Region.accept_reshapedAll regions, Region.layout_reshapedAll])

theorem Checker.triedAmong_reshapedAll : ∀ (cs : List Checker) (text : Text) (offset : Nat),
    (Checker.triedAmong opens classes cs text offset : Seen (Option Failure) (Option Found)).Alike
      Found.SameStop
      (Checker.triedAmong opens classes (Checker.reshapedAll capture id cs) text offset)
  | [], _, _ => by
    simp only [Checker.reshapedAll, Checker.triedAmong]
    exact ⟨.none, rfl⟩
  | c :: cs, text, offset => by
    have later := Checker.triedAmong_reshapedAll cs text offset
    have here := Checker.tried_reshaped c text offset
    simp only [Checker.reshapedAll, Checker.triedAmong]
    exact ⟨Found.SameStop.longer later.value here.value, later.failures.merge here.failures⟩

theorem Checker.triedFallback_reshapedOption :
    ∀ (c : Option Checker) (text : Text) (offset : Nat),
    (Checker.triedFallback opens classes c text offset :
        Seen (Option Failure) (Option Found)).Alike Found.SameStop
      (Checker.triedFallback opens classes (Checker.reshapedOption capture id c) text offset)
  | none, _, _ => by
    simp only [Checker.reshapedOption, Checker.triedFallback]
    exact ⟨.none, rfl⟩
  | some c, text, offset => by
    simp only [Checker.reshapedOption, Checker.triedFallback]
    exact Checker.tried_reshaped c text offset

theorem Grammar.reread_reshaped : ∀ (second : Option Grammar) (text : Text) (offset : Nat)
    {found found' : Found}, found.stop = found'.stop →
    (Grammar.reread opens classes second text offset found :
        Seen (Option Failure) (Option Found)).Alike Found.SameStop
      (Grammar.reread opens classes (Grammar.reshapedOption capture id second) text offset found')
  | none, _, _, _, _, h => by
    simp only [Grammar.reshapedOption, Grammar.reread]
    exact ⟨.some h, rfl⟩
  | some g, text, offset, found, found', h => by
    have settled := (Grammar.trace_reshaped g (text.slice 0 found.stop) offset).settle .whole
      found.stop
    simp only [Grammar.reshapedOption, Grammar.reread, ← h]
    exact settled.map fun _ _ _ => rfl

theorem Region.accept_reshapedAll : ∀ (regions : List Region) (text : Text) (start : Nat),
    Region.accept opens classes (Region.reshapedAll capture id regions) text start =
      Region.accept opens classes regions text start
  | [], _, _ => rfl
  | ⟨name, width, none⟩ :: regions, text, start => by
    simp only [Region.reshapedAll, Region.reshaped, Grammar.reshapedOption, Region.accept,
      Region.accepts, Region.accept_reshapedAll regions text]
  | ⟨name, width, some g⟩ :: regions, text, start => by
    simp only [Region.reshapedAll, Region.reshaped, Grammar.reshapedOption, Region.accept,
      Region.accepts, Region.accept_reshapedAll regions text]
    -- A column is accepted for where the outcomes end, which is all that its trace keeps alike.
    have hall := (Grammar.trace_reshaped g (text.slice start (width.elim text.size (start + ·)))
      0).values
    simp only [Grammar.values_trace] at hall
    rw [Match.any_stop hall]

end

end

/-! ## Answers -/

/-- The grammar with the names of its entries left out, however deep they lie. -/
def Grammar.unnamed (g : Grammar) : Grammar := g.reshaped (fun _ => none) id

/-- Both answers are trees that end at the same offset, or both tell of a failure at the same offset
after as many repeats. -/
inductive SameUpToNames : Except Stop MatchTree → Except Stop MatchTree → Prop
  | matched {tree tree' : MatchTree} : tree.root.stop = tree'.root.stop →
    SameUpToNames (.ok tree) (.ok tree')
  | unmatched {u u' : Unmatched} : u.offset = u'.offset → u.repeats = u'.repeats →
    SameUpToNames (.error (.refused (.unmatched u))) (.error (.refused (.unmatched u')))

namespace Grammar

theorem verdict_alike (g g' : Grammar) (text : Text) (start : Nat)
    {seen seen' : Seen (Option Failure) (Option Match)} (h : seen.Alike Match.SameStop seen') :
    SameUpToNames (g.verdict text start (.ok seen)) (g'.verdict text start (.ok seen')) := by
  obtain ⟨value, failures⟩ := seen
  obtain ⟨value', failures'⟩ := seen'
  obtain ⟨hvalue, hfailures⟩ := h
  cases hvalue with
  | some h => exact .matched h
  | none =>
    have hplace : (failures.getD ⟨start, .grammar g, 0⟩).place =
        (failures'.getD ⟨start, .grammar g', 0⟩).place := by
      cases failures <;> cases failures'
      case none.none => rfl
      case some.some => exact Option.some.inj hfailures
      all_goals cases hfailures
    exact .unmatched (congrArg Prod.fst hplace) (congrArg Prod.snd hplace)

/-- Names leave as much choice as there is without them. -/
theorem opens_unnamed (g : Grammar) :
    Strategy.standard.opens g.unnamed = Strategy.standard.opens g := by
  have hdet : g.unnamed.isDeterministic = g.isDeterministic :=
    isDeterministic_reshaped (fun _ => rfl) (fun _ => rfl) g
  simp only [Strategy.standard, hdet]

/-- **Names have no say in what matches.** With enough steps a grammar without types and the same
one without names always answer alike: both match up to the same offset, or neither matches and both
tell of a failure at the same offset after as many repeats. -/
theorem matchFrom_unnamed {g : Grammar} (untyped : g.Untyped) (built : g.Built) (types : TypeEnv)
    {text : Text} (fits : text.size < maxCount) {start : Nat} (hstart : start ≤ text.size)
    (mode : Mode) :
    ∃ answer answer', SameUpToNames answer answer' ∧ ∃ enough, ∀ fuel, enough ≤ fuel →
      g.matchFrom fuel types text mode start = answer ∧
        g.unnamed.matchFrom fuel types text mode start = answer' := by
  have untyped' : g.unnamed.Untyped := untyped_reshaped.mpr untyped
  have built' : g.unnamed.Built := built_reshaped.mpr built
  have hsettled : ((g.trace Strategy.standard.opens types.classes text start).settle mode
      text.size).Alike Match.SameStop _ :=
    (trace_reshaped opens_unnamed g text start).settle mode text.size
  refine ⟨_, _, verdict_alike g g.unnamed text start hsettled, Filter.eventually_atTop.mp ?_⟩
  filter_upwards [searchWithin_eventually untyped built (types.setting text) fits hstart mode,
    searchWithin_eventually untyped' built' (types.setting text) fits hstart mode]
    with fuel hnamed hunnamed
  rw [matchFrom_eq_verdict, matchFrom_eq_verdict, hnamed, hunnamed]
  exact ⟨rfl, rfl⟩

/-- A character under a name, kept without what lies below it, within one under another name, and
read again under a third. -/
def calledThrice : Grammar :=
  ⟨[⟨some ⟨"outer", false⟩,
    .checker (.grammar ⟨[⟨some ⟨"inner", true⟩, .checker (.any (some 1)), .one, none⟩]⟩), .one,
    some ⟨[⟨some ⟨"again", false⟩, .checker (.any none), .one, none⟩]⟩⟩]⟩

theorem calledThrice_unnamed :
    calledThrice.Untyped ∧ calledThrice.Built ∧ (#['a', 'b'] : Text).size < maxCount ∧
      ∃ answer answer', SameUpToNames answer answer' ∧ ∃ enough, ∀ fuel, enough ≤ fuel →
        calledThrice.matchFrom fuel .bare #['a', 'b'] .whole 0 = answer ∧
          calledThrice.unnamed.matchFrom fuel .bare #['a', 'b'] .whole 0 = answer' := by
  have untyped : calledThrice.Untyped :=
    ⟨⟨⟨_, rfl⟩, ⟨⟨⟨_, rfl⟩, trivial, trivial⟩, trivial⟩, ⟨⟨_, rfl⟩, trivial, trivial⟩, trivial⟩,
      trivial⟩
  have built : calledThrice.Built :=
    ⟨⟨trivial, ⟨⟨trivial, trivial, trivial⟩, trivial⟩, ⟨trivial, trivial, trivial⟩, trivial⟩,
      trivial⟩
  have fits : (#['a', 'b'] : Text).size < maxCount := by decide
  exact ⟨untyped, built, fits, matchFrom_unnamed untyped built .bare fits (Nat.zero_le _) .whole⟩

end Grammar

end TextGrammar
