/-
Fused entries. Two words one after the other are one word, and any characters
that are repeated without giving any back are so many characters, or all that are
left. On either side an entry ends at the same offsets wherever it begins; so
grammars with the one or the other among the same entries succeed alike and end
alike.
-/
import TextGrammar.Pattern.Compile
import TextGrammar.Proofs.Refinement

namespace TextGrammar

variable {opens : Grammar → Bool} {classes : CharClasses} {text : Text}

/-! ## Where outcomes end -/

section

variable (opens classes)

/-- The offsets where outcomes of the entries end, in their order. -/
def Entry.stops (es : List Entry) (text : Text) (offset : Nat) : List Nat :=
  (Entry.allOutcomes opens classes es text offset).map Match.stop

end

theorem Entry.allOutcomes_append {opens : Grammar → Bool} {classes : CharClasses}
    (es rest : List Entry) (offset : Nat) :
    Entry.allOutcomes opens classes (es ++ rest) text offset =
      (Entry.allOutcomes opens classes es text offset).flatMap fun m =>
        (Entry.allOutcomes opens classes rest text m.stop).map (.after m.nodes) := by
  induction es generalizing offset with
  | nil =>
    simp only [List.nil_append, Entry.allOutcomes, List.flatMap_singleton]
    exact (List.map_id' _).symm
  | cons e es ih =>
    have hafter (nodes nodes' : List Node) :
        Match.after nodes ∘ Match.after nodes' = Match.after (nodes ++ nodes') := by
      funext m
      simp only [Function.comp, Match.after, List.append_assoc]
    simp only [List.cons_append, Entry.allOutcomes, ih, List.flatMap_assoc, List.map_flatMap,
      List.flatMap_map, List.map_map, hafter]
    rfl

theorem Entry.stops_append (es rest : List Entry) (offset : Nat) :
    Entry.stops opens classes (es ++ rest) text offset =
      (Entry.stops opens classes es text offset).flatMap
        (Entry.stops opens classes rest text) := by
  have hafter (nodes : List Node) : Match.stop ∘ Match.after nodes = Match.stop := rfl
  simp only [Entry.stops, Entry.allOutcomes_append, List.map_flatMap, List.flatMap_map,
    List.map_map, hafter]

/-- Entries that end alike wherever they begin in the text do so among other entries. -/
theorem Entry.stops_between {before es es' after : List Entry}
    (built : Entry.EveryOf (fun _ => True) Region.AreColumns before)
    (fits : text.size < maxCount)
    (h : ∀ offset ≤ text.size, Entry.stops opens classes es text offset =
      Entry.stops opens classes es' text offset) {start : Nat} (hstart : start ≤ text.size) :
    Entry.stops opens classes (before ++ es ++ after) text start =
      Entry.stops opens classes (before ++ es' ++ after) text start := by
  simp only [Entry.stops_append]
  refine congrArg (List.flatMap _) (List.flatMap_congr fun offset hoffset => h offset ?_)
  obtain ⟨m, hm, rfl⟩ := List.mem_map.mp hoffset
  exact (Entry.allOutcomes_within built fits hstart m hm).2

/-- An outcome is picked by where it ends. -/
theorem Mode.pick_stop (mode : Mode) (size : Nat) {outcomes outcomes' : List Match}
    (h : outcomes.map Match.stop = outcomes'.map Match.stop) :
    (mode.pick size outcomes).map Match.stop = (mode.pick size outcomes').map Match.stop := by
  cases mode with
  | beginning => rw [Mode.pick, Mode.pick, ← List.head?_map, h, List.head?_map]
  | whole =>
    have hfind (ms : List Match) : (ms.find? (·.stop == size)).map Match.stop =
        (ms.map Match.stop).find? (· == size) := by
      rw [List.find?_map]
      rfl
    rw [Mode.pick, Mode.pick, hfind, h, ← hfind]

/-! ## Repeats -/

section

variable {size : Nat} {once : Nat → List Match} {stuck : Nat → Bool}

/-- An entry that is not repeated ends where its only repeat does. -/
theorem Quantifier.stops_one (offset : Nat) :
    (Quantifier.one.outcomes size once stuck 0 offset).map Match.stop =
      (once offset).map Match.stop := by
  have hfull (o : Nat) : Quantifier.one.outcomes size once stuck 1 o = [⟨o, []⟩] := by
    rw [Quantifier.outcomes_eq]
    rfl
  have hgo (m : Match) : (m.goOn size offset (Quantifier.one.outcomes size once stuck 1)).map
      Match.stop = [m.stop] := by
    rw [Match.goOn]
    split
    · rw [hfull]
      rfl
    · rfl
  have hplan : Quantifier.one.plan 0 = .go := rfl
  rw [Quantifier.outcomes_eq, hplan]
  simp only [List.map_flatMap, hgo]
  exact List.map_eq_flatMap.symm

/-- One repeat takes the next character, if there is one. -/
structure TakesNext (size : Nat) (once : Nat → List Match) (stuck : Nat → Bool) : Prop where
  inside : ∀ i < size, stuck i = false ∧ ∃ nodes, once i = [⟨i + 1, nodes⟩]
  outside : ∀ i, size ≤ i → stuck i = true ∧ once i = []

namespace TakesNext

/-- One repeat more. -/
theorem stops_more (h : TakesNext size once stuck) (next : Nat → List Match) (offset : Nat) :
    ((once offset).flatMap (Match.goOn size offset next)).map Match.stop =
      if offset < size then (next (offset + 1)).map Match.stop else [] := by
  split
  · next hlt =>
    obtain ⟨-, nodes, honce⟩ := h.inside offset hlt
    rw [honce, List.flatMap_singleton, Match.goOn, if_pos ⟨Nat.lt_succ_self _, hlt⟩, List.map_map]
    rfl
  · next hge =>
    rw [(h.outside offset (Nat.le_of_not_lt hge)).2]
    rfl

/-- A number of repeats, of which so many are left, takes as many characters. -/
theorem stops_exactly (h : TakesNext size once stuck) {n left : Nat} (repeats offset : Nat)
    (hn : repeats + left = n) :
    ((Quantifier.exactly n).outcomes size once stuck repeats offset).map Match.stop =
      if left = 0 ∨ offset + left ≤ size then [offset + left] else [] := by
  induction left generalizing repeats offset with
  | zero =>
    have hplan : (Quantifier.exactly n).plan repeats = .stop :=
      if_pos (Bool.or_eq_true_iff.mpr (.inr (decide_eq_true (Nat.le_of_eq hn.symm))))
    rw [Quantifier.outcomes_eq, hplan, if_pos (.inl rfl)]
    rfl
  | succ left ih =>
    have hplan : (Quantifier.exactly n).plan repeats = .go := by
      have hlower : ((Quantifier.exactly n).lower == 0) = false :=
        beq_false_of_ne (show n ≠ 0 by omega)
      have hfull : (Quantifier.exactly n).isFull repeats = false :=
        decide_eq_false (by omega)
      rw [Quantifier.plan, Quantifier.isZero, hlower, hfull, Bool.false_and, Bool.false_or,
        if_neg Bool.false_ne_true]
      exact if_pos (show repeats < n by omega)
    rw [Quantifier.outcomes_eq, hplan]
    dsimp only
    rw [h.stops_more, ih (repeats + 1) (offset + 1) (by omega)]
    grind

/-- Repeats that are never given back take all that is left. -/
theorem stops_zeroOrMore (h : TakesNext size once stuck) (repeats offset : Nat) : offset ≤ size →
    (Quantifier.zeroOrMore.outcomes size once stuck repeats offset).map Match.stop = [size] := by
  induction repeats, offset using Quantifier.room_induction size with
  | step repeats offset ih =>
  intro hle
  have hplan : Quantifier.zeroOrMore.plan repeats = .goOrStop := rfl
  rw [Quantifier.outcomes_eq, hplan]
  dsimp only
  rcases Nat.lt_or_ge offset size with hlt | hge
  · rw [(h.inside offset hlt).1, if_neg Bool.false_ne_true, h.stops_more, if_pos hlt]
    exact ih (repeats + 1) (offset + 1) (Nat.lt_succ_self _) hlt hlt
  · obtain rfl := Nat.le_antisymm hle hge
    rw [(h.outside offset hge).1, if_pos rfl]
    rfl

end TakesNext

end

/-! ## Entries that end alike -/

theorem Entry.stops_single (e : Entry) (offset : Nat) :
    Entry.stops opens classes [e] text offset =
      (Entry.outcomes opens classes e text offset).map Match.stop := by
  have hend (m : Match) : ((Entry.allOutcomes opens classes [] text m.stop).map
      (.after m.nodes)).map Match.stop = [m.stop] := by
    rw [Entry.allOutcomes]
    rfl
  simp only [Entry.stops, Entry.allOutcomes.eq_2, List.map_flatMap, hend]
  exact List.map_eq_flatMap.symm

/-- An entry of a checker that is matched at once, and is not repeated. -/
theorem Entry.stops_ofChecker {c : Checker} {offset : Nat} (htarget :
    Target.outcomes opens classes (.checker c) text offset =
      (Checker.found opens classes c text offset).toList) :
    Entry.stops opens classes [.ofChecker c] text offset =
      ((Checker.found opens classes c text offset).map Found.stop).toList := by
  rw [Entry.stops_single, Entry.ofChecker, Entry.ofTarget, Entry.outcomes]
  dsimp only
  rw [Quantifier.stops_one, htarget, List.map_map]
  cases Checker.found opens classes c text offset <;> rfl

theorem Text.hasAt_append {offset : Nat} {cs ds : List Char} :
    text.hasAt offset (cs ++ ds) =
      (text.hasAt offset cs && text.hasAt (offset + cs.length) ds) := by
  induction cs generalizing offset with
  | nil => rfl
  | cons c cs ih =>
    rw [List.cons_append, Text.hasAt, Text.hasAt, ih, Bool.and_assoc, List.length_cons,
      Nat.add_assoc, Nat.add_comm 1]

/-- A literal ends after its characters, where the text has them. -/
theorem Entry.stops_literal (cs : List Char) (offset : Nat) :
    Entry.stops opens classes [.ofChecker (.literal cs)] text offset =
      if text.hasAt offset cs then [offset + cs.length] else [] := by
  cases cs with
  | nil => exact Entry.stops_ofChecker rfl
  | cons c cs =>
    refine (Entry.stops_ofChecker rfl).trans ?_
    show ((Found.leaf offset (Word.lengthAt ⟨c, cs⟩ text offset)).map Found.stop).toList = _
    rw [Word.lengthAt, Word.chars]
    split <;> rfl

/-- Two literals one after the other end where the literal of both does. -/
theorem Entry.stops_literals (u v : List Char) (offset : Nat) :
    Entry.stops opens classes [.ofChecker (.literal (u ++ v))] text offset =
      Entry.stops opens classes [.ofChecker (.literal u), .ofChecker (.literal v)] text offset := by
  have hboth : [Entry.ofChecker (.literal u), .ofChecker (.literal v)] =
      [Entry.ofChecker (.literal u)] ++ [.ofChecker (.literal v)] := rfl
  rw [hboth, Entry.stops_append, Entry.stops_literal, Entry.stops_literal, Text.hasAt_append,
    List.length_append, ← Nat.add_assoc]
  cases text.hasAt offset u with
  | false => rfl
  | true =>
    rw [if_pos rfl, List.flatMap_singleton, Entry.stops_literal, Bool.true_and]

/-- Any one character, repeated. -/
def Entry.anyOne (q : Quantifier) : Entry := (Entry.ofChecker (.anyOf 1)).quantified q

variable (opens classes text) in
/-- What it repeats takes the next character. -/
theorem Entry.stops_anyOne (q : Quantifier) (offset : Nat) : ∃ once stuck,
    TakesNext text.size once stuck ∧ Entry.stops opens classes [.anyOne q] text offset =
      (q.outcomes text.size once stuck 0 offset).map Match.stop := by
  let once (i : Nat) : List Match := (Target.outcomes opens classes (.checker (.anyOf 1)) text
    i).map fun found => ⟨found.stop, (Entry.anyOne q).untypedNodes i found⟩
  have hone (i : Nat) : Target.outcomes opens classes (.checker (.anyOf 1)) text i =
      (Found.leaf i (if i + 1 ≤ text.size then some 1 else none)).toList := rfl
  refine ⟨once, fun i => (once i).isEmpty, ⟨fun i hi => ?_, fun i hi => ?_⟩,
    Entry.stops_single _ _⟩
  · have honce : once i = [⟨i + 1, (Entry.anyOne q).untypedNodes i ⟨i + 1, [], false⟩⟩] := by
      simp only [once, hone]
      rw [if_pos (Nat.succ_le_of_lt hi)]
      rfl
    exact ⟨by rw [honce]; rfl, _, honce⟩
  · have honce : once i = [] := by
      simp only [once, hone]
      rw [if_neg (by omega)]
      rfl
    exact ⟨by rw [honce]; rfl, honce⟩

/-- So many characters are as many repeats of one. -/
theorem Entry.stops_exactly (n : Nat) (offset : Nat) :
    Entry.stops opens classes [.ofChecker (.anyOf n)] text offset =
      Entry.stops opens classes [.anyOne (.exactly n)] text offset := by
  obtain ⟨once, stuck, htakes, hstops⟩ :=
    Entry.stops_anyOne opens classes text (.exactly n) offset
  rw [hstops, htakes.stops_exactly 0 offset (Nat.zero_add n), Entry.stops_ofChecker rfl]
  cases n with
  | zero => rfl
  | succ n =>
    show ((Found.leaf offset (if offset + (n + 1) ≤ text.size then some (n + 1)
      else none)).map Found.stop).toList = _
    split
    · next hle => exact (if_pos (.inr hle)).symm
    · next hle => exact (if_neg (fun h => hle (h.resolve_left (Nat.succ_ne_zero n)))).symm

/-- All that is left is as many characters as there are. -/
theorem Entry.stops_rest {offset : Nat} (hoff : offset ≤ text.size) :
    Entry.stops opens classes [.ofChecker .rest] text offset =
      Entry.stops opens classes [.anyOne .zeroOrMore] text offset := by
  obtain ⟨once, stuck, htakes, hstops⟩ :=
    Entry.stops_anyOne opens classes text .zeroOrMore offset
  rw [hstops, htakes.stops_zeroOrMore 0 offset hoff, Entry.stops_ofChecker rfl]
  show ((Found.leaf offset (if offset ≤ text.size then some (text.size - offset)
    else none)).map Found.stop).toList = _
  rw [if_pos hoff]
  show [offset + (text.size - offset)] = [text.size]
  rw [Nat.add_sub_cancel' hoff]

/-- What the pattern of any one character is compiled to ends like the repeats it stands for. -/
theorem Entry.stops_dotEntry (q : Quantifier) {offset : Nat} (hoff : offset ≤ text.size) :
    Entry.stops opens classes [Pattern.dotEntry q] text offset =
      Entry.stops opens classes [.anyOne q] text offset := by
  unfold Pattern.dotEntry
  split
  · next hpossessive =>
    obtain ⟨lower, upper, greediness⟩ := q
    obtain rfl : greediness = .possessive := beq_iff_eq.mp hpossessive
    split
    · next hall =>
      obtain ⟨hlower, hupper⟩ := Bool.and_eq_true_iff.mp hall
      obtain rfl : lower = 0 := beq_iff_eq.mp hlower
      obtain rfl : upper = none := Option.isNone_iff_eq_none.mp hupper
      exact Entry.stops_rest hoff
    · split
      · next hfixed =>
        obtain rfl : upper = some lower := beq_iff_eq.mp hfixed
        exact Entry.stops_exactly lower offset
      · rfl
  · rfl

section

open Pattern

/-- Merging two literals of a pattern changes no end. -/
theorem Entry.stops_literalEntry (u v : List Char) (offset : Nat) :
    Entry.stops opens classes (literalEntry (u ++ v)) text offset =
      Entry.stops opens classes (literalEntry u ++ literalEntry v) text offset := by
  cases u with
  | nil => rfl
  | cons c u =>
    cases v with
    | nil => rw [List.append_nil, show literalEntry [] = [] from rfl, List.append_nil]
    | cons d v => exact Entry.stops_literals (c :: u) (d :: v) offset

/-- The entries of a sequence end like those of its pieces, each one compiled by itself. -/
theorem Entry.stops_entriesOf {pieces : List Piece}
    (built : ∀ e, .entry e ∈ pieces → Grammar.Built ⟨[e]⟩) (fits : text.size < maxCount)
    (pending : List Char) {offset : Nat} (hoff : offset ≤ text.size) :
    Entry.stops opens classes (entriesOf pending pieces) text offset =
      Entry.stops opens classes
        (literalEntry pending ++ pieces.flatMap fun piece => entriesOf [] [piece]) text offset := by
  have literal_built (cs : List Char) : Grammar.Built ⟨literalEntry cs⟩ := by
    cases cs with
    | nil => trivial
    | cons c cs => exact ⟨⟨trivial, trivial, trivial⟩, trivial⟩
  induction pieces generalizing pending offset with
  | nil => rw [entriesOf, List.flatMap_nil, List.append_nil]
  | cons piece pieces ih =>
    have later (pending : List Char) : ∀ offset ≤ text.size, _ := fun offset hoff =>
      ih (fun e he => built e (List.mem_cons_of_mem _ he)) pending hoff
    rw [List.flatMap_cons, ← List.append_assoc]
    cases piece with
    | literal chars =>
      rw [entriesOf, later _ offset hoff, show entriesOf [] [.literal chars] = literalEntry chars
        from rfl]
      exact Entry.stops_between (show Grammar.Built ⟨[]⟩ from trivial) fits
        (fun offset _ => Entry.stops_literalEntry pending chars offset) hoff
    | entry e =>
      have hbuilt : Grammar.Built ⟨literalEntry pending ++ [e]⟩ :=
        Entry.EveryOf.append (literal_built pending) (built e List.mem_cons_self)
      have hlater : Entry.stops opens classes (literalEntry pending ++ [e] ++ entriesOf [] pieces ++
          []) text offset = _ := Entry.stops_between hbuilt fits (later []) hoff
      simpa [entriesOf, literalEntry] using hlater

end

/-! ## Grammars that end alike -/

/-- With enough steps both grammars match, and end at the same offset, or neither does. -/
def Grammar.EndsAlike (types : TypeEnv) (text : Text) (mode : Mode) (start : Nat)
    (g g' : Grammar) : Prop :=
  ∃ enough, ∀ fuel ≥ enough,
    (∃ tree tree', g.matchFrom fuel types text mode start = .ok tree ∧
      g'.matchFrom fuel types text mode start = .ok tree' ∧ tree.root.stop = tree'.root.stop) ∨
    ∃ unmatched unmatched',
      g.matchFrom fuel types text mode start = .error (.refused (.unmatched unmatched)) ∧
      g'.matchFrom fuel types text mode start = .error (.refused (.unmatched unmatched'))

theorem Grammar.endsAlike_of_stops {es es' : List Entry}
    (plain : Grammar.Untyped ⟨es⟩ ∧ Grammar.Built ⟨es⟩)
    (plain' : Grammar.Untyped ⟨es'⟩ ∧ Grammar.Built ⟨es'⟩) (types : TypeEnv)
    (fits : text.size < maxCount) {start : Nat} (hstart : start ≤ text.size) (mode : Mode)
    (h : Entry.stops Strategy.standard.opens types.classes es text start =
      Entry.stops Strategy.standard.opens types.classes es' text start) :
    Grammar.EndsAlike types text mode start ⟨es⟩ ⟨es'⟩ := by
  obtain ⟨unmatched, hes⟩ :=
    Grammar.matchFrom_eventually plain.1 plain.2 types fits hstart mode
  obtain ⟨unmatched', hes'⟩ :=
    Grammar.matchFrom_eventually plain'.1 plain'.2 types fits hstart mode
  obtain ⟨enough, hboth⟩ := Filter.eventually_atTop.mp (hes.and hes')
  refine ⟨enough, fun fuel hfuel => ?_⟩
  obtain ⟨hfirst, hsecond⟩ := hboth fuel hfuel
  have hpick := Mode.pick_stop mode text.size h
  rw [Grammar.outcomes] at hfirst hsecond
  rw [hfirst, hsecond]
  cases hm : mode.pick text.size (Entry.allOutcomes Strategy.standard.opens types.classes es text
      start) with
  | none =>
    rw [hm] at hpick
    rw [Option.map_eq_none_iff.mp hpick.symm]
    exact .inr ⟨_, _, rfl, rfl⟩
  | some m =>
    rw [hm] at hpick
    obtain ⟨m', hm', hstop⟩ := Option.map_eq_some_iff.mp hpick.symm
    rw [hm']
    exact .inl ⟨_, _, rfl, rfl, hstop.symm⟩

theorem Grammar.plain_append {es rest : List Entry}
    (h : Grammar.Untyped ⟨es⟩ ∧ Grammar.Built ⟨es⟩)
    (hrest : Grammar.Untyped ⟨rest⟩ ∧ Grammar.Built ⟨rest⟩) :
    Grammar.Untyped ⟨es ++ rest⟩ ∧ Grammar.Built ⟨es ++ rest⟩ :=
  ⟨Entry.EveryOf.append h.1 hrest.1, Entry.EveryOf.append h.2 hrest.2⟩

/-- Entries that end alike wherever they begin can stand for each other among the same entries. -/
theorem Grammar.endsAlike_between {before es es' after : List Entry}
    (hbefore : Grammar.Untyped ⟨before⟩ ∧ Grammar.Built ⟨before⟩)
    (hafter : Grammar.Untyped ⟨after⟩ ∧ Grammar.Built ⟨after⟩)
    (plain : Grammar.Untyped ⟨es⟩ ∧ Grammar.Built ⟨es⟩)
    (plain' : Grammar.Untyped ⟨es'⟩ ∧ Grammar.Built ⟨es'⟩) (types : TypeEnv)
    (fits : text.size < maxCount) {start : Nat} (hstart : start ≤ text.size) (mode : Mode)
    (h : ∀ offset ≤ text.size,
      Entry.stops Strategy.standard.opens types.classes es text offset =
        Entry.stops Strategy.standard.opens types.classes es' text offset) :
    Grammar.EndsAlike types text mode start ⟨before ++ es ++ after⟩ ⟨before ++ es' ++ after⟩ := by
  have hwhole {mid : List Entry} (hmid : Grammar.Untyped ⟨mid⟩ ∧ Grammar.Built ⟨mid⟩) :
      Grammar.Untyped ⟨before ++ mid ++ after⟩ ∧ Grammar.Built ⟨before ++ mid ++ after⟩ :=
    Grammar.plain_append (Grammar.plain_append hbefore hmid) hafter
  exact Grammar.endsAlike_of_stops (hwhole plain) (hwhole plain') types fits hstart mode
    (Entry.stops_between hbefore.2 fits h hstart)

theorem Grammar.plain_literals : ∀ texts : List (List Char),
    Grammar.Untyped ⟨texts.map fun cs => .ofChecker (.literal cs)⟩ ∧
      Grammar.Built ⟨texts.map fun cs => .ofChecker (.literal cs)⟩
  | [] => ⟨trivial, trivial⟩
  | cs :: texts => by
    obtain ⟨untyped, built⟩ := Grammar.plain_literals texts
    cases cs <;> exact ⟨⟨⟨⟨_, rfl⟩, trivial, trivial⟩, untyped⟩, ⟨trivial, trivial, trivial⟩, built⟩

theorem Grammar.plain_any (width : Option Nat) (q : Quantifier) :
    Grammar.Untyped ⟨[(Entry.ofChecker (.any width)).quantified q]⟩ ∧
      Grammar.Built ⟨[(Entry.ofChecker (.any width)).quantified q]⟩ :=
  ⟨⟨⟨⟨_, rfl⟩, trivial, trivial⟩, trivial⟩, ⟨trivial, trivial, trivial⟩, trivial⟩

theorem Grammar.plain_dotEntry (q : Quantifier) :
    Grammar.Untyped ⟨[Pattern.dotEntry q]⟩ ∧ Grammar.Built ⟨[Pattern.dotEntry q]⟩ := by
  unfold Pattern.dotEntry
  repeat' split
  · exact Grammar.plain_any none .one
  · exact Grammar.plain_any (some q.lower) .one
  all_goals exact Grammar.plain_any (some 1) q

theorem Grammar.plain_entriesOf {pieces : List Pattern.Piece}
    (h : ∀ e, .entry e ∈ pieces → Grammar.Untyped ⟨[e]⟩ ∧ Grammar.Built ⟨[e]⟩) :
    ∀ pending, Grammar.Untyped ⟨Pattern.entriesOf pending pieces⟩ ∧
      Grammar.Built ⟨Pattern.entriesOf pending pieces⟩ := by
  have hliteral (cs : List Char) : Grammar.Untyped ⟨Pattern.literalEntry cs⟩ ∧
      Grammar.Built ⟨Pattern.literalEntry cs⟩ := by
    cases cs with
    | nil => exact ⟨trivial, trivial⟩
    | cons c cs => exact Grammar.plain_literals [c :: cs]
  induction pieces with
  | nil => exact hliteral
  | cons piece pieces ih =>
    intro pending
    have later := ih fun e he => h e (List.mem_cons_of_mem _ he)
    cases piece with
    | literal chars => exact later (pending ++ chars)
    | entry e =>
      exact Grammar.plain_append (hliteral pending)
        (Grammar.plain_append (h e List.mem_cons_self) (later []))

/-- Literals that a pattern merges with their neighbours end like the pieces they were written in:
among any entries, a sequence ends like its pieces, each of them compiled by itself. -/
theorem Pattern.entriesOf_ends_alike {before after : List Entry}
    (hbefore : Grammar.Untyped ⟨before⟩ ∧ Grammar.Built ⟨before⟩)
    (hafter : Grammar.Untyped ⟨after⟩ ∧ Grammar.Built ⟨after⟩) (types : TypeEnv)
    (fits : text.size < maxCount) {start : Nat} (hstart : start ≤ text.size) (mode : Mode)
    {pieces : List Pattern.Piece}
    (h : ∀ e, .entry e ∈ pieces → Grammar.Untyped ⟨[e]⟩ ∧ Grammar.Built ⟨[e]⟩) :
    Grammar.EndsAlike types text mode start
      ⟨before ++ Pattern.entriesOf [] pieces ++ after⟩
      ⟨before ++ (pieces.flatMap fun piece => Pattern.entriesOf [] [piece]) ++ after⟩ := by
  have hapart : Grammar.Untyped ⟨pieces.flatMap fun piece => Pattern.entriesOf [] [piece]⟩ ∧
      Grammar.Built ⟨pieces.flatMap fun piece => Pattern.entriesOf [] [piece]⟩ := by
    induction pieces with
    | nil => exact ⟨trivial, trivial⟩
    | cons piece pieces ih =>
      have hpiece := Grammar.plain_entriesOf (fun e (he : .entry e ∈ [piece]) =>
        h e (List.mem_singleton.mp he ▸ List.mem_cons_self)) []
      exact Grammar.plain_append hpiece (ih fun e he => h e (List.mem_cons_of_mem _ he))
  exact Grammar.endsAlike_between hbefore hafter (Grammar.plain_entriesOf h []) hapart types fits
    hstart mode fun _ hoff => Entry.stops_entriesOf (fun e he => (h e he).2) fits [] hoff

/-- In place of any one character, repeated, a compiled pattern has what ends alike. -/
theorem Pattern.dotEntry_ends_alike {before after : List Entry}
    (hbefore : Grammar.Untyped ⟨before⟩ ∧ Grammar.Built ⟨before⟩)
    (hafter : Grammar.Untyped ⟨after⟩ ∧ Grammar.Built ⟨after⟩) (types : TypeEnv)
    (fits : text.size < maxCount) {start : Nat} (hstart : start ≤ text.size) (mode : Mode)
    (q : Quantifier) : Grammar.EndsAlike types text mode start
      ⟨before ++ [Pattern.dotEntry q] ++ after⟩ ⟨before ++ [Entry.anyOne q] ++ after⟩ :=
  Grammar.endsAlike_between hbefore hafter (Grammar.plain_dotEntry q)
    (Grammar.plain_any (some 1) q) types fits hstart mode fun _ => Entry.stops_dotEntry q

/-- **Fusing entries changes no match.** Among any entries without types, in any text and either
mode, the word of two texts ends like the words of both one after the other, so many characters
like as many repeats of one, and all that is left like repeats of one that are never given back. -/
theorem Grammar.fused_ends_alike {before after : List Entry}
    (hbefore : Grammar.Untyped ⟨before⟩ ∧ Grammar.Built ⟨before⟩)
    (hafter : Grammar.Untyped ⟨after⟩ ∧ Grammar.Built ⟨after⟩) (types : TypeEnv)
    (fits : text.size < maxCount) {start : Nat} (hstart : start ≤ text.size) (mode : Mode) :
    (∀ u v : List Char, Grammar.EndsAlike types text mode start
      ⟨before ++ [.ofChecker (.literal (u ++ v))] ++ after⟩
      ⟨before ++ [.ofChecker (.literal u), .ofChecker (.literal v)] ++ after⟩) ∧
    (∀ n : Nat, Grammar.EndsAlike types text mode start
      ⟨before ++ [.ofChecker (.anyOf n)] ++ after⟩
      ⟨before ++ [(Entry.ofChecker (.anyOf 1)).quantified (.exactly n)] ++ after⟩) ∧
    Grammar.EndsAlike types text mode start
      ⟨before ++ [.ofChecker .rest] ++ after⟩
      ⟨before ++ [(Entry.ofChecker (.anyOf 1)).quantified .zeroOrMore] ++ after⟩ := by
  refine ⟨fun u v => ?_, fun n => ?_, ?_⟩
  · exact Grammar.endsAlike_between hbefore hafter (Grammar.plain_literals [u ++ v])
      (Grammar.plain_literals [u, v]) types fits hstart mode fun offset _ =>
        Entry.stops_literals u v offset
  · exact Grammar.endsAlike_between hbefore hafter (Grammar.plain_any (some n) .one)
      (Grammar.plain_any (some 1) (.exactly n)) types fits hstart mode fun offset _ =>
        Entry.stops_exactly n offset
  · exact Grammar.endsAlike_between hbefore hafter (Grammar.plain_any none .one)
      (Grammar.plain_any (some 1) .zeroOrMore) types fits hstart mode fun _ hoff =>
        Entry.stops_rest hoff

/-- After as many characters as there are, of which some are given back, and before a letter. -/
theorem Grammar.fused_gives_back :
    let before : List Entry := [(Entry.ofChecker (.anyOf 1)).quantified ⟨0, none, .maximum⟩]
    let after : List Entry := [.ofChecker (.single 'c')]
    let text : Text := #['x', 'a', 'b', 'a', 'b', 'c']
    (Grammar.Untyped ⟨before⟩ ∧ Grammar.Built ⟨before⟩) ∧
    (Grammar.Untyped ⟨after⟩ ∧ Grammar.Built ⟨after⟩) ∧
    text.size < maxCount ∧ 1 ≤ text.size ∧
    Grammar.EndsAlike .bare text .whole 1
      ⟨before ++ [.ofChecker (.literal ['a', 'b'])] ++ after⟩
      ⟨before ++ [.ofChecker (.literal ['a']), .ofChecker (.literal ['b'])] ++ after⟩ ∧
    Grammar.EndsAlike .bare text .whole 1
      ⟨before ++ [.ofChecker (.anyOf 3)] ++ after⟩
      ⟨before ++ [(Entry.ofChecker (.anyOf 1)).quantified (.exactly 3)] ++ after⟩ ∧
    Grammar.EndsAlike .bare text .whole 1
      ⟨before ++ [.ofChecker .rest] ++ after⟩
      ⟨before ++ [(Entry.ofChecker (.anyOf 1)).quantified .zeroOrMore] ++ after⟩ := by
  intro before after text
  have hbefore : Grammar.Untyped ⟨before⟩ ∧ Grammar.Built ⟨before⟩ := Grammar.plain_any _ _
  have hafter : Grammar.Untyped ⟨after⟩ ∧ Grammar.Built ⟨after⟩ :=
    ⟨⟨⟨⟨_, rfl⟩, trivial, trivial⟩, trivial⟩, ⟨trivial, trivial, trivial⟩, trivial⟩
  have fits : text.size < maxCount := by decide
  have hstart : 1 ≤ text.size := by decide
  obtain ⟨hwords, hexactly, hrest⟩ :=
    Grammar.fused_ends_alike hbefore hafter .bare fits hstart .whole
  exact ⟨hbefore, hafter, fits, hstart, hwords ['a'] ['b'], hexactly 3, hrest⟩

end TextGrammar
