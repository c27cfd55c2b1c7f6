/-
As many repeats as possible, or as few. The two choices try the same numbers of
repeats, only in another order; so they decide which match is found, and how
long it is, but not whether there is one. What is kept of an outcome here is the
offset where it ends: whether a negation, a column, a secondary grammar or a
possessive entry lets a match stand depends on nothing else. Only an alternative
asks for more, the length of the first match of each choice, and so its choices
have to leave none themselves.
-/
import Mathlib.Data.Set.Lattice
import TextGrammar.Proofs.Levelled
import TextGrammar.Proofs.Rejection
import TextGrammar.Proofs.Shortcut

namespace TextGrammar

/-- Where outcomes end. -/
def Match.stops (ms : List Match) : Set Nat := {n | ∃ m ∈ ms, m.stop = n}

/-- Where matches of a checker end. -/
def Found.stops (fs : List Found) : Set Nat := {n | ∃ f ∈ fs, f.stop = n}

namespace Match

theorem stops_map_after (nodes : List Node) (ms : List Match) :
    stops (ms.map (.after nodes)) = stops ms := by
  ext n
  simp [stops]

theorem stops_append (as bs : List Match) : stops (as ++ bs) = stops as ∪ stops bs := by
  ext n
  simp only [stops, List.mem_append, Set.mem_union, Set.mem_ofPred_eq, or_and_right, exists_or]

theorem stops_map_found (ms : List Match) : Found.stops (ms.map Match.found) = stops ms := by
  ext n
  simp [stops, Found.stops, Match.found]

theorem stops_singleton (m : Match) : stops [m] = {m.stop} := by
  ext n
  simp [stops, eq_comm]

theorem stops_cons (m : Match) (ms : List Match) : stops (m :: ms) = {m.stop} ∪ stops ms := by
  rw [← List.singleton_append, stops_append, stops_singleton]

theorem stops_eq_empty {ms : List Match} : stops ms = ∅ ↔ ms = [] := by
  cases ms with
  | nil => simp [stops]
  | cons m ms =>
    have : m.stop ∈ stops (m :: ms) := ⟨m, List.mem_cons_self, rfl⟩
    exact ⟨fun h => absurd (h ▸ this) (Set.notMem_empty _), fun h => nomatch h⟩

/-- Outcomes that end at the same offsets: there are some, or there are none. -/
theorem isEmpty_congr {as bs : List Match} (h : stops as = stops bs) :
    as.isEmpty = bs.isEmpty := by
  rw [Bool.eq_iff_iff, List.isEmpty_iff, List.isEmpty_iff, ← stops_eq_empty, h, stops_eq_empty]

theorem isSome_head?_congr {as bs : List Match} (h : stops as = stops bs) :
    as.head?.isSome = bs.head?.isSome := by
  have hhead (ms : List Match) : ms.head?.isSome = !ms.isEmpty := by cases ms <;> rfl
  rw [hhead, hhead, isEmpty_congr h]

theorem any_stop_congr {as bs : List Match} (h : stops as = stops bs) {n : Nat} :
    as.any (·.stop == n) = bs.any (·.stop == n) := by
  have hmem (ms : List Match) : ms.any (·.stop == n) = true ↔ n ∈ stops ms := by
    simp [stops]
  rw [Bool.eq_iff_iff, hmem, hmem, h]

/-- Where it goes on depends only on where the outcomes before have ended. -/
theorem stops_flatMap_congr {α β : Type} {as : List α} {bs : List β} {stopA : α → Nat}
    {stopB : β → Nat} {f : α → List Match} {g : β → List Match}
    (hstops : {n | ∃ a ∈ as, stopA a = n} = {n | ∃ b ∈ bs, stopB b = n})
    (hnext : ∀ a ∈ as, ∀ b ∈ bs, stopA a = stopB b → stops (f a) = stops (g b)) :
    stops (as.flatMap f) = stops (bs.flatMap g) := by
  ext n
  simp only [stops, List.mem_flatMap, Set.mem_ofPred_eq]
  constructor
  · rintro ⟨m, ⟨a, ha, hm⟩, rfl⟩
    obtain ⟨b, hb, hab⟩ : stopA a ∈ {n | ∃ b ∈ bs, stopB b = n} := hstops ▸ ⟨a, ha, rfl⟩
    obtain ⟨m', hm', heq⟩ : m.stop ∈ stops (g b) := hnext a ha b hb hab.symm ▸ ⟨m, hm, rfl⟩
    exact ⟨m', ⟨b, hb, hm'⟩, heq⟩
  · rintro ⟨m, ⟨b, hb, hm⟩, rfl⟩
    obtain ⟨a, ha, hab⟩ : stopB b ∈ {n | ∃ a ∈ as, stopA a = n} := hstops ▸ ⟨b, hb, rfl⟩
    obtain ⟨m', hm', heq⟩ : m.stop ∈ stops (f a) := hnext a ha b hb hab ▸ ⟨m, hm, rfl⟩
    exact ⟨m', ⟨a, ha, hm'⟩, heq⟩

end Match

theorem Found.isEmpty_congr {as bs : List Found} (h : stops as = stops bs) :
    as.isEmpty = bs.isEmpty := by
  cases as with
  | nil =>
    cases bs with
    | nil => rfl
    | cons b bs =>
      obtain ⟨_, ha, -⟩ : b.stop ∈ stops [] := h ▸ ⟨b, List.mem_cons_self, rfl⟩
      cases ha
  | cons a as =>
    cases bs with
    | nil =>
      obtain ⟨_, hb, -⟩ : a.stop ∈ stops [] := h ▸ ⟨a, List.mem_cons_self, rfl⟩
      cases hb
    | cons b bs => rfl

/-- Of at most one element, and at most one for it. -/
theorem length_flatMap_le_one {α β : Type} {l : List α} {f : α → List β} (hl : l.length ≤ 1)
    (hf : ∀ a ∈ l, (f a).length ≤ 1) : (l.flatMap f).length ≤ 1 := by
  match l, hl with
  | [], _ => exact Nat.zero_le 1
  | [a], _ => simpa only [List.flatMap_cons, List.flatMap_nil, List.append_nil] using hf a (by simp)
  | _ :: _ :: _, hl => simp at hl

/-! ## Repeats -/

namespace Quantifier

/-- Levelling changes the order of stopping and going on, where there is a choice of order. -/
theorem plan_levelled (q : Quantifier) (repeats : Nat) : q.levelled.plan repeats =
    match q.plan repeats with
    | .stopThenGo => .goThenStop
    | plan => plan := by
  simp only [plan, levelled_isZero, levelled_isFull, levelled_lower]
  split
  · rfl
  · split
    · rfl
    · obtain ⟨lower, upper, _ | _ | _⟩ := q <;> rfl

/-- With deterministic bounds there is no choice of order. -/
theorem plan_of_isDeterministic {q : Quantifier} (hq : q.isDeterministic = true) (repeats : Nat) :
    q.plan repeats = .stop ∨ q.plan repeats = .go ∨ q.plan repeats = .goOrStop := by
  have hgreedy (hf : q.isFull repeats = false) (hle : q.lower ≤ repeats) :
      q.greediness = .possessive := by
    simp only [isDeterministic, isFixed, Bool.or_eq_true, beq_iff_eq] at hq
    refine hq.resolve_left fun hu => ?_
    simp only [isFull, hu, decide_eq_false_iff_not] at hf
    exact hf hle
  rcases q.plan_cases repeats with
    ⟨hp, -⟩ | ⟨-, hf, ⟨hp, -⟩ | ⟨-, hle, hg⟩ | ⟨-, hle, hg⟩ | ⟨hp, -, -⟩⟩
  · exact .inl hp
  · exact .inr (.inl hp)
  · cases hg.symm.trans (hgreedy hf hle)
  · cases hg.symm.trans (hgreedy hf hle)
  · exact .inr (.inr hp)

/-- **Both orders try the same repeats.** Where one repeat ends at the same offsets, an entry ends
at the same offsets with all its repeats, whether it takes as many or as few as possible. -/
theorem stops_levelled (q : Quantifier) {size : Nat} {once once' : Nat → List Match}
    {stuck stuck' : Nat → Bool}
    (honce : ∀ offset, Match.stops (once offset) = Match.stops (once' offset))
    (hstuck : ∀ offset, stuck offset = stuck' offset) (repeats offset : Nat) :
    Match.stops (q.levelled.outcomes size once stuck repeats offset) =
      Match.stops (q.outcomes size once' stuck' repeats offset) := by
  induction repeats, offset using Quantifier.room_induction size with
  | step repeats offset ih =>
  have hmore : Match.stops ((once offset).flatMap
        (Match.goOn size offset (q.levelled.outcomes size once stuck (repeats + 1)))) =
      Match.stops ((once' offset).flatMap
        (Match.goOn size offset (q.outcomes size once' stuck' (repeats + 1)))) := by
    refine Match.stops_flatMap_congr (honce offset) fun a _ b _ hab => ?_
    simp only [Match.goOn, hab]
    split
    · next hgo => simp only [Match.stops_map_after, ih (repeats + 1) b.stop hgo.1 hgo.2]
    · simp only [Match.stops_singleton, hab]
  rw [Quantifier.outcomes_eq, Quantifier.outcomes_eq, plan_levelled]
  cases q.plan repeats
  case stop => rfl
  case go => exact hmore
  case stopThenGo =>
    rw [Match.stops_append, Match.stops_singleton, Match.stops_cons, hmore]
    exact Set.union_comm _ _
  case goThenStop =>
    simp only [Match.stops_append, hmore]
  case goOrStop =>
    simp only [hstuck offset]
    split
    · rfl
    · exact hmore

/-- Without a choice of order, repeats of what has at most one outcome have at most one. -/
theorem length_outcomes_le_one {q : Quantifier} (hq : q.isDeterministic = true) {size : Nat}
    {once : Nat → List Match} {stuck : Nat → Bool} (honce : ∀ offset, (once offset).length ≤ 1)
    (repeats offset : Nat) : (q.outcomes size once stuck repeats offset).length ≤ 1 := by
  induction repeats, offset using Quantifier.room_induction size with
  | step repeats offset ih =>
  have hmore : ((once offset).flatMap
      (Match.goOn size offset (q.outcomes size once stuck (repeats + 1)))).length ≤ 1 := by
    refine length_flatMap_le_one (honce offset) fun m _ => ?_
    simp only [Match.goOn]
    split
    · next hgo => simpa only [List.length_map] using ih (repeats + 1) m.stop hgo.1 hgo.2
    · exact Nat.le_refl 1
  rw [Quantifier.outcomes_eq]
  rcases plan_of_isDeterministic hq repeats with hp | hp | hp <;> simp only [hp]
  · exact Nat.le_refl 1
  · exact hmore
  · split
    · exact Nat.le_refl 1
    · exact hmore

end Quantifier

/-! ## Grammars that leave no choice -/

section

variable {opens : Grammar → Bool} {classes : CharClasses}

/-- A target has at most one outcome, unless it is a grammar that leaves a choice. -/
theorem Target.length_outcomes_le_one {t : Target}
    (hg : ∀ g, t = .checker (.grammar g) → ∀ (text : Text) (offset : Nat),
      (g.outcomes opens classes text offset).length ≤ 1) (text : Text) (offset : Nat) :
    (t.outcomes opens classes text offset).length ≤ 1 := by
  cases t with
  | checker c =>
    cases c with
    | grammar g =>
      simp only [Target.outcomes]
      split
      · simpa only [List.length_map] using hg g rfl text offset
      · exact List.length_take_le 1 _
    | fixed regions =>
      simp only [Target.outcomes]
      split
      · exact Nat.le_refl 1
      · exact Nat.zero_le 1
    | _ =>
      simp only [Target.outcomes]
      exact Option.length_toList_le
  | _ => simp only [Target.outcomes, List.length_nil, Nat.zero_le]

/-- An entry has at most one outcome when its repeats and its target leave no choice. -/
theorem Entry.length_outcomes_le_one {e : Entry} (hq : e.quantifier.isDeterministic = true)
    (ht : ∀ (text : Text) (offset : Nat),
      (e.target.outcomes opens classes text offset).length ≤ 1) (text : Text) (offset : Nat) :
    (e.outcomes opens classes text offset).length ≤ 1 := by
  obtain ⟨capture, target, q, _ | second⟩ := e <;> simp only [Entry.outcomes]
  · exact Quantifier.length_outcomes_le_one hq
      (fun o => by simpa only [List.length_map] using ht text o) 0 offset
  · exact Quantifier.length_outcomes_le_one hq
      (fun o => Nat.le_trans (List.length_filterMap_le _ _) (ht text o)) 0 offset

theorem Entry.length_outcomes_of_isZero {e : Entry} (hzero : e.quantifier.isZero = true)
    (text : Text) (offset : Nat) : (e.outcomes opens classes text offset).length ≤ 1 := by
  have hplan : e.quantifier.plan 0 = .stop := by simp [Quantifier.plan, hzero]
  obtain ⟨capture, target, q, _ | second⟩ := e <;>
  · simp only [Entry.outcomes]
    rw [Quantifier.outcomes_eq, hplan]
    exact Nat.le_refl 1

theorem Entry.length_allOutcomes_le_one {es : List Entry}
    (h : ∀ e ∈ es, ∀ (text : Text) (offset : Nat),
      (e.outcomes opens classes text offset).length ≤ 1) (text : Text) (offset : Nat) :
    (Entry.allOutcomes opens classes es text offset).length ≤ 1 := by
  induction es generalizing offset with
  | nil => simp only [Entry.allOutcomes, List.length_singleton, Nat.le_refl]
  | cons e es ih =>
    obtain ⟨he, hes⟩ := List.forall_mem_cons.mp h
    rw [Entry.allOutcomes]
    refine length_flatMap_le_one (he text offset) fun m _ => ?_
    simpa only [List.length_map] using ih hes m.stop

mutual

/-- **A grammar that leaves no choice has at most one outcome**, whatever is walked. -/
theorem Grammar.length_outcomes_le_one : ∀ {g : Grammar}, g.isDeterministic = some true →
    ∀ (text : Text) (offset : Nat), (g.outcomes opens classes text offset).length ≤ 1
  | ⟨_⟩, h => fun text offset => by
    rw [Grammar.outcomes]
    exact Entry.length_allOutcomes_le_one (Entry.each_length_outcomes_le_one h) text offset

theorem Entry.each_length_outcomes_le_one : ∀ {es : List Entry},
    Entry.allDeterministic es = some true → ∀ e ∈ es, ∀ (text : Text) (offset : Nat),
      (e.outcomes opens classes text offset).length ≤ 1
  | [], _ => fun _ he => nomatch he
  | ⟨capture, target, q, second⟩ :: es, h => by
    rw [Entry.allDeterministic] at h
    split at h
    · next hzero =>
      exact List.forall_mem_cons.mpr ⟨Entry.length_outcomes_of_isZero hzero,
        Entry.each_length_outcomes_le_one h⟩
    · obtain ⟨hentry, hes⟩ := bothDeterministic_eq_true h
      rw [Entry.isDeterministic] at hentry
      split at hentry
      · next hq =>
        refine List.forall_mem_cons.mpr ⟨Entry.length_outcomes_le_one hq
          (Target.length_outcomes_le_one fun g heq => ?_), Entry.each_length_outcomes_le_one hes⟩
        have hg : g.isDeterministic = some true := by
          have := (bothDeterministic_eq_true hentry).1
          subst heq
          exact this
        exact Grammar.length_outcomes_le_one hg
      · cases hentry

end

end

/-! ## Ends of outcomes -/

theorem Target.isWalked_levelled (t : Target) : t.levelled.isWalked Strategy.standard.opens =
    t.isWalked Strategy.standard.opens := by
  cases t with
  | checker c =>
    cases c with
    | grammar g =>
      simp only [Target.levelled, Checker.levelled, Target.isWalked, Strategy.standard,
        Grammar.isDeterministic_levelled]
    | _ => rfl
  | _ => rfl

/-- A match of a grammar that leaves no choice ends where the match of another ends that ends at the
same offsets. -/
theorem Match.head?_stop_congr {as bs : List Match} (ha : as.length ≤ 1) (hb : bs.length ≤ 1)
    (h : Match.stops as = Match.stops bs) :
    as.head?.map Match.stop = bs.head?.map Match.stop := by
  match as, bs, ha, hb with
  | [], [], _, _ => rfl
  | [a], [b], _, _ =>
    rw [Match.stops_singleton, Match.stops_singleton, Set.singleton_eq_singleton_iff] at h
    exact congrArg some h
  | [], b :: _, _, _ =>
    exact absurd (Match.stops_eq_empty.mp (h.symm.trans (by simp [stops]))) (by simp)
  | a :: _, [], _, _ => exact absurd (Match.stops_eq_empty.mp (h.trans (by simp [stops]))) (by simp)
  | _ :: _ :: _, _, ha, _ => simp at ha
  | _, _ :: _ :: _, _, hb => simp at hb

/-- Of two matches the longer one ends at the greater offset. -/
theorem longer_stop_congr {a a' b b' : Option Found} (ha : a.map Found.stop = a'.map Found.stop)
    (hb : b.map Found.stop = b'.map Found.stop) :
    (longer a b).map Found.stop = (longer a' b').map Found.stop := by
  cases a with
  | none =>
    obtain rfl : a' = none := Option.map_eq_none_iff.mp ha.symm
    exact hb
  | some a =>
    obtain ⟨a', rfl, hstop⟩ := Option.map_eq_some_iff.mp ha.symm
    cases b with
    | none =>
      obtain rfl : b' = none := Option.map_eq_none_iff.mp hb.symm
      exact ha
    | some b =>
      obtain ⟨b', rfl, hstop'⟩ := Option.map_eq_some_iff.mp hb.symm
      simp only [longer, further, hstop, hstop']
      split
      · exact hb
      · exact ha

theorem Found.stops_toList_congr {a b : Option Found} (h : a.map Found.stop = b.map Found.stop) :
    Found.stops a.toList = Found.stops b.toList := by
  cases a <;> cases b <;> simp_all [Found.stops]

theorem Match.stops_map {fs : List Found} {f : Found → Match}
    (hf : ∀ found, (f found).stop = found.stop) : Match.stops (fs.map f) = Found.stops fs := by
  ext n
  simp [Match.stops, Found.stops, hf]

/-- A match is read again successfully when some outcome of the other grammar ends where it ends. -/
theorem Match.mem_stops_reread {fs : List Found} {second : Nat → List Match}
    {f : Found → Match → Match} (hf : ∀ found m, (f found m).stop = found.stop) (n : Nat) :
    n ∈ Match.stops (fs.filterMap fun found =>
        ((second found.stop).find? (·.stop == found.stop)).map (f found)) ↔
      n ∈ Found.stops fs ∧ n ∈ Match.stops (second n) := by
  simp only [Match.stops, Found.stops, Set.mem_ofPred_eq, List.mem_filterMap,
    Option.map_eq_some_iff]
  constructor
  · rintro ⟨_, ⟨found, hfound, m, hm, rfl⟩, rfl⟩
    rw [hf]
    exact ⟨⟨found, hfound, rfl⟩, m, List.mem_of_find?_eq_some hm,
      by simpa only [beq_iff_eq] using List.find?_some hm⟩
  · rintro ⟨⟨found, hfound, rfl⟩, m, hm, hstop⟩
    obtain ⟨m', hm'⟩ : ∃ m', (second found.stop).find? (·.stop == found.stop) = some m' :=
      Option.isSome_iff_exists.mp (List.find?_isSome.mpr ⟨m, hm, beq_iff_eq.mpr hstop⟩)
    exact ⟨f found m', ⟨found, hfound, m', hm', rfl⟩, hf found m'⟩

section

variable {classes : CharClasses}

/-- Both end at the same offsets, whatever the text and the start. -/
def Grammar.SameStops (classes : CharClasses) (g g' : Grammar) : Prop :=
  ∀ (text : Text) (offset : Nat),
    Match.stops (g.outcomes Strategy.standard.opens classes text offset) =
      Match.stops (g'.outcomes Strategy.standard.opens classes text offset)

def Target.SameStops (classes : CharClasses) (t t' : Target) : Prop :=
  ∀ (text : Text) (offset : Nat),
    Found.stops (t.outcomes Strategy.standard.opens classes text offset) =
      Found.stops (t'.outcomes Strategy.standard.opens classes text offset)

/-- Repeats end at the same offsets, with the matches of a target that its secondary grammar
takes. -/
theorem Entry.stops_outcomes_levelled {capture : Option Capture} {target : Target} {q : Quantifier}
    {second : Option Grammar} (ht : target.levelled.SameStops classes target)
    (hs : ∀ g, second = some g → g.levelled.SameStops classes g) (text : Text) (offset : Nat) :
    Match.stops ((Entry.levelled ⟨capture, target, q, second⟩).outcomes Strategy.standard.opens
        classes text offset) =
      Match.stops ((⟨capture, target, q, second⟩ : Entry).outcomes Strategy.standard.opens classes
        text offset) := by
  have hempty : ∀ o, (target.levelled.outcomes Strategy.standard.opens classes text o).isEmpty =
      (target.outcomes Strategy.standard.opens classes text o).isEmpty := fun o =>
    Found.isEmpty_congr (ht text o)
  cases second with
  | none =>
    have honce := fun o => (Match.stops_map (f := fun found => ⟨found.stop, Entry.untypedNodes
        ⟨capture, target.levelled, q.levelled, none⟩ o found⟩) fun _ => rfl).trans
      ((ht text o).trans (Match.stops_map (f := fun found => ⟨found.stop, Entry.untypedNodes
        ⟨capture, target, q, none⟩ o found⟩) fun _ => rfl).symm)
    simp only [Entry.levelled, Grammar.levelledOption, Entry.outcomes]
    exact Quantifier.stops_levelled q honce (fun o => Match.isEmpty_congr (honce o)) 0 offset
  | some g =>
    simp only [Entry.levelled, Grammar.levelledOption, Entry.outcomes]
    have honce := fun o => Set.ext fun n =>
      calc _
        _ ↔ n ∈ Found.stops (target.levelled.outcomes Strategy.standard.opens classes text o) ∧
            n ∈ Match.stops (g.levelled.outcomes Strategy.standard.opens classes
              (text.slice 0 n) o) :=
          @Match.mem_stops_reread _
            (fun stop => g.levelled.outcomes Strategy.standard.opens classes (text.slice 0 stop) o)
            (fun found m => ⟨found.stop, Entry.untypedNodes
              ⟨capture, target.levelled, q.levelled, some g.levelled⟩ o ⟨found.stop, m.nodes, true⟩⟩)
            (fun _ _ => rfl) n
        _ ↔ n ∈ Found.stops (target.outcomes Strategy.standard.opens classes text o) ∧
            n ∈ Match.stops (g.outcomes Strategy.standard.opens classes (text.slice 0 n) o) := by
          rw [ht text o, hs g rfl]
        _ ↔ _ :=
          (@Match.mem_stops_reread _
            (fun stop => g.outcomes Strategy.standard.opens classes (text.slice 0 stop) o)
            (fun found m => ⟨found.stop, Entry.untypedNodes
              ⟨capture, target, q, some g⟩ o ⟨found.stop, m.nodes, true⟩⟩)
            (fun _ _ => rfl) n).symm
    refine Quantifier.stops_levelled q honce (fun o => ?_) 0 offset
    rw [Target.isWalked_levelled, hempty o, Match.isEmpty_congr (honce o)]

/-! ## Levelled checkers -/

/-- A checker matches where the other does, and, where it leaves no choice, as long a part. -/
structure Checker.Alike (classes : CharClasses) (c c' : Checker) : Prop where
  matched : ∀ (text : Text) (offset : Nat),
    (c.found Strategy.standard.opens classes text offset).isSome =
      (c'.found Strategy.standard.opens classes text offset).isSome
  stop : c'.IsSure → ∀ (text : Text) (offset : Nat),
    (c.found Strategy.standard.opens classes text offset).map Found.stop =
      (c'.found Strategy.standard.opens classes text offset).map Found.stop

namespace Checker.Alike

theorem of_stop {c c' : Checker} (h : ∀ (text : Text) (offset : Nat),
    (c.found Strategy.standard.opens classes text offset).map Found.stop =
      (c'.found Strategy.standard.opens classes text offset).map Found.stop) :
    c.Alike classes c' :=
  ⟨fun text offset => by rw [← Option.isSome_map (f := Found.stop), h, Option.isSome_map],
    fun _ => h⟩

theorem refl (c : Checker) : c.Alike classes c := .of_stop fun _ _ => rfl

/-- A negation asks only whether there is a match. -/
theorem not {c c' : Checker} (h : c.Alike classes c') :
    (Checker.not c).Alike classes (Checker.not c') := by
  refine .of_stop fun text offset => ?_
  have hmatched := h.matched text offset
  simp only [Checker.found]
  cases hc : c.found Strategy.standard.opens classes text offset <;>
    cases hc' : c'.found Strategy.standard.opens classes text offset <;>
      simp_all

/-- The longest of choices that leave none themselves. -/
theorem longest {cs : List Checker} (h : ∀ c ∈ cs, c.levelled.Alike classes c)
    (sure : ∀ c ∈ cs, c.IsSure) (text : Text) (offset : Nat) :
    (Checker.longestFound Strategy.standard.opens classes (Checker.levelledAll cs) text
        offset).map Found.stop =
      (Checker.longestFound Strategy.standard.opens classes cs text offset).map Found.stop := by
  induction cs with
  | nil => simp only [Checker.levelledAll, Checker.longestFound]
  | cons c cs ih =>
    obtain ⟨hc, hcs⟩ := List.forall_mem_cons.mp h
    obtain ⟨hsure, hsures⟩ := List.forall_mem_cons.mp sure
    simp only [Checker.levelledAll, Checker.longestFound]
    exact longer_stop_congr (ih hcs hsures) (hc.stop hsure text offset)

theorem oneOf {choices : List Checker} {fallback : Option Checker}
    (hsure : (Checker.oneOf choices fallback).HasSureChoices)
    (hchoices : ∀ c ∈ choices, c.levelled.Alike classes c)
    (hfallback : ∀ c, fallback = some c → c.levelled.Alike classes c) :
    (Checker.oneOf choices fallback).levelled.Alike classes (.oneOf choices fallback) := by
  refine .of_stop fun text offset => ?_
  have hlongest := longest hchoices hsure.1 text offset
  simp only [Checker.levelled, Checker.found]
  cases hl : Checker.longestFound Strategy.standard.opens classes (Checker.levelledAll choices) text
      offset with
  | some found =>
    rw [hl] at hlongest
    cases hl' : Checker.longestFound Strategy.standard.opens classes choices text offset with
    | some found' => rwa [hl'] at hlongest
    | none =>
      rw [hl'] at hlongest
      cases hlongest
  | none =>
    rw [hl] at hlongest
    cases hl' : Checker.longestFound Strategy.standard.opens classes choices text offset with
    | some found' =>
      rw [hl'] at hlongest
      cases hlongest
    | none =>
      cases fallback with
      | none => rfl
      | some c => exact (hfallback c rfl).stop (hsure.2 c rfl) text offset

/-- Columns start and stop at the same offsets, and take the same. -/
theorem fixed {regions : List Region}
    (h : ∀ region ∈ regions, ∀ g, region.grammar = some g → g.levelled.SameStops classes g) :
    (Checker.fixed regions).levelled.Alike classes (.fixed regions) := by
  have hwidth : Region.declaredWidth (Region.levelledAll regions) =
      Region.declaredWidth regions := by
    have hmap (rs : List Region) :
        rs.filterMap Region.width = (rs.map Region.width).filterMap id := by
      rw [List.filterMap_map]
      rfl
    simp only [Region.declaredWidth, hmap, Region.widths_levelledAll]
  have hlayout (size start : Nat) : Region.layout size start (Region.levelledAll regions) =
      Region.layout size start regions := by
    clear h hwidth
    induction regions generalizing start with
    | nil => rfl
    | cons r rs ih =>
      obtain ⟨name, width, g⟩ := r
      simp only [Region.levelledAll, Region.levelled, Region.layout, ih]
  have haccept (text : Text) (start : Nat) :
      Region.accept Strategy.standard.opens classes (Region.levelledAll regions) text start =
        Region.accept Strategy.standard.opens classes regions text start := by
    clear hwidth hlayout
    induction regions generalizing start with
    | nil => simp only [Region.levelledAll, Region.accept]
    | cons r rs ih =>
      obtain ⟨hr, hrs⟩ := List.forall_mem_cons.mp h
      obtain ⟨name, width, _ | g⟩ := r
      · simp only [Region.levelledAll, Region.levelled, Grammar.levelledOption, Region.accept,
          Region.accepts, ih hrs]
      · simp only [Region.levelledAll, Region.levelled, Grammar.levelledOption, Region.accept,
          Region.accepts, ih hrs, Match.any_stop_congr (hr g rfl _ _)]
  refine .of_stop fun text offset => ?_
  simp only [Checker.levelled, Checker.found, hwidth, hlayout, haccept]

/-- The first match of a grammar that leaves no choice is its only one. -/
theorem grammar {g : Grammar} (h : g.levelled.SameStops classes g) :
    (Checker.grammar g).levelled.Alike classes (.grammar g) := by
  refine ⟨fun text offset => ?_, fun hsure text offset => ?_⟩
  · simp only [Checker.levelled, Checker.found, Option.isSome_map,
      Match.isSome_head?_congr (h text offset)]
  · have hsure' : g.levelled.isDeterministic = some true :=
      (Grammar.isDeterministic_levelled g).trans hsure
    simp only [Checker.levelled, Checker.found, Option.map_map]
    exact Match.head?_stop_congr (Grammar.length_outcomes_le_one hsure' text offset)
      (Grammar.length_outcomes_le_one hsure text offset) (h text offset)

end Checker.Alike

/-- A target that is not a grammar has the one match of its checker. -/
theorem Target.stops_outcomes {c : Checker} (hc : ∀ g, c ≠ .grammar g) (text : Text)
    (offset : Nat) :
    Found.stops ((Target.checker c).outcomes Strategy.standard.opens classes text offset) =
      Found.stops (c.found Strategy.standard.opens classes text offset).toList := by
  cases c with
  | grammar g => exact absurd rfl (hc g)
  | fixed regions =>
    simp only [Target.outcomes, Checker.found]
    split
    · simp [Found.stops]
    · rfl
  | _ => simp only [Target.outcomes]

theorem Target.sameStops_levelled {c : Checker} (hc : c.levelled.Alike classes c)
    (hg : ∀ g, c = .grammar g → g.levelled.SameStops classes g) :
    (Target.checker c).levelled.SameStops classes (.checker c) := by
  intro text offset
  by_cases hgrammar : ∃ g, c = .grammar g
  · obtain ⟨g, rfl⟩ := hgrammar
    have hopens : Strategy.standard.opens g.levelled = Strategy.standard.opens g := by
      simp only [Strategy.standard, Grammar.isDeterministic_levelled]
    simp only [Target.levelled, Checker.levelled, Target.outcomes, hopens]
    split
    · rw [Match.stops_map_found, Match.stops_map_found]
      exact hg g rfl text offset
    · next hclosed =>
      -- only a grammar that leaves no choice is not walked
      have hsure : g.isDeterministic = some true := by
        simpa [Strategy.standard] using hclosed
      have hsure' : g.levelled.isDeterministic = some true :=
        (Grammar.isDeterministic_levelled g).trans hsure
      rw [List.take_of_length_le, List.take_of_length_le, Match.stops_map_found,
        Match.stops_map_found]
      · exact hg g rfl text offset
      · simpa only [List.length_map] using Grammar.length_outcomes_le_one hsure text offset
      · simpa only [List.length_map] using Grammar.length_outcomes_le_one hsure' text offset
  · have hne : ∀ g, c ≠ .grammar g := fun g h => hgrammar ⟨g, h⟩
    have hne' : ∀ g, c.levelled ≠ .grammar g := by
      intro g h
      cases c with
      | grammar g => exact hne g rfl
      | _ => cases h
    have hsure : c.IsSure := by
      cases c with
      | grammar g => exact absurd rfl (hne g)
      | _ => exact trivial
    simp only [Target.levelled]
    rw [Target.stops_outcomes hne', Target.stops_outcomes hne]
    exact Found.stops_toList_congr (hc.stop hsure text offset)

mutual

/-- **Levelling keeps where outcomes end**, when the choices in the grammar leave none themselves. -/
theorem Grammar.sameStops_levelled : ∀ {g : Grammar}, g.SureChoices →
    g.levelled.SameStops classes g
  | ⟨_⟩, h => fun text offset => by
    simp only [Grammar.levelled, Grammar.outcomes]
    exact Entry.stops_allOutcomes_levelled h text offset

theorem Grammar.sameStops_levelledIn : ∀ {g : Option Grammar},
    Grammar.ThroughoutOption Checker.HasSureChoices (fun _ => True) g →
      ∀ g', g = some g' → g'.levelled.SameStops classes g'
  | none, _ => fun _ h => nomatch h
  | some _, h => fun _ heq => Option.some.inj heq ▸ Grammar.sameStops_levelled h

theorem Entry.stops_allOutcomes_levelled : ∀ {es : List Entry},
    Entry.ThroughoutAll Checker.HasSureChoices (fun _ => True) es → ∀ (text : Text) (offset : Nat),
      Match.stops (Entry.allOutcomes Strategy.standard.opens classes (Entry.levelledAll es) text
          offset) =
        Match.stops (Entry.allOutcomes Strategy.standard.opens classes es text offset)
  | [], _, _, _ => by simp only [Entry.levelledAll, Entry.allOutcomes]
  | ⟨_, _, _, _⟩ :: _, h, text, offset => by
    simp only [Entry.levelledAll, Entry.allOutcomes]
    refine Match.stops_flatMap_congr (Entry.stops_outcomes_levelled (Target.sameStops h.1.2.1)
      (Grammar.sameStops_levelledIn h.1.2.2) text offset) fun a _ b _ hab => ?_
    rw [Match.stops_map_after, Match.stops_map_after, hab]
    exact Entry.stops_allOutcomes_levelled h.2 text b.stop

theorem Target.sameStops : ∀ {t : Target},
    t.Throughout Checker.HasSureChoices (fun _ => True) → t.levelled.SameStops classes t
  | .checker _, h =>
    Target.sameStops_levelled (Checker.alike_levelled h) (Checker.sameStops_levelled h)
  | .ref _, _ | .type _, _ => fun _ _ => rfl

/-- What a checker is, when it is a grammar. -/
theorem Checker.sameStops_levelled : ∀ {c : Checker},
    c.Throughout Checker.HasSureChoices (fun _ => True) →
      ∀ g, c = .grammar g → g.levelled.SameStops classes g
  | .grammar _, h => fun _ heq => Checker.grammar.inj heq ▸ Grammar.sameStops_levelled h.2
  | .char _, _ | .word _, _ | .any _, _ | .oneOf _ _, _ | .not _, _ | .fixed _, _ =>
    fun _ heq => nomatch heq

theorem Checker.alike_levelled : ∀ {c : Checker},
    c.Throughout Checker.HasSureChoices (fun _ => True) → c.levelled.Alike classes c
  | .char _, _ | .word _, _ | .any _, _ => .refl _
  | .oneOf _ _, h =>
    .oneOf h.1 (Checker.each_alike_levelled h.2.1) (Checker.alike_levelledIn h.2.2)
  | .not item, h => .not (Checker.alike_levelled (c := item) h.2)
  | .fixed _, h => .fixed (Region.each_sameStops_levelled h.2)
  | .grammar g, h => .grammar (Grammar.sameStops_levelled (g := g) h.2)

theorem Checker.each_alike_levelled : ∀ {cs : List Checker},
    Checker.ThroughoutAll Checker.HasSureChoices (fun _ => True) cs →
      ∀ c ∈ cs, c.levelled.Alike classes c
  | [], _ => fun _ hc => nomatch hc
  | _ :: _, h =>
    List.forall_mem_cons.mpr ⟨Checker.alike_levelled h.1, Checker.each_alike_levelled h.2⟩

theorem Checker.alike_levelledIn : ∀ {c : Option Checker},
    Checker.ThroughoutOption Checker.HasSureChoices (fun _ => True) c →
      ∀ c', c = some c' → c'.levelled.Alike classes c'
  | none, _ => fun _ h => nomatch h
  | some c, h => fun _ heq => Option.some.inj heq ▸ Checker.alike_levelled (c := c) h

theorem Region.each_sameStops_levelled : ∀ {rs : List Region},
    Region.ThroughoutAll Checker.HasSureChoices (fun _ => True) rs →
      ∀ r ∈ rs, ∀ g, r.grammar = some g → g.levelled.SameStops classes g
  | [], _ => fun _ h => nomatch h
  | ⟨_, _, _⟩ :: _, h => List.forall_mem_cons.mpr
    ⟨Grammar.sameStops_levelledIn h.1, Region.each_sameStops_levelled h.2⟩

end

end

/-! ## Matching -/

/-- Both match, or both leave the text unmatched. -/
def SameSuccess (a b : Except Stop MatchTree) : Prop :=
  (∃ tree tree', a = .ok tree ∧ b = .ok tree') ∨
    ∃ u v, a = .error (.refused (.unmatched u)) ∧ b = .error (.refused (.unmatched v))

/-- Whether a mode finds an outcome depends only on where outcomes end. -/
theorem Mode.isSome_pick_congr {as bs : List Match} (h : Match.stops as = Match.stops bs)
    (size : Nat) (mode : Mode) :
    (mode.pick size as).isSome = (mode.pick size bs).isSome := by
  cases mode with
  | beginning => exact Match.isSome_head?_congr h
  | whole =>
    simp only [Mode.pick, List.isSome_find?]
    exact Match.any_stop_congr h

theorem SameSuccess.answer {text : Text} {start : Nat} {u v : Unmatched} {a b : Option Match}
    (h : a.isSome = b.isSome) :
    SameSuccess (Grammar.answer text start u a) (Grammar.answer text start v b) := by
  cases a with
  | none =>
    cases b with
    | none => exact .inr ⟨u, v, rfl, rfl⟩
    | some b => cases h
  | some a =>
    cases b with
    | none => cases h
    | some b => exact .inl ⟨_, _, rfl, rfl⟩

namespace Grammar

variable {g g' : Grammar}

/-- **As many or as few makes no difference to success.** Let two grammars without types differ only
in that entries of the one, however deep they lie, take as many repeats as possible where those of
the other take as few, and let the choices of alternatives leave none themselves. Then, with enough
steps, both match a beginning of the text or neither does, and both match the whole text or neither
does. -/
theorem greediness_duality (same : g.levelled = g'.levelled) (untyped : g.Untyped)
    (built : g.Built) (sure : g.SureChoices) (types : TypeEnv) {text : Text}
    (fits : text.size < maxCount) :
    ∃ enough, ∀ fuel ≥ enough,
      SameSuccess (g.parse fuel types text) (g'.parse fuel types text) ∧
        SameSuccess (g.matchWhole fuel types text) (g'.matchWhole fuel types text) := by
  have hstops : Match.stops (g.outcomes Strategy.standard.opens types.classes text 0) =
      Match.stops (g'.outcomes Strategy.standard.opens types.classes text 0) :=
    calc Match.stops (g.outcomes Strategy.standard.opens types.classes text 0)
      _ = Match.stops (g.levelled.outcomes Strategy.standard.opens types.classes text 0) :=
        (sameStops_levelled sure text 0).symm
      _ = Match.stops (g'.levelled.outcomes Strategy.standard.opens types.classes text 0) := by
        rw [same]
      _ = Match.stops (g'.outcomes Strategy.standard.opens types.classes text 0) :=
        sameStops_levelled (sure.of_levelled same) text 0
  have hmode (mode : Mode) : ∀ᶠ fuel in Filter.atTop,
      SameSuccess (g.matchFrom fuel types text mode 0) (g'.matchFrom fuel types text mode 0) := by
    obtain ⟨u, hu⟩ := matchFrom_eventually untyped built types fits (Nat.zero_le _) mode
    obtain ⟨v, hv⟩ := matchFrom_eventually (untyped.of_levelled same) (built.of_levelled same) types
      fits (Nat.zero_le _) mode
    filter_upwards [hu, hv] with fuel hu hv
    rw [hu, hv]
    exact .answer (Mode.isSome_pick_congr hstops text.size mode)
  exact Filter.eventually_atTop.mp ((hmode .beginning).and (hmode .whole))

/-- Some `a` in a grammar of their own, at least one of them, and then an `a` or a `b`. -/
def someThenOne (greediness : Greediness) : Grammar :=
  ⟨[.ofChecker (.sequence [(Entry.ofChecker (.single 'a')).quantified ⟨1, none, greediness⟩]),
    .ofChecker (.alternative [.single 'a', .single 'b'])]⟩

theorem someThenOne_success :
    (someThenOne .maximum).levelled = (someThenOne .minimum).levelled ∧
      (someThenOne .maximum).Untyped ∧ (someThenOne .maximum).Built ∧
      (someThenOne .maximum).SureChoices ∧ ∃ enough, ∀ fuel ≥ enough,
        SameSuccess ((someThenOne .maximum).parse fuel .bare #['a', 'a'])
            ((someThenOne .minimum).parse fuel .bare #['a', 'a']) ∧
          SameSuccess ((someThenOne .maximum).matchWhole fuel .bare #['a', 'a'])
            ((someThenOne .minimum).matchWhole fuel .bare #['a', 'a']) := by
  have untyped : (someThenOne .maximum).Untyped :=
    ⟨⟨⟨_, rfl⟩, ⟨⟨⟨_, rfl⟩, trivial, trivial⟩, trivial⟩, trivial⟩,
      ⟨⟨_, rfl⟩, ⟨⟨trivial, trivial, trivial⟩, trivial⟩, trivial⟩, trivial⟩
  have built : (someThenOne .maximum).Built :=
    ⟨⟨trivial, ⟨⟨trivial, trivial, trivial⟩, trivial⟩, trivial⟩,
      ⟨trivial, ⟨⟨trivial, trivial, trivial⟩, trivial⟩, trivial⟩, trivial⟩
  have choices : ∀ c ∈ [Checker.single 'a', Checker.single 'b'], c.IsSure :=
    List.forall_mem_cons.mpr ⟨trivial, List.forall_mem_cons.mpr ⟨trivial, fun _ h => nomatch h⟩⟩
  have sure : (someThenOne .maximum).SureChoices :=
    ⟨⟨trivial, ⟨trivial, ⟨trivial, trivial, trivial⟩, trivial⟩, trivial⟩,
      ⟨trivial, ⟨⟨choices, fun _ h => nomatch h⟩, ⟨trivial, trivial, trivial⟩, trivial⟩, trivial⟩,
      trivial⟩
  have same : (someThenOne .maximum).levelled = (someThenOne .minimum).levelled := rfl
  have fits : #['a', 'a'].size < maxCount := by decide
  exact ⟨same, untyped, built, sure, greediness_duality same untyped built sure .bare fits⟩

end Grammar

end TextGrammar
