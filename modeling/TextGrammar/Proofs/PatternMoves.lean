/-
Rules for what moves from the inner text of an inlay to the outer one. A test
for a character has the same answer where the texts agree, and everywhere if a
line break does not pass it. What is made of tests of the second kind is steady:
it comes to the same in both texts. Other entries move up to where they may end.
-/
import TextGrammar.Proofs.PatternInlay

namespace TextGrammar.Pattern.Inlay

variable {l : Inlay} {i : Nat} {entry : Entry} {entries : List Entry} {use : Option TypeUse}
  {c : Checker} {set : CharSet} {S : Nat → Prop}

/-! ## Characters -/

/-- A line break is not in the set. -/
def Stops (set : CharSet) : Prop := set.contains .standard '\n' = false

theorem stops_single {x : Char} (h : x ≠ '\n') : Stops (.single x) := beq_false_of_ne h

/-- Where the texts agree, or a line break stops it, a test for a character has the same answer. -/
theorem char_alike (h : l.Agrees i ∨ Stops set) (hi : i ≤ l.inner.size) :
    (∃ x, l.inner[i]? = some x ∧ l.outer[i + l.shift]? = some x ∧
      set.contains .standard x = true) ∨
    ((∀ x, l.inner[i]? = some x → set.contains .standard x = false) ∧
      ∀ x, l.outer[i + l.shift]? = some x → set.contains .standard x = false) := by
  rcases Nat.lt_or_ge i l.inner.size with hlt | hge
  · have hsame := l.same i hlt
    obtain ⟨x, hx⟩ : ∃ x, l.inner[i]? = some x := ⟨_, Array.getElem?_eq_getElem hlt⟩
    cases hset : set.contains .standard x with
    | true => exact .inl ⟨x, hx, hsame.trans hx, hset⟩
    | false =>
      refine .inr ⟨fun y hy => ?_, fun y hy => ?_⟩
      · rw [hx] at hy
        cases hy
        exact hset
      · rw [hsame, hx] at hy
        cases hy
        exact hset
  · obtain rfl : i = l.inner.size := by omega
    have hend : l.inner[l.inner.size]? = none := Array.getElem?_eq_none (Nat.le_refl _)
    refine .inr ⟨fun y hy => ?_, fun y hy => ?_⟩
    · rw [hend] at hy
      cases hy
    · rcases h with hagree | hstops
      · rw [hagree, hend] at hy
        cases hy
      · rw [l.beyond y hy]
        exact hstops

/-- A character of a set, as a choice. -/
theorem char_picks (set : CharSet) (hi : i ≤ l.inner.size) :
    l.Picks (Chooses l.inner (.char set) i) (fun found =>
      (l.Agrees i ∨ Stops set →
        Chooses l.outer (.char set) (i + l.shift) (found.map (.shift l.shift))) ∧
      (∀ f ∈ found, f = ⟨i + 1, [], false⟩ ∧
        ∃ x, l.inner[i]? = some x ∧ set.contains .standard x = true) ∧
      (found = none → ∀ x, l.inner[i]? = some x → set.contains .standard x = false)) i := by
  by_cases hx : ∃ x, l.inner[i]? = some x ∧ set.contains .standard x = true
  · obtain ⟨x, hx, hset⟩ := hx
    have hlt : i < l.inner.size := (Array.getElem?_eq_some_iff.mp hx).1
    refine ⟨_, .char hx hset, ?_, fun _ => ?_, ?_, by rintro ⟨⟩⟩
    · rintro f ⟨⟩
      exact ⟨Nat.le_succ i, hlt⟩
    · have houter := Chooses.char ((l.same i hlt).trans hx) hset
      rw [Nat.add_right_comm] at houter
      exact houter
    · rintro f ⟨⟩
      exact ⟨rfl, x, hx, hset⟩
  · have hnone : ∀ x, l.inner[i]? = some x → set.contains .standard x = false := by
      intro x hget
      by_contra hset
      exact hx ⟨x, hget, eq_true_of_ne_false hset⟩
    refine ⟨none, .not_char hnone, by rintro f ⟨⟩, fun hor => ?_, by rintro f ⟨⟩, fun _ => hnone⟩
    rcases char_alike hor hi with ⟨x, hget, -, hset⟩ | ⟨-, houter⟩
    · exact absurd ⟨x, hget, hset⟩ hx
    · exact .not_char houter

/-- An entry whose checker is matched at once. -/
theorem Picks.attempts {T : Option Found → Prop} {T' : Option Match → Prop}
    (hentry : entry.MatchedBy patternTypes use c) (hdirect : isDirect c = true)
    (h : l.Picks (Chooses l.inner c i) T i)
    (hT : ∀ found, T found → T' (found.map fun f => ⟨f.stop, entry.nodesOf i f use⟩)) :
    l.Yields (Attempts l.inner entry i) T' i := by
  obtain ⟨found, hR, hin, hfound⟩ := h
  refine ⟨_, .at_once hentry hdirect hR, fun m hm => ?_, hT found hfound⟩
  obtain ⟨f, hf, rfl⟩ := Option.map_eq_some_iff.mp hm
  exact hin f hf

/-- What is found at once in the outer text makes the nodes of the inner one, moved. -/
theorem attempts_shift {found : Option Found} (hentry : entry.MatchedBy patternTypes use c)
    (hdirect : isDirect c = true)
    (h : Chooses l.outer c (i + l.shift) (found.map (.shift l.shift))) :
    l.Alike (Attempts l.outer entry (i + l.shift))
      (found.map fun f => ⟨f.stop, entry.nodesOf i f use⟩) := by
  have houter := Attempts.at_once hentry hdirect h
  cases found with
  | none => exact houter
  | some f =>
    simp only [Option.map_some, Entry.nodesOf_shift] at houter
    exact houter

/-- A character of a set, as an entry. -/
theorem char_yields (hentry : entry.MatchedBy patternTypes none (.char set))
    (hi : i ≤ l.inner.size) :
    l.Yields (Attempts l.inner entry i) (fun found =>
      (l.Agrees i ∨ Stops set → l.Alike (Attempts l.outer entry (i + l.shift)) found) ∧
      (∀ m ∈ found, m = ⟨i + 1, entry.nodesOf i ⟨i + 1, [], false⟩ none⟩ ∧
        ∃ x, l.inner[i]? = some x ∧ set.contains .standard x = true) ∧
      (found = none → ∀ x, l.inner[i]? = some x → set.contains .standard x = false)) i := by
  refine Picks.attempts hentry rfl (char_picks set hi) fun found h => ?_
  obtain ⟨halike, hsome, hnone⟩ := h
  refine ⟨fun hor => attempts_shift hentry rfl (halike hor), fun m hm => ?_,
    fun hfound => hnone (Option.map_eq_none_iff.mp hfound)⟩
  obtain ⟨f, hf, rfl⟩ := Option.map_eq_some_iff.mp hm
  obtain ⟨rfl, hget⟩ := hsome f hf
  exact ⟨rfl, hget⟩

/-- An entry and those after it. -/
theorem Alike.cons {m : Match} {later : Option Match}
    (hm : l.Alike (Repeats l.outer entry 0 (i + l.shift)) (some m))
    (hlater : l.Alike (Reads l.outer entries (m.stop + l.shift)) later) :
    l.Alike (Reads l.outer (entry :: entries) (i + l.shift)) (later.map (.after m.nodes)) := by
  have hboth := Reads.cons hm hlater
  rwa [Match.shift, ← Match.map_shift_after] at hboth

/-! ## Steady entries -/

variable (l) in
/-- The same is found in both texts, and its nodes have no types. -/
structure Steady (R : Option Match → Prop) (found : Option Match) : Prop where
  alike : l.Alike R found
  untyped : ∀ m ∈ found, Untyped m.nodes

theorem Steady.stuck {R R' : Option Match → Prop} (h : l.Steady R none) (hR : R none → R' none) :
    l.Steady R' none := ⟨hR h.alike, by rintro m ⟨⟩⟩

/-- A character of a set that a line break is not in. -/
theorem Yields.steady_set (hentry : entry.MatchedBy patternTypes none (.char set))
    (hi : i ≤ l.inner.size) (hstops : Stops set) :
    l.Yields (Attempts l.inner entry i) (fun found =>
      l.Steady (Attempts l.outer entry (i + l.shift)) found ∧
      ∀ m ∈ found, m.nodes = entry.nodesOf i ⟨i + 1, [], false⟩ none) i := by
  refine (char_yields hentry hi).mono fun found _ h => ⟨⟨h.1 (.inr hstops), fun m hm => ?_⟩,
    fun m hm => ?_⟩
  · rw [(h.2.1 m hm).1]
    exact .nodesOf .nil
  · rw [(h.2.1 m hm).1]

theorem Yields.steady_char (hentry : entry.MatchedBy patternTypes none (.char set))
    (hi : i ≤ l.inner.size) (hstops : Stops set) :
    l.Yields (Attempts l.inner entry i) (l.Steady (Attempts l.outer entry (i + l.shift))) i :=
  (steady_set hentry hi hstops).mono fun _ _ h => h.1

/-- An entry is steady if its attempts are. Where there may be nothing, there is always a match. -/
theorem Yields.steady_repeats
    (h : ∀ j, i ≤ j → j ≤ l.inner.size → l.Yields (Attempts l.inner entry j)
      (l.Steady (Attempts l.outer entry (j + l.shift))) j)
    (hi : i ≤ l.inner.size) (repeats : Nat) :
    l.Yields (Repeats l.inner entry repeats i) (fun found =>
      l.Steady (Repeats l.outer entry repeats (i + l.shift)) found ∧
      (entry.quantifier.lower = 0 → found.isSome = true)) i := by
  suffices hleft : ∀ left j repeats, i ≤ j → j + left = l.inner.size →
      l.Yields (Repeats l.inner entry repeats j) (fun found =>
        l.Steady (Repeats l.outer entry repeats (j + l.shift)) found ∧
        (entry.quantifier.lower = 0 → found.isSome = true)) j from
    hleft (l.inner.size - i) i repeats (Nat.le_refl i) (by omega)
  intro left
  induction left using Nat.strong_induction_on with
  | _ left ih =>
  intro j repeats hij hleft
  have hj : j ≤ l.inner.size := by omega
  have hhere : ∀ m ∈ some (⟨j, []⟩ : Match), j ≤ m.stop ∧ m.stop ≤ l.inner.size := by
    rintro m ⟨⟩
    exact ⟨Nat.le_refl j, hj⟩
  have hempty : ∀ m ∈ some (⟨j, []⟩ : Match), Untyped m.nodes := by
    rintro m ⟨⟩
    exact .nil
  cases hfull : entry.quantifier.isFull repeats with
  | true => exact ⟨_, .full hfull, hhere, ⟨.full hfull, hempty⟩, fun _ => rfl⟩
  | false =>
    obtain ⟨found, hR, hin, halike, huntyped⟩ := h j hij hj
    cases found with
    | none =>
      have hmissed := Repeats.missed hfull hR
      have hmissed' := Repeats.missed hfull halike
      by_cases hlower : repeats < entry.quantifier.lower
      · rw [if_pos hlower] at hmissed hmissed'
        exact ⟨none, hmissed, by rintro m ⟨⟩, ⟨hmissed', by rintro m ⟨⟩⟩, fun hzero => by omega⟩
      · rw [if_neg hlower] at hmissed hmissed'
        exact ⟨_, hmissed, hhere, ⟨hmissed', hempty⟩, fun _ => rfl⟩
    | some m =>
      obtain ⟨hle, hsize⟩ := hin m rfl
      by_cases hstop : m.stop = j
      · obtain ⟨stop, nodes⟩ := m
        subst hstop
        exact ⟨_, .stayed hfull hR, hin, ⟨.stayed hfull halike, huntyped⟩, fun _ => rfl⟩
      · obtain ⟨later, hlater, hlaterIn, ⟨hlaterAlike, hlaterUntyped⟩, hsome⟩ :=
          ih (l.inner.size - m.stop) (by omega) m.stop (repeats + 1) (by omega) (by omega)
        have hstop' : (m.shift l.shift).stop ≠ j + l.shift := by
          simp only [Match.shift]
          omega
        have hboth := Repeats.more hfull halike hstop' hlaterAlike
        rw [Match.shift, ← Match.map_shift_after] at hboth
        refine ⟨_, .more hfull hR hstop hlater, fun m' hm' => ?_, ⟨hboth, fun m' hm' => ?_⟩,
          fun hzero => ?_⟩
        · obtain ⟨last, hlast, rfl⟩ := Option.map_eq_some_iff.mp hm'
          exact ⟨Nat.le_trans hle (hlaterIn last hlast).1, (hlaterIn last hlast).2⟩
        · obtain ⟨last, hlast, rfl⟩ := Option.map_eq_some_iff.mp hm'
          exact (huntyped m rfl).append (hlaterUntyped last hlast)
        · rw [Option.isSome_map]
          exact hsome hzero

theorem Yields.steady_nil (hi : i ≤ l.inner.size) :
    l.Yields (Reads l.inner [] i) (l.Steady (Reads l.outer [] (i + l.shift))) i := by
  refine (Yields.nil hi).mono fun found _ h => ?_
  obtain rfl := h
  refine ⟨.nil, ?_⟩
  rintro m ⟨⟩
  exact .nil

/-- Steady entries, and what is true of all their nodes. -/
theorem Yields.steady_cons_all {P : List Node → Prop}
    (happend : ∀ nodes later, P nodes → P later → P (nodes ++ later))
    (h : l.Yields (Repeats l.inner entry 0 i) (fun found =>
      l.Steady (Repeats l.outer entry 0 (i + l.shift)) found ∧ ∀ m ∈ found, P m.nodes) i)
    (h' : ∀ j, i ≤ j → j ≤ l.inner.size → l.Yields (Reads l.inner entries j) (fun found =>
      l.Steady (Reads l.outer entries (j + l.shift)) found ∧ ∀ m ∈ found, P m.nodes) j) :
    l.Yields (Reads l.inner (entry :: entries) i) (fun found =>
      l.Steady (Reads l.outer (entry :: entries) (i + l.shift)) found ∧
      ∀ m ∈ found, P m.nodes) i := by
  refine .cons h (fun m hle hsize hm => ?_) fun hnone =>
    ⟨hnone.1.stuck Reads.stuck, by rintro m ⟨⟩⟩
  obtain ⟨hsteady, hP⟩ := hm
  refine (h' m.stop hle hsize).mono fun later _ hlater =>
    ⟨⟨hsteady.alike.cons hlater.1.alike, fun m' hm' => ?_⟩, fun m' hm' => ?_⟩
  · obtain ⟨last, hlast, rfl⟩ := Option.map_eq_some_iff.mp hm'
    exact (hsteady.untyped m rfl).append (hlater.1.untyped last hlast)
  · obtain ⟨last, hlast, rfl⟩ := Option.map_eq_some_iff.mp hm'
    exact happend _ _ (hP m rfl) (hlater.2 last hlast)

theorem Yields.steady_cons {T : Option Match → Prop}
    (h : l.Yields (Repeats l.inner entry 0 i)
      (fun found => l.Steady (Repeats l.outer entry 0 (i + l.shift)) found ∧ T found) i)
    (h' : ∀ j, i ≤ j → j ≤ l.inner.size → l.Yields (Reads l.inner entries j)
      (l.Steady (Reads l.outer entries (j + l.shift))) j) :
    l.Yields (Reads l.inner (entry :: entries) i)
      (l.Steady (Reads l.outer (entry :: entries) (i + l.shift))) i := by
  refine (steady_cons_all (P := fun _ => True) (fun _ _ _ _ => trivial)
    (h.mono fun _ _ hfound => ⟨hfound.1, fun _ _ => trivial⟩) fun j hij hj =>
      (h' j hij hj).mono fun _ _ hfound => ⟨hfound, fun _ _ => trivial⟩).mono fun _ _ hfound => ?_
  exact hfound.1

/-- A group of steady entries. -/
theorem Yields.steady_group (hentry : entry.MatchedBy patternTypes none (.sequence entries))
    (h : l.Yields (Reads l.inner entries i) (l.Steady (Reads l.outer entries (i + l.shift))) i) :
    l.Yields (Attempts l.inner entry i) (fun found =>
      l.Steady (Attempts l.outer entry (i + l.shift)) found ∧
      ∀ m ∈ found, ∃ f : Found, m.stop = f.stop ∧ m.nodes = entry.nodesOf i f none) i := by
  obtain ⟨found, hR, hin, halike, huntyped⟩ := h
  refine ⟨_, .grammar hentry hR, fun m hm => ?_, ⟨?_, fun m hm => ?_⟩, fun m hm => ?_⟩
  · obtain ⟨m, hm', rfl⟩ := Option.map_eq_some_iff.mp hm
    exact hin m hm'
  · have houter := Attempts.grammar hentry halike
    cases found with
    | none => exact houter
    | some m =>
      have hfound : (m.shift l.shift).found = m.found.shift l.shift := rfl
      simp only [Option.map_some, hfound, Entry.nodesOf_shift] at houter
      exact houter
  · obtain ⟨m, hm', rfl⟩ := Option.map_eq_some_iff.mp hm
    exact .nodesOf (huntyped m hm')
  · obtain ⟨m, hm', rfl⟩ := Option.map_eq_some_iff.mp hm
    exact ⟨m.found, rfl, rfl⟩

theorem Yields.steady_once {P : Match → Prop} (hi : i ≤ l.inner.size)
    (hlower : entry.quantifier.lower = 1) (hupper : entry.quantifier.upper = some 1)
    (h : l.Yields (Attempts l.inner entry i) (fun found =>
      l.Steady (Attempts l.outer entry (i + l.shift)) found ∧ ∀ m ∈ found, P m) i) :
    l.Yields (Repeats l.inner entry 0 i) (fun found =>
      l.Steady (Repeats l.outer entry 0 (i + l.shift)) found ∧ ∀ m ∈ found, P m) i := by
  have hone : entry.quantifier.lower ≠ 0 := hlower ▸ Nat.one_ne_zero
  refine .once hi hupper h fun found hfound => ?_
  have houter := Repeats.once hupper hfound.1.alike
  rw [if_neg hone] at houter ⊢
  exact ⟨⟨houter, hfound.1.untyped⟩, hfound.2⟩

/-- A character of a set, once. -/
theorem set_yields (hentry : entry.MatchedBy patternTypes none (.char set))
    (hlower : entry.quantifier.lower = 1) (hupper : entry.quantifier.upper = some 1)
    (hi : i ≤ l.inner.size) :
    l.Yields (Repeats l.inner entry 0 i) (fun found =>
      (l.Agrees i ∨ Stops set → l.Alike (Repeats l.outer entry 0 (i + l.shift)) found) ∧
      (∀ m ∈ found, m = ⟨i + 1, entry.nodesOf i ⟨i + 1, [], false⟩ none⟩ ∧
        ∃ x, l.inner[i]? = some x ∧ set.contains .standard x = true) ∧
      (found = none → ∀ x, l.inner[i]? = some x → set.contains .standard x = false)) i := by
  have hone : entry.quantifier.lower ≠ 0 := hlower ▸ Nat.one_ne_zero
  refine .once hi hupper (char_yields hentry hi) fun found h => ?_
  rw [if_neg hone]
  refine ⟨fun hor => ?_, h.2⟩
  have honce := Repeats.once hupper (h.1 hor)
  rwa [if_neg hone] at honce

/-- A certain character other than a line break. -/
theorem single_yields {x : Char} (hx : x ≠ '\n') (hi : i ≤ l.inner.size) :
    l.Yields (Repeats l.inner (char x) 0 i) (fun found =>
      l.Alike (Repeats l.outer (char x) 0 (i + l.shift)) found ∧
      (∀ m ∈ found, m = ⟨i + 1, [.leaf i (i + 1)]⟩ ∧ l.inner[i]? = some x) ∧
      (found = none → l.inner[i]? ≠ some x)) i := by
  have hentry : (char x).MatchedBy patternTypes none (.char (.single x)) := .ofChecker _
  refine (set_yields hentry rfl rfl hi).mono fun found _ h =>
    ⟨h.1 (.inr (stops_single hx)), fun m hm => ?_, fun hfound hget => ?_⟩
  · obtain ⟨rfl, y, hy, hset⟩ := h.2.1 m hm
    have hxy : x = y := beq_iff_eq.mp hset
    exact ⟨rfl, hxy ▸ hy⟩
  · have hset := h.2.2 hfound x hget
    simp [CharSet.contains] at hset

theorem Yields.steady_single {x : Char} (hx : x ≠ '\n') (hi : i ≤ l.inner.size) :
    l.Yields (Repeats l.inner (char x) 0 i) (fun found =>
      l.Steady (Repeats l.outer (char x) 0 (i + l.shift)) found ∧
      ((char x).quantifier.lower = 0 → found.isSome = true)) i :=
  .steady_repeats (fun _ _ hj => .steady_char (.ofChecker _) hj (stops_single hx)) hi 0

/-- A certain character that may be left out. -/
theorem optional_char_yields {x : Char} (entry : Entry)
    (hentry : entry.MatchedBy patternTypes none (.char (.single x)))
    (hlower : entry.quantifier.lower = 0) (hupper : entry.quantifier.upper = some 1)
    (hx : x ≠ '\n') (hi : i ≤ l.inner.size) :
    l.Yields (Repeats l.inner entry 0 i) (fun found =>
      l.Steady (Repeats l.outer entry 0 (i + l.shift)) found ∧ ∃ m, found = some m ∧
        (m = ⟨i, []⟩ ∧ l.inner[i]? ≠ some x ∨
          m = ⟨i + 1, entry.nodesOf i ⟨i + 1, [], false⟩ none⟩ ∧ l.inner[i]? = some x)) i := by
  refine .once hi hupper (char_yields hentry hi) fun found h => ?_
  obtain ⟨halike, hsome, hnone⟩ := h
  have houter := Repeats.once hupper (halike (.inr (stops_single hx)))
  rw [if_pos hlower] at houter ⊢
  cases found with
  | none =>
    refine ⟨⟨houter, ?_⟩, _, rfl, .inl ⟨rfl, fun hget => ?_⟩⟩
    · rintro m ⟨⟩
      exact .nil
    · have hset := hnone rfl x hget
      simp [CharSet.contains] at hset
  | some m =>
    obtain ⟨rfl, y, hy, hset⟩ := hsome m rfl
    obtain rfl : x = y := beq_iff_eq.mp hset
    refine ⟨⟨houter, ?_⟩, _, rfl, .inr ⟨rfl, hy⟩⟩
    rintro m ⟨⟩
    exact .nodesOf .nil

/-! ## Moving on -/

/-- An entry that repeats at most once moves as its attempt does. -/
theorem Moves.once {found : Option Match} (hupper : entry.quantifier.upper = some 1)
    (h : l.Moves (Attempts l.outer entry (i + l.shift)) found) :
    l.Moves (Repeats l.outer entry 0 (i + l.shift))
      (if entry.quantifier.lower = 0 then some (found.getD ⟨i, []⟩) else found) := by
  intro hclean
  by_cases hlower : entry.quantifier.lower = 0
  · simp only [hlower, if_true] at hclean ⊢
    have honce := Repeats.once hupper (h (by rintro m rfl; exact hclean m rfl))
    rw [if_pos hlower] at honce
    cases found <;> exact honce
  · simp only [hlower, if_false] at hclean ⊢
    have honce := Repeats.once hupper (h hclean)
    rwa [if_neg hlower] at honce

theorem MovesIf.once {found : Option Match} (hupper : entry.quantifier.upper = some 1)
    (hlower : entry.quantifier.lower ≠ 0)
    (h : l.MovesIf S (Attempts l.outer entry (i + l.shift)) found) :
    l.MovesIf S (Repeats l.outer entry 0 (i + l.shift)) found := by
  rintro m rfl hstop hclean
  have honce := Repeats.once hupper (h m rfl hstop hclean)
  rwa [if_neg hlower] at honce

theorem Moves.cons_alike {m : Match} {later : Option Match}
    (hm : l.Alike (Repeats l.outer entry 0 (i + l.shift)) (some m))
    (hlater : l.Moves (Reads l.outer entries (m.stop + l.shift)) later) :
    l.Moves (Reads l.outer (entry :: entries) (i + l.shift)) (later.map (.after m.nodes)) := by
  intro hclean
  cases later with
  | none => exact Reads.cons hm (hlater (by rintro _ ⟨⟩))
  | some last =>
    have hlast := hlater (by rintro _ ⟨⟩; exact (AllNodes.append_iff.mp (hclean _ rfl)).2)
    have hboth := Reads.cons hm hlast
    simp only [Option.map_some, Match.shift_after]
    exact hboth

/-- A part that moves up to where it may end, before one that takes something more. -/
theorem MovesIf.cons {S' : Nat → Prop} {m : Match} {later : Option Match}
    (hm : l.MovesIf S (Repeats l.outer entry 0 (i + l.shift)) (some m))
    (hlater : l.MovesIf S' (Reads l.outer entries (m.stop + l.shift)) later)
    (hS : ∀ last ∈ later, S' last.stop → S m.stop) :
    l.MovesIf S' (Reads l.outer (entry :: entries) (i + l.shift)) (later.map (.after m.nodes)) := by
  intro both hboth hstop hclean
  obtain ⟨last, rfl, rfl⟩ := Option.map_eq_some_iff.mp hboth
  obtain ⟨hcleanHead, hcleanLast⟩ := AllNodes.append_iff.mp hclean
  have hhead := hm m rfl (hS last rfl hstop) hcleanHead
  have hread := Reads.cons hhead (hlater last rfl hstop hcleanLast)
  rw [Match.shift_after]
  exact hread

theorem Moves.cons {m last : Match}
    (hm : l.Moves (Repeats l.outer entry 0 (i + l.shift)) (some m))
    (hlast : l.Moves (Reads l.outer entries (m.stop + l.shift)) (some last)) :
    l.Moves (Reads l.outer (entry :: entries) (i + l.shift)) (some (last.after m.nodes)) := by
  intro hclean
  obtain ⟨hhead, hrest⟩ := AllNodes.append_iff.mp (hclean _ rfl)
  have hread := Reads.cons (hm (by rintro _ ⟨⟩; exact hhead)) (hlast (by rintro _ ⟨⟩; exact hrest))
  rw [Option.map_some, Match.shift_after]
  exact hread

theorem MovesIf.none {R : Option Match → Prop} : l.MovesIf S R none := by rintro m ⟨⟩

/-! ## Attempts -/

/-- An entry of a grammar moves as the entries of the grammar do. -/
theorem Moves.grammar {g : Grammar} {found : Option Match} (hflat : entry.isFlat = false)
    (hentry : entry.MatchedBy patternTypes use (.grammar g))
    (h : l.Moves (Reads l.outer g.entries (i + l.shift)) found) :
    l.Moves (Attempts l.outer entry (i + l.shift))
      (found.map fun m => ⟨m.stop, entry.nodesOf i m.found use⟩) := by
  intro hclean
  cases found with
  | none => exact .grammar hentry (h (by rintro _ ⟨⟩))
  | some m =>
    have houter := Attempts.grammar hentry
      (h (by rintro _ ⟨⟩; exact (hclean _ rfl).of_nodesOf hflat))
    simp only [Option.map_some, Match.shift]
    rw [← Entry.nodesOf_shift]
    exact houter

theorem MovesIf.grammar {g : Grammar} {found : Option Match} (hflat : entry.isFlat = false)
    (hentry : entry.MatchedBy patternTypes use (.grammar g))
    (h : l.MovesIf S (Reads l.outer g.entries (i + l.shift)) found) :
    l.MovesIf S (Attempts l.outer entry (i + l.shift))
      (found.map fun m => ⟨m.stop, entry.nodesOf i m.found use⟩) := by
  intro m' hm' hstop hclean
  obtain ⟨m, rfl, rfl⟩ := Option.map_eq_some_iff.mp hm'
  have houter := Attempts.grammar hentry (h m rfl hstop (hclean.of_nodesOf hflat))
  simp only [Match.shift]
  rw [← Entry.nodesOf_shift]
  exact houter

/-- An entry whose checker is matched at once moves as the checker does. -/
theorem Passes.at_once {found : Option Found} (hflat : entry.isFlat = false)
    (hentry : entry.MatchedBy patternTypes use c) (hdirect : isDirect c = true)
    (h : l.Passes (Chooses l.outer c (i + l.shift)) found) :
    l.Moves (Attempts l.outer entry (i + l.shift))
      (found.map fun f => ⟨f.stop, entry.nodesOf i f use⟩) := by
  intro hclean
  refine attempts_shift hentry hdirect (h ?_)
  rintro f rfl
  exact (hclean _ rfl).of_nodesOf hflat

/-- An entry of a grammar. -/
theorem Yields.attempts {g : Grammar} {T T' : Option Match → Prop}
    (hentry : entry.MatchedBy patternTypes use (.grammar g))
    (h : l.Yields (Reads l.inner g.entries i) T i)
    (hT : ∀ found, T found → T' (found.map fun m => ⟨m.stop, entry.nodesOf i m.found use⟩)) :
    l.Yields (Attempts l.inner entry i) T' i := by
  obtain ⟨found, hR, hin, hfound⟩ := h
  refine ⟨_, .grammar hentry hR, fun m hm => ?_, hT found hfound⟩
  obtain ⟨m, hm', rfl⟩ := Option.map_eq_some_iff.mp hm
  exact hin m hm'

/-! ## Choices -/

section

variable {choices : List Checker} {found : Option Found} {P : Found → Prop}

/-- A sequence as a choice. -/
theorem Yields.picks {T : Option Match → Prop} {T' : Option Found → Prop}
    (h : l.Yields (Reads l.inner entries i) T i)
    (hT : ∀ found, T found → T' (found.map Match.found)) :
    l.Picks (Chooses l.inner (.sequence entries) i) T' i := by
  obtain ⟨found, hR, hin, hfound⟩ := h
  refine ⟨_, .sequence hR, fun f hf => ?_, hT found hfound⟩
  obtain ⟨m, hm, rfl⟩ := Option.map_eq_some_iff.mp hf
  exact hin m hm

theorem Moves.passes {found : Option Match}
    (h : l.Moves (Reads l.outer entries (i + l.shift)) found) :
    l.Passes (Chooses l.outer (.sequence entries) (i + l.shift)) (found.map Match.found) := by
  intro hclean
  have houter := Chooses.sequence (h (by rintro m rfl; exact hclean _ rfl))
  cases found <;> exact houter

variable (l) in
/-- As one of several choices at a place with a key: it moves if `A` holds, it takes something only
if the key is its own, and of what it takes `P` holds. -/
def Suits (A : Prop) (P : Found → Prop) (i key k : Nat) (c : Checker) : Prop :=
  l.Picks (Chooses l.inner c i) (fun found =>
    (A → l.Passes (Chooses l.outer c (i + l.shift)) found) ∧ (found.isSome → key = k) ∧
    ∀ f ∈ found, P f) i

theorem Yields.suits {A : Prop} {key k : Nat}
    (h : l.Yields (Reads l.inner entries i) (fun found =>
      (A → l.Moves (Reads l.outer entries (i + l.shift)) found) ∧
      ∀ m ∈ found, key = k ∧ P m.found) i) : l.Suits A P i key k (.sequence entries) := by
  refine h.picks fun found hfound =>
    ⟨fun ha => (hfound.1 ha).passes, fun hsome => ?_, fun f hf => ?_⟩
  · obtain ⟨m, rfl⟩ := Option.isSome_iff_exists.mp (by rwa [Option.isSome_map] at hsome)
    exact (hfound.2 m rfl).1
  · obtain ⟨m, hm, rfl⟩ := Option.map_eq_some_iff.mp hf
    exact (hfound.2 m hm).2

theorem char_suits {A : Prop} {key k : Nat} (hi : i ≤ l.inner.size)
    (hstops : A → l.Agrees i ∨ Stops set) (h : ∀ x, l.inner[i]? = some x →
      set.contains .standard x = true → key = k ∧ P ⟨i + 1, [], false⟩) :
    l.Suits A P i key k (.char set) := by
  refine (char_picks set hi).mono fun found _ hfound => ⟨fun ha _ => hfound.1 (hstops ha),
    fun hsome => ?_, fun f hf => ?_⟩
  · obtain ⟨f, rfl⟩ := Option.isSome_iff_exists.mp hsome
    obtain ⟨-, x, hx, hset⟩ := hfound.2.1 f rfl
    exact (h x hx hset).1
  · obtain ⟨rfl, x, hx, hset⟩ := hfound.2.1 f hf
    exact (h x hx hset).2

/-- A choice between checkers of which only the one with the key of the place takes anything. -/
theorem Picks.among {key : Nat} {A : Prop} (choices : List Checker) (first : Nat)
    (h : ∀ k c, choices[k]? = some c → l.Suits A P i key (first + k) c) :
    l.Picks (Among l.inner choices i) (fun found =>
      (A → l.Passes (Among l.outer choices (i + l.shift)) found) ∧
      (found.isSome → first ≤ key) ∧ ∀ f ∈ found, P f) i := by
  induction choices generalizing first with
  | nil => exact ⟨none, .nil, by rintro f ⟨⟩, fun _ _ => .nil, by rintro ⟨⟩, by rintro f ⟨⟩⟩
  | cons c choices ih =>
    have hrest : ∀ k c', choices[k]? = some c' → l.Suits A P i key (first + 1 + k) c' := by
      intro k c' hc'
      rw [Nat.add_right_comm, Nat.add_assoc]
      exact h (k + 1) c' hc'
    obtain ⟨later, hlater, hlaterIn, hlaterPasses, hlaterKey, hlaterP⟩ := ih (first + 1) hrest
    obtain ⟨here, hhere, hhereIn, hherePasses, hhereKey, hhereP⟩ := h 0 c rfl
    refine ⟨longer later here, hlater.cons hhere, ?_⟩
    cases later with
    | none =>
      have hlonger : longer none here = here := by cases here <;> rfl
      rw [hlonger]
      refine ⟨hhereIn, fun ha hclean => ?_, fun hs => Nat.le_of_eq (hhereKey hs).symm, hhereP⟩
      exact (hlaterPasses ha (by rintro f ⟨⟩)).only (hherePasses ha hclean)
    | some f =>
      have hfirst := hlaterKey rfl
      cases here with
      | none =>
        refine ⟨hlaterIn, fun ha hclean => ?_, fun _ => by omega, hlaterP⟩
        exact (hlaterPasses ha hclean).skip (hherePasses ha (by rintro f ⟨⟩))
      | some f' =>
        have hkey := hhereKey rfl
        omega

/-- The same as a checker. -/
theorem Picks.one_of {A : Prop} (key : Nat)
    (h : ∀ k c, choices[k]? = some c → l.Suits A P i key k c) :
    l.Picks (Chooses l.inner (.oneOf choices none) i) (fun found =>
      (A → l.Passes (Chooses l.outer (.oneOf choices none) (i + l.shift)) found) ∧
      ∀ f ∈ found, P f) i := by
  have hfirst : ∀ k c, choices[k]? = some c → l.Suits A P i key (0 + k) c := by
    simpa only [Nat.zero_add] using h
  obtain ⟨found, hR, hin, hpasses, -, hP⟩ := Picks.among choices 0 hfirst
  exact ⟨found, .one_of hR, hin, fun ha hclean => .one_of (hpasses ha hclean), hP⟩

/-- Choices that come to the same in both texts. -/
theorem Picks.one_of_alike
    (h : ∀ c ∈ choices, l.Picks (Chooses l.inner c i) (fun found =>
      Chooses l.outer c (i + l.shift) (found.map (.shift l.shift)) ∧ ∀ f ∈ found, P f) i) :
    l.Picks (Chooses l.inner (.oneOf choices none) i) (fun found =>
      Chooses l.outer (.oneOf choices none) (i + l.shift) (found.map (.shift l.shift)) ∧
      ∀ f ∈ found, P f) i := by
  suffices hamong : l.Picks (Among l.inner choices i) (fun found =>
      Among l.outer choices (i + l.shift) (found.map (.shift l.shift)) ∧ ∀ f ∈ found, P f) i by
    obtain ⟨found, hR, hin, houter, hP⟩ := hamong
    exact ⟨found, .one_of hR, hin, .one_of houter, hP⟩
  induction choices with
  | nil => exact ⟨none, .nil, by rintro f ⟨⟩, .nil, by rintro f ⟨⟩⟩
  | cons c choices ih =>
    obtain ⟨later, hlater, hlaterIn, hlaterOuter, hlaterP⟩ :=
      ih fun c' hc' => h c' (List.mem_cons_of_mem _ hc')
    obtain ⟨here, hhere, hhereIn, hhereOuter, hhereP⟩ := h c List.mem_cons_self
    refine ⟨_, hlater.cons hhere,
      fun f hf => (eq_or_eq_of_further hf).elim (hlaterIn f) (hhereIn f), ?_,
      fun f hf => (eq_or_eq_of_further hf).elim (hlaterP f) (hhereP f)⟩
    rw [← longer_shift]
    exact hlaterOuter.cons hhereOuter

/-- Choices that come to the same in both texts, before one that always takes something. -/
theorem Picks.among_alike (choices : List Checker) {last : Checker}
    (h : ∀ c ∈ choices, l.Picks (Chooses l.inner c i) (fun found =>
      Chooses l.outer c (i + l.shift) (found.map (.shift l.shift)) ∧ ∀ f ∈ found, P f) i)
    (hlast : l.Picks (Chooses l.inner last i) (fun found => ∃ f, found = some f ∧
      Chooses l.outer last (i + l.shift) (some (f.shift l.shift)) ∧ P f) i) :
    l.Picks (Among l.inner (choices ++ [last]) i) (fun found => ∃ f, found = some f ∧
      Among l.outer (choices ++ [last]) (i + l.shift) (some (f.shift l.shift)) ∧ P f) i := by
  induction choices with
  | nil =>
    obtain ⟨found, hR, hin, f, rfl, houter, hP⟩ := hlast
    exact ⟨_, .only .nil hR, hin, f, rfl, .only .nil houter, hP⟩
  | cons c choices ih =>
    obtain ⟨_, hlater, hlaterIn, f, rfl, hlaterOuter, hlaterP⟩ :=
      ih fun c' hc' => h c' (List.mem_cons_of_mem _ hc')
    obtain ⟨here, hhere, hhereIn, hhereOuter, hhereP⟩ := h c List.mem_cons_self
    refine ⟨_, hlater.cons hhere,
      fun f' hf' => (eq_or_eq_of_further hf').elim (hlaterIn f') (hhereIn f'), ?_⟩
    have hboth := hlaterOuter.cons hhereOuter
    have hsome : ∀ f' ∈ some f, P f' := by
      rintro _ ⟨⟩
      exact hlaterP
    cases here with
    | none => exact ⟨f, rfl, hboth, hlaterP⟩
    | some f' =>
      obtain ⟨f'', hf''⟩ : ∃ f'', longer (some f) (some f') = some f'' := by
        simp only [longer, further]
        split <;> exact ⟨_, rfl⟩
      refine ⟨f'', hf'', ?_, (eq_or_eq_of_further hf'').elim (hsome f'') (hhereP f'')⟩
      rwa [show some (f.shift l.shift) = (some f).map (Found.shift l.shift) from rfl, longer_shift,
        hf''] at hboth

/-- A checker, or a fatal error that takes the rest of the text. -/
theorem Picks.or_fatal {T : Option Found → Prop} (message : String) (hi : i ≤ l.inner.size)
    (h : l.Picks (Among l.inner choices i) T i) :
    l.Picks (Chooses l.inner
        (.oneOf choices (some (.sequence [.ref "fatalError" (some message)]))) i)
      (fun found => ∃ f, found = some f ∧ (T (some f) ∨ T none ∧ ¬ Sound f.nodes)) i := by
  obtain ⟨found, hR, hin, hT⟩ := h
  cases found with
  | some f => exact ⟨_, .among hR, hin, f, rfl, .inl hT⟩
  | none =>
    have hentry : (Entry.ref "fatalError" (some message)).MatchedBy patternTypes
        (some ⟨Builtin.fatalError, some message⟩) .rest :=
      .ref ⟨rfl, rfl, fun _ => rfl, fun _ _ => rfl⟩
    have hlength : Checker.anyLengthAt none l.inner i = some (l.inner.size - i) := by
      simp only [Checker.anyLengthAt, hi, if_true]
    have hrest : Chooses l.inner .rest i (some ⟨i + (l.inner.size - i), [], false⟩) := by
      have hany : Chooses l.inner (.any none) i _ := .any none
      rwa [hlength] at hany
    rw [Nat.add_sub_cancel' hi] at hrest
    have hattempt := Attempts.at_once hentry rfl hrest
    have hread := Chooses.sequence (Reads.last (Repeats.once rfl hattempt))
    refine ⟨_, .fallen hR hread, ?_, _, rfl, .inr ⟨hT, fun hsound => ?_⟩⟩
    · rintro f ⟨⟩
      exact ⟨hi, Nat.le_refl _⟩
    · exact hsound _ List.mem_cons_self rfl

end

/-- An entry that is a choice. -/
theorem choice_yields {A : Prop} {P : Found → Prop} {choices : List Checker}
    (hflat : entry.isFlat = false)
    (hentry : entry.MatchedBy patternTypes use (.oneOf choices none))
    (h : l.Picks (Chooses l.inner (.oneOf choices none) i) (fun found =>
      (A → l.Passes (Chooses l.outer (.oneOf choices none) (i + l.shift)) found) ∧
      ∀ f ∈ found, P f) i) :
    l.Yields (Attempts l.inner entry i) (fun found =>
      (A → l.Moves (Attempts l.outer entry (i + l.shift)) found) ∧
      ∀ m ∈ found, ∃ f, P f ∧ m.stop = f.stop ∧ m.nodes = entry.nodesOf i f use) i := by
  refine h.attempts hentry rfl fun found hfound => ⟨fun ha => ?_, fun m hm => ?_⟩
  · exact Passes.at_once hflat hentry rfl (hfound.1 ha)
  · obtain ⟨f, hf, rfl⟩ := Option.map_eq_some_iff.mp hm
    exact ⟨f, hfound.2 f hf, rfl, rfl⟩

/-! ## Entries in a row -/

section

variable {A : Prop} {P : Match → Prop}

theorem Yields.one (hi : i ≤ l.inner.size) (hlower : entry.quantifier.lower = 1)
    (hupper : entry.quantifier.upper = some 1)
    (h : l.Yields (Attempts l.inner entry i) (fun found =>
      (A → l.Moves (Attempts l.outer entry (i + l.shift)) found) ∧ ∀ m ∈ found, P m) i) :
    l.Yields (Repeats l.inner entry 0 i) (fun found =>
      (A → l.Moves (Repeats l.outer entry 0 (i + l.shift)) found) ∧ ∀ m ∈ found, P m) i := by
  refine .once hi hupper h fun found hfound => ?_
  have hone : entry.quantifier.lower ≠ 0 := hlower ▸ Nat.one_ne_zero
  rw [if_neg hone]
  refine ⟨fun ha => ?_, hfound.2⟩
  have honce := Moves.once hupper (hfound.1 ha)
  rwa [if_neg hone] at honce

/-- An entry that may be left out. -/
theorem Yields.maybe (hi : i ≤ l.inner.size) (hlower : entry.quantifier.lower = 0)
    (hupper : entry.quantifier.upper = some 1)
    (h : l.Yields (Attempts l.inner entry i) (fun found =>
      (A → l.Moves (Attempts l.outer entry (i + l.shift)) found) ∧ ∀ m ∈ found, P m) i) :
    l.Yields (Repeats l.inner entry 0 i) (fun found => ∃ m, found = some m ∧
      (A → l.Moves (Repeats l.outer entry 0 (i + l.shift)) (some m)) ∧ (m = ⟨i, []⟩ ∨ P m)) i := by
  refine .once hi hupper h fun found hfound => ?_
  rw [if_pos hlower]
  refine ⟨_, rfl, fun ha => ?_, ?_⟩
  · have honce := Moves.once hupper (hfound.1 ha)
    rwa [if_pos hlower] at honce
  · cases found with
    | none => exact .inl rfl
    | some m => exact .inr (hfound.2 m rfl)

/-- An entry that moves, and entries that always match after it. -/
theorem Yields.followed {Q : Nat → Match → Prop}
    (h : l.Yields (Repeats l.inner entry 0 i) (fun found =>
      l.Moves (Repeats l.outer entry 0 (i + l.shift)) found ∧ ∀ m ∈ found, P m) i)
    (h' : ∀ j, i ≤ j → j ≤ l.inner.size → l.Yields (Reads l.inner entries j) (fun later =>
      ∃ last, later = some last ∧ l.Moves (Reads l.outer entries (j + l.shift)) (some last) ∧
        Q j last) j) :
    l.Yields (Reads l.inner (entry :: entries) i) (fun found =>
      l.Moves (Reads l.outer (entry :: entries) (i + l.shift)) found ∧
      ∀ both ∈ found, ∃ m last, both = last.after m.nodes ∧ P m ∧ Q m.stop last ∧
        m.stop ≤ last.stop) i := by
  refine .cons h (fun m hle hsize hm => ?_) fun hnone =>
    ⟨fun hclean => .stuck (hnone.1 hclean), by rintro m ⟨⟩⟩
  refine (h' m.stop hle hsize).mono fun later hin hlater => ?_
  obtain ⟨last, rfl, hmoves, hQ⟩ := hlater
  refine ⟨.cons hm.1 hmoves, ?_⟩
  rintro both ⟨⟩
  exact ⟨m, last, rfl, hm.2 m rfl, hQ, (hin last rfl).1⟩

end

/-- An entry that always matches, alone in a sequence. -/
theorem last_yields {P : Match → Prop}
    (h : l.Yields (Repeats l.inner entry 0 i) (fun found => ∃ m, found = some m ∧
      l.MovesIf S (Repeats l.outer entry 0 (i + l.shift)) (some m) ∧ P m) i) :
    l.Yields (Reads l.inner [entry] i) (fun found => ∃ m, found = some m ∧
      l.MovesIf S (Reads l.outer [entry] (i + l.shift)) (some m) ∧ P m) i := by
  refine h.last.mono fun found _ hfound => ?_
  obtain ⟨m, rfl, hmoves, hP⟩ := hfound
  exact ⟨m, rfl, fun m' hm' hstop hclean => .last (hmoves m' hm' hstop hclean), hP⟩

/-- An entry of a grammar that always matches. -/
theorem walked_yields {P : Match → Prop} (hi : i ≤ l.inner.size)
    (hentry : entry.MatchedBy patternTypes use (.sequence entries)) (hflat : entry.isFlat = false)
    (hlower : entry.quantifier.lower = 1) (hupper : entry.quantifier.upper = some 1)
    (h : l.Yields (Reads l.inner entries i) (fun found => ∃ m, found = some m ∧
      l.MovesIf S (Reads l.outer entries (i + l.shift)) (some m) ∧ P m) i) :
    l.Yields (Repeats l.inner entry 0 i) (fun found => ∃ m, found = some m ∧
      l.MovesIf S (Repeats l.outer entry 0 (i + l.shift)) (some m) ∧
      ∃ m', P m' ∧ m.stop = m'.stop ∧ m.nodes = entry.nodesOf i m'.found use) i := by
  have hone : entry.quantifier.lower ≠ 0 := hlower ▸ Nat.one_ne_zero
  have hattempts : l.Yields (Attempts l.inner entry i) (fun found => ∃ m, found = some m ∧
      l.MovesIf S (Attempts l.outer entry (i + l.shift)) (some m) ∧
      ∃ m', P m' ∧ m.stop = m'.stop ∧ m.nodes = entry.nodesOf i m'.found use) i := by
    refine Yields.attempts hentry h fun found hm => ?_
    obtain ⟨m, rfl, hmoves, hP⟩ := hm
    exact ⟨_, rfl, hmoves.grammar hflat hentry, m, hP, rfl, rfl⟩
  refine .once hi hupper hattempts fun found hm => ?_
  obtain ⟨m, rfl, hmoves, hP⟩ := hm
  rw [if_neg hone]
  exact ⟨m, rfl, hmoves.once hupper hone, hP⟩

/-! ## Constructs -/

/-- What is inside of a construct moves when it is complete; otherwise there is a fatal error. -/
theorem or_fatal_yields {P : Match → Prop} (message : String) (hi : i ≤ l.inner.size)
    (h : l.Yields (Reads l.inner entries i) (fun found =>
      l.MovesIf (fun _ => True) (Reads l.outer entries (i + l.shift)) found ∧
        ∀ m ∈ found, P m) i) :
    l.Yields (Repeats l.inner (.ofChecker (orFatal (.sequence entries) message)) 0 i)
      (fun found => ∃ m, found = some m ∧
        (l.Clean m.nodes → Repeats l.outer (.ofChecker (orFatal (.sequence entries) message)) 0
          (i + l.shift) (some (m.shift l.shift))) ∧ (Sound m.nodes → P m)) i := by
  obtain ⟨found, hread, hin, hmoves, hP⟩ := h
  have hentry : (Entry.ofChecker (orFatal (.sequence entries) message)).MatchedBy patternTypes
      none (orFatal (.sequence entries) message) := .ofChecker _
  have hpicks : l.Picks (Among l.inner [.sequence entries] i)
      (fun picked => picked = found.map Match.found) i := by
    refine ⟨_, .only .nil (.sequence hread), fun f hf => ?_, rfl⟩
    obtain ⟨m, hm, rfl⟩ := Option.map_eq_some_iff.mp hf
    exact hin m hm
  obtain ⟨picked, hchosen, hpickedIn, f, rfl, hcase⟩ :=
    Picks.or_fatal message hi hpicks
  have honce := Repeats.once rfl (Attempts.at_once hentry rfl hchosen)
  rcases hcase with hfound | ⟨-, hfatal⟩
  · obtain ⟨m, rfl, rfl⟩ := Option.map_eq_some_iff.mp hfound.symm
    refine ⟨_, honce, hin, m, rfl, fun hclean => ?_, fun _ => hP m rfl⟩
    have houter : Chooses l.outer (orFatal (.sequence entries) message) (i + l.shift) _ :=
      .among (.only .nil (.sequence (hmoves m rfl trivial hclean)))
    exact .once rfl (Attempts.at_once hentry rfl houter)
  · let nodes := (Entry.ofChecker (orFatal (.sequence entries) message)).nodesOf i f none
    have hnodes (hsound : Sound nodes) : False := hfatal (hsound.of_nodesOf rfl)
    refine ⟨_, honce, ?_, ⟨f.stop, nodes⟩, rfl, fun hclean => (hnodes hclean.sound).elim,
      fun hsound => (hnodes hsound).elim⟩
    rintro m ⟨⟩
    exact hpickedIn f rfl

/-- What moves up to where it may end, before a character that closes it. -/
theorem closed_yields {x : Char} {P : Match → Prop} (hx : x ≠ '\n')
    (hS : ∀ j, l.inner[j]? = some x → S j)
    (h : l.Yields (Repeats l.inner entry 0 i) (fun found => ∃ m, found = some m ∧
      l.MovesIf S (Repeats l.outer entry 0 (i + l.shift)) (some m) ∧ P m) i) :
    l.Yields (Reads l.inner [entry, char x] i) (fun found =>
      l.MovesIf (fun _ => True) (Reads l.outer [entry, char x] (i + l.shift)) found ∧
      ∀ m ∈ found, ∃ m', m = ⟨m'.stop + 1, m'.nodes ++ [.leaf m'.stop (m'.stop + 1)]⟩ ∧ P m' ∧
        l.inner[m'.stop]? = some x) i := by
  refine .cons h (fun m _ hsize hm => ?_) (by rintro ⟨m, ⟨⟩, -⟩)
  obtain ⟨_, ⟨⟩, hmoves, hP⟩ := hm
  refine (single_yields hx hsize).last.mono fun found _ hfound => ?_
  obtain ⟨halike, hsome, -⟩ := hfound
  cases found with
  | none => exact ⟨.none, by rintro m ⟨⟩⟩
  | some last =>
    obtain ⟨rfl, hget⟩ := hsome last rfl
    refine ⟨hmoves.cons (fun m' hm' _ _ => ?_) fun _ _ _ => hS _ hget, ?_⟩
    · cases hm'
      exact .last halike
    · rintro both ⟨⟩
      exact ⟨m, rfl, hP, hget⟩

theorem Agrees.of_get {j : Nat} {x : Char} (h : l.inner[j]? = some x) : l.Agrees j :=
  .of_lt (Array.getElem?_eq_some_iff.mp h).1

/-- Characters of a set, as many as there are. -/
theorem chars_yield (entry : Entry) (hentry : entry.MatchedBy patternTypes none (.char set))
    (hlower : entry.quantifier.lower = 0) (hupper : entry.quantifier.upper = none)
    (hi : i ≤ l.inner.size) :
    l.Yields (Repeats l.inner entry 0 i) (fun found => ∃ m, found = some m ∧
      l.MovesIf l.Agrees (Repeats l.outer entry 0 (i + l.shift)) (some m) ∧ Untyped m.nodes) i := by
  have hone : ∀ j, i ≤ j → j ≤ l.inner.size → l.Yields (Attempts l.inner entry j) (fun found =>
      (l.Agrees j → l.Alike (Attempts l.outer entry (j + l.shift)) found) ∧
      ∀ m ∈ found, j < m.stop ∧ Untyped m.nodes) j := fun j _ hj =>
    (char_yields hentry hj).mono fun found _ h => by
      refine ⟨fun hagree => h.1 (.inl hagree), fun m hm => ?_⟩
      rw [(h.2.1 m hm).1]
      exact ⟨Nat.lt_succ_self j, .nodesOf .nil⟩
  have hmany := many_yields hlower hupper hone (fun j m hm => (hm.2 m rfl).1) hi 0
  refine hmany.mono fun found _ h => ?_
  obtain ⟨j, nodes, rfl, hnone, hchain⟩ := h
  have huntyped : Untyped nodes :=
    hchain.nodes_all .nil (fun _ _ => .append) fun _ m hm _ => (hm.1.2 m rfl).2
  refine ⟨_, rfl, ?_, huntyped⟩
  rintro m ⟨⟩ hagree hclean
  have houter := chain_moves (S := fun _ => True) (T := Steps l.outer entry) hchain
    (fun _ _ _ => id) (fun j m hm hlt _ _ => hm.1.1 (.of_lt (Nat.lt_of_lt_of_le hlt hm.2)))
    trivial hclean
  exact Repeats.chain hlower hupper houter (hnone.1 hagree) 0

/-- A steady entry before others. -/
theorem steady_before_yields {T : Option Match → Prop} {P : Match → Match → Prop}
    (h : l.Yields (Repeats l.inner entry 0 i)
      (fun found => l.Steady (Repeats l.outer entry 0 (i + l.shift)) found ∧ T found) i)
    (h' : ∀ m : Match, i ≤ m.stop → m.stop ≤ l.inner.size → Repeats l.inner entry 0 i (some m) →
      l.Yields (Reads l.inner entries m.stop) (fun found =>
        l.MovesIf (fun _ => True) (Reads l.outer entries (m.stop + l.shift)) found ∧
        ∀ last ∈ found, P m last) m.stop) :
    l.Yields (Reads l.inner (entry :: entries) i) (fun found =>
      l.MovesIf (fun _ => True) (Reads l.outer (entry :: entries) (i + l.shift)) found ∧
      ∀ both ∈ found, ∃ m last, both = last.after m.nodes ∧ Untyped m.nodes ∧ P m last) i := by
  obtain ⟨found, hR, hin, hsteady, hT⟩ := h
  cases found with
  | none => exact ⟨none, .stuck hR, by rintro m ⟨⟩, .none, by rintro m ⟨⟩⟩
  | some m =>
    obtain ⟨hle, hsize⟩ := hin m rfl
    obtain ⟨later, hlater, hlaterIn, hmoves, hP⟩ := h' m hle hsize hR
    refine ⟨_, .cons hR hlater, fun both hboth => ?_, ?_, fun both hboth => ?_⟩
    · obtain ⟨last, hlast, rfl⟩ := Option.map_eq_some_iff.mp hboth
      exact ⟨Nat.le_trans hle (hlaterIn last hlast).1, (hlaterIn last hlast).2⟩
    · exact MovesIf.cons (S := fun _ => True) (hsteady.alike.moves.matches _) hmoves
        fun _ _ _ => trivial
    · obtain ⟨last, hlast, rfl⟩ := Option.map_eq_some_iff.mp hboth
      exact ⟨m, last, rfl, hsteady.untyped m rfl, hP last hlast⟩

/-- A construct by its opening character and what follows it. -/
theorem construct_yields {x : Char} {message : String} {P : Match → Prop} (hx : x ≠ '\n')
    (hi : i ≤ l.inner.size)
    (h : l.inner[i]? = some x → l.Yields (Reads l.inner entries (i + 1)) (fun found =>
      l.MovesIf (fun _ => True) (Reads l.outer entries (i + 1 + l.shift)) found ∧
        ∀ m ∈ found, P m) (i + 1)) :
    l.Yields (Reads l.inner [char x, .ofChecker (orFatal (.sequence entries) message)] i)
      (fun found =>
        l.Moves (Reads l.outer [char x, .ofChecker (orFatal (.sequence entries) message)]
          (i + l.shift)) found ∧
        (found = none ↔ l.inner[i]? ≠ some x) ∧
        ∀ m ∈ found, i < m.stop ∧
          (Sound m.nodes → ∃ m', P m' ∧ m = m'.after [.leaf i (i + 1)])) i := by
  refine .cons (single_yields hx hi) (fun m hle hsize hm => ?_) fun hnone => ?_
  · obtain ⟨halike, hhere, -⟩ := hm
    obtain ⟨rfl, hget⟩ := hhere m rfl
    refine (or_fatal_yields message hsize (h hget)).last.mono fun found hin hfound => ?_
    obtain ⟨m, rfl, hmoves, hP⟩ := hfound
    refine ⟨.cons_alike halike fun hclean => .last (hmoves (hclean m rfl)), ?_, ?_⟩
    · exact iff_of_false (by rintro ⟨⟩) (not_not.mpr hget)
    · rintro both ⟨⟩
      exact ⟨(hin m rfl).1, fun hsound => ⟨m, hP (AllNodes.append_iff.mp hsound).2, rfl⟩⟩
  · exact ⟨fun _ => .stuck hnone.1, iff_of_true rfl (hnone.2.2 rfl), by rintro m ⟨⟩⟩

/-- A category that is a construct. -/
theorem construct_category_yields {name message : String} {x : Char} {P : Match → Prop}
    (hcategory : category? name = some (Builtin.constant name
      (.sequence [char x, .ofChecker (orFatal (.sequence entries) message)])))
    (hx : x ≠ '\n') (hi : i ≤ l.inner.size)
    (h : l.inner[i]? = some x → l.Yields (Reads l.inner entries (i + 1)) (fun found =>
      l.MovesIf (fun _ => True) (Reads l.outer entries (i + 1 + l.shift)) found ∧
        ∀ m ∈ found, P m) (i + 1)) :
    l.Yields (Attempts l.inner (category name) i) (fun found =>
      l.Moves (Attempts l.outer (category name) (i + l.shift)) found ∧
      (found = none ↔ l.inner[i]? ≠ some x) ∧
      ∀ m ∈ found, i < m.stop ∧ ∃ children, m.nodes = [categoryNode name i m.stop children] ∧
        (Sound children → ∃ m', P m' ∧ m.stop = m'.stop ∧
          children = .leaf i (i + 1) :: m'.nodes)) i := by
  have hentry := category_matched hcategory
  refine Yields.attempts hentry (construct_yields hx hi h) fun found hfound =>
    ⟨.grammar rfl hentry hfound.1, Option.map_eq_none_iff.trans hfound.2.1, fun both hboth => ?_⟩
  obtain ⟨m, hm, rfl⟩ := Option.map_eq_some_iff.mp hboth
  obtain ⟨hlt, hP⟩ := hfound.2.2 m hm
  refine ⟨hlt, m.nodes, rfl, fun hsound => ?_⟩
  obtain ⟨m', hm', rfl⟩ := hP hsound
  exact ⟨m', hm', rfl, rfl⟩

/-- Where it matches, its opening character stands. -/
theorem opens_of_some {x : Char} {found : Option Match} (h : found = none ↔ l.inner[i]? ≠ some x)
    (hfound : found.isSome = true) : l.inner[i]? = some x := by
  by_contra hget
  rw [h.mpr hget] at hfound
  cases hfound

end TextGrammar.Pattern.Inlay
