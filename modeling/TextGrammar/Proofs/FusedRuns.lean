/-
Entries that are matched at once and what they are fused to. A search goes
through a run of literals, or through repeats of any one character, without
leaving anything to come back to: it gets past the run where the one checker in
the place of the run matches, as far into the text and with no marks either time,
and otherwise it gives up.
-/
import TextGrammar.Proofs.EchoedAttempts
import TextGrammar.Proofs.EntryFusion

open Filter (atTop)

namespace TextGrammar

variable {L : Type} [FailureLog L] {setting : Setting} {mode : Mode}

/-! ## What a search comes to -/

/-- Whatever the search comes to from the step, it comes to from this state. -/
def Machine.Leads (setting : Setting) (mode : Mode) (s : Step L) (m : Machine L) : Prop :=
  ∀ x, (∀ᶠ fuel in atTop, s.answer setting mode fuel = x) →
    ∀ᶠ fuel in atTop, Machine.run fuel setting mode m = x

namespace Machine.Leads

variable {m m' : Machine L} {s : Step L}

theorem of_step (hs : ∀ run : Runner L, m.step run setting mode = .ok s) :
    m.Leads setting mode s := by
  refine fun x hx => eventually_of_succ (hx.mono fun fuel hfuel => ?_)
  rw [run_eq_bind, hs, ← hfuel]
  rfl

theorem trans (h : m.Leads setting mode (.next m')) (h' : m'.Leads setting mode s) :
    m.Leads setting mode s :=
  fun x hx => h x (h' x hx)

end Machine.Leads

/-! ## Past some entries -/

/-- The search gets past the first entries of its innermost session, as many characters on and
without new marks, or it gives up. -/
inductive Machine.Passes (setting : Setting) (mode : Mode) (m : Machine L) (top : Session)
    (below : List Session) (rest : List Entry) : Option Nat → Prop
  | past {n : Nat} (nodes : List Node) (failures : L) (hmarks : Node.marksAll nodes = [])
    (hsize : m.offset + n ≤ setting.text.size)
    (h : m.Leads setting mode (.next { m with
      sessions := { top with rest, repeats := 0, nodes := top.nodes.pushAll nodes } :: below
      offset := m.offset + n, forced := false, failures })) :
    Passes setting mode m top below rest (some n)
  | missed {m' : Machine L} (hsnapshots : m'.snapshots = m.snapshots)
    (hcheckers : m'.checkers = m.checkers) (h : m.Leads setting mode m'.giveUp) :
    Passes setting mode m top below rest none

theorem Trail.pushAll_append (trail : Trail) (nodes later : List Node) :
    trail.pushAll (nodes ++ later) = (trail.pushAll nodes).pushAll later := by
  simp only [Trail.pushAll, List.foldl_append]

namespace Machine.Passes

variable {m m' : Machine L} {top top' : Session} {below : List Session} {rest : List Entry}

/-- A part of the way, and then the rest of it. -/
theorem further {n : Nat} {nodes : List Node} {later : Option Nat}
    (hlater : m'.Passes setting mode top' below rest later)
    (h : m.Leads setting mode (.next m')) (hoffset : m'.offset = m.offset + n)
    (hsnapshots : m'.snapshots = m.snapshots) (hcheckers : m'.checkers = m.checkers)
    (htop : ∃ rest' repeats, top' =
      { top with rest := rest', repeats, nodes := top.nodes.pushAll nodes })
    (hmarks : Node.marksAll nodes = []) :
    m.Passes setting mode top below rest (later.map (n + ·)) := by
  obtain ⟨rest', repeats, rfl⟩ := htop
  cases hlater with
  | @past k others failures hothers hsize hpast =>
    refine .past (nodes ++ others) failures ?_ ?_ ?_
    · rw [Node.marksAll_append, hmarks, hothers, List.append_nil]
    · rwa [hoffset, Nat.add_assoc] at hsize
    · rw [Trail.pushAll_append, ← Nat.add_assoc, ← hoffset, ← hsnapshots, ← hcheckers]
      exact h.trans hpast
  | missed hsnapshots' hcheckers' hmissed =>
    exact .missed (hsnapshots'.trans hsnapshots) (hcheckers'.trans hcheckers) (h.trans hmissed)

end Machine.Passes

/-- Where a search stands at these entries, it gets past them if they have a length there. -/
def Entry.Take (L : Type) [FailureLog L] (run : List Entry) (measure : Text → Nat → Option Nat) :
    Prop :=
  ∀ (setting : Setting) (mode : Mode) (m : Machine L) (top : Session) (below : List Session)
    (rest : List Entry), m.sessions = top :: below → top.rest = run ++ rest → top.repeats = 0 →
      m.forced = false → m.offset ≤ setting.text.size →
        m.Passes setting mode top below rest (measure setting.text m.offset)

theorem Entry.Take.nil : Entry.Take L [] fun _ _ => some 0 := by
  intro setting mode m top below rest hm hrest hrepeats hforced hoffset
  refine .past [] m.failures rfl hoffset ?_
  obtain ⟨rest', repeats, start, nodes, barrier, use⟩ := top
  obtain ⟨sessions, snapshots, offset, forced, failures, checkers⟩ := m
  simp only at hm hrest hrepeats hforced
  subst hm hrepeats hforced
  obtain rfl : rest' = rest := hrest
  exact fun _ hx => hx

theorem Entry.Take.append {run later : List Entry} {measure measure' : Text → Nat → Option Nat}
    (h : Entry.Take L run measure) (hlater : Entry.Take L later measure') :
    Entry.Take L (run ++ later) fun text offset => (measure text offset).bind fun n =>
      (measure' text (offset + n)).map (n + ·) := by
  intro setting mode m top below rest hm hrest hrepeats hforced hoffset
  have hpasses := h setting mode m top below (later ++ rest) hm
    (hrest.trans (List.append_assoc _ _ _)) hrepeats hforced hoffset
  simp only
  generalize measure setting.text m.offset = length at hpasses
  cases hpasses with
  | missed hsnapshots hcheckers hmissed => exact .missed hsnapshots hcheckers hmissed
  | @past n nodes failures hmarks hsize hpast =>
    let top' : Session :=
      { top with rest := later ++ rest, repeats := 0, nodes := top.nodes.pushAll nodes }
    have hgoOn := hlater setting mode { m with
      sessions := top' :: below, offset := m.offset + n, forced := false, failures } top' below rest
      rfl rfl rfl rfl hsize
    exact hgoOn.further hpast rfl rfl rfl ⟨_, _, rfl⟩ hmarks

/-! ## Checkers that are matched by their length -/

/-- An entry of nothing but a checker and a quantifier. -/
def Checker.bare (c : Checker) (q : Quantifier) : Entry := ⟨none, .checker c, q, none⟩

theorem Checker.foundAt_leaf {c : Checker} (hc : c.IsLeaf) {run : Runner L}
    {offset : Nat} {length : Option Nat} (hlength : c.lengthAt run setting offset = .ok length) :
    c.foundAt run setting offset =
      .ok (.of (length.map fun n => ⟨offset + n, [], false⟩)) := by
  have hchoice : c.choiceAt run setting offset =
      .ok (.of (length.map fun n => ⟨offset + n, [], false⟩)) := by
    rw [Checker.choiceAt_of_lengthAt hc.not_grammar hc.not_oneOf, hlength]
  cases c with
  | fixed regions => exact absurd rfl (hc.not_fixed regions)
  | _ => exact hchoice

/-- One more repeat is asked for, and nothing is saved to come back to. -/
structure Quantifier.GoesOn (q : Quantifier) (repeats : Nat) : Prop where
  nonzero : q.isZero = false
  unfilled : q.isFull repeats = false
  sure : q.greediness = .possessive ∨ repeats < q.lower

theorem Quantifier.GoesOn.saves_none {q : Quantifier} {repeats : Nat} (h : q.GoesOn repeats) :
    (q.greediness == .minimum && decide (q.lower ≤ repeats)) = false ∧
      (q.greediness == .maximum && decide (q.lower ≤ repeats)) = false := by
  rcases h.sure with hsure | hsure
  · rw [hsure]
    exact ⟨rfl, rfl⟩
  · rw [decide_eq_false (Nat.not_le_of_lt hsure), Bool.and_false, Bool.and_false]
    exact ⟨rfl, rfl⟩

namespace Machine

variable {m : Machine L} {top : Session} {below : List Session} {rest : List Entry} {c : Checker}
  {q : Quantifier}

theorem attempt_leaf (hc : c.IsLeaf) (run : Runner L) :
    m.attempt run setting (c.bare q) = m.matchChecker run setting (c.bare q) c none := by
  cases c with
  | grammar g => exact absurd rfl (hc.not_grammar g)
  | _ => rfl

section

variable (hm : m.sessions = top :: below) (htop : top.rest = c.bare q :: rest)
  (hforced : m.forced = false) (hq : (c.bare q).quantifier.GoesOn top.repeats)
  (hc : c.IsLeaf)
include hm htop hforced hq hc

/-- A match of the checker is taken, and its characters are a node without a name. -/
theorem step_leaf_some (mode : Mode) {n : Nat}
    (hlength : ∀ run : Runner L, c.lengthAt run (m.inner setting) m.offset = .ok (some n)) :
    ∃ failures, ∀ run : Runner L, m.step run setting mode = .ok (.next
      (accept { m with failures } m.offset (m.offset + n) [.leaf m.offset (m.offset + n)])) := by
  refine ⟨((m.record FailureLog.empty).record FailureLog.empty).failures, fun run => ?_⟩
  have hmatch : m.matchChecker run setting (c.bare q) c none =
      .ok ((m.record FailureLog.empty).record FailureLog.empty,
        .matched (m.offset + n) [.leaf m.offset (m.offset + n)]) := by
    rw [matchChecker, Checker.foundAt_leaf hc (hlength run)]
    rfl
  generalize hnext : Step.next (accept _ _ _ _) = next
  simp only [step, hm, htop, stepEntry, attempt_leaf hc, hmatch, bind, Except.bind,
    hq.nonzero, hq.unfilled, hforced, Bool.not_false, Bool.true_and,
    hq.saves_none.1, hq.saves_none.2, Bool.false_and, Bool.false_eq_true, if_false]
  exact congrArg _ hnext

/-- Without a match the search gives up, or goes on after the entry. -/
theorem step_leaf_none (mode : Mode)
    (hlength : ∀ run : Runner L, c.lengthAt run (m.inner setting) m.offset = .ok none) :
    ∃ failures, ∀ run : Runner L, m.step run setting mode = .ok
      (if top.repeats < q.lower then giveUp { m with failures }
        else .next (advance { m with failures })) := by
  by_cases hlower : top.repeats < (c.bare q).quantifier.lower
  · refine ⟨((m.record FailureLog.empty).fail m.offset (.target (.checker c)) top.repeats).failures,
      fun run => ?_⟩
    have hmatch : m.matchChecker run setting (c.bare q) c none =
        .ok (m.record FailureLog.empty, .failed) := by
      rw [matchChecker, Checker.foundAt_leaf hc (hlength run)]
      rfl
    rw [if_pos (show top.repeats < q.lower from hlower)]
    generalize hnext : giveUp _ = next
    simp only [step, hm, htop, stepEntry, attempt_leaf hc, hmatch, bind, Except.bind,
      hq.nonzero, hq.unfilled, hforced, Bool.not_false, Bool.true_and,
      hq.saves_none.1, Bool.false_eq_true, if_false, hlower, decide_true, Bool.or_true, if_true]
    exact congrArg _ hnext
  · refine ⟨(m.record FailureLog.empty).failures, fun run => ?_⟩
    have hmatch : m.matchChecker run setting (c.bare q) c none =
        .ok (m.record FailureLog.empty, .failed) := by
      rw [matchChecker, Checker.foundAt_leaf hc (hlength run)]
      rfl
    have hrecord : (m.record FailureLog.empty).forced = false := hforced
    rw [if_neg (show ¬top.repeats < q.lower from hlower)]
    generalize hnext : Step.next _ = next
    simp only [step, hm, htop, stepEntry, attempt_leaf hc, hmatch, bind, Except.bind,
      hq.nonzero, hq.unfilled, hforced, Bool.not_false, Bool.true_and,
      hq.saves_none.1, Bool.false_eq_true, if_false, hrecord, hlower, decide_false, Bool.or_false]
    exact congrArg _ hnext

end

/-- With as many repeats as there may be the search goes on after the entry. -/
theorem step_full {e : Entry} (hm : m.sessions = top :: below) (htop : top.rest = e :: rest)
    (hforced : m.forced = false) (hfull : e.quantifier.isFull top.repeats = true)
    (run : Runner L) : m.step run setting mode = .ok (.next m.advance) := by
  simp only [step, hm, htop, stepEntry, hforced, hfull, Bool.not_false, Bool.and_self, if_true,
    ite_self]

theorem Passes.of_giveUp {failures : L}
    (h : m.Leads setting mode (giveUp { m with failures })) :
    m.Passes setting mode top below rest none := by
  refine .missed ?_ ?_ h <;> rfl

/-- A search that has got past the entry. -/
theorem Passes.of_advance (repeats : Nat) (nodes : List Node) (failures : L) {n : Nat} {e : Entry}
    (htop : top.rest = e :: rest) (hmarks : Node.marksAll nodes = [])
    (hsize : m.offset + n ≤ setting.text.size)
    (h : m.Leads setting mode (.next (advance { m with
      sessions := { top with repeats, nodes := top.nodes.pushAll nodes } :: below
      offset := m.offset + n, forced := false, failures }))) :
    m.Passes setting mode top below rest (some n) := by
  refine .past nodes failures hmarks hsize ?_
  simp only [advance, htop, List.tail_cons] at h
  exact h

end Machine

theorem Quantifier.goesOn_one {q : Quantifier} (hq : q.isOne = true) : q.GoesOn 0 := by
  simp only [Quantifier.isOne, Bool.and_eq_true, beq_iff_eq] at hq
  refine ⟨?_, ?_, .inr ?_⟩
  · simp [Quantifier.isZero, hq.1]
  · simp [Quantifier.isFull, hq.2]
  · omega

theorem Quantifier.isFull_one {q : Quantifier} (hq : q.isOne = true) : q.isFull 1 = true := by
  simp only [Quantifier.isOne, Bool.and_eq_true, beq_iff_eq] at hq
  simp [Quantifier.isFull, hq.2]

/-- A checker that is matched once. -/
theorem Checker.HasLength.take {c : Checker} {measure : Text → Nat → Option Nat}
    (h : c.HasLength L measure) {q : Quantifier} (hq : q.isOne = true) :
    Entry.Take L [c.bare q] measure := by
  intro setting mode m top below rest hm hrest hrepeats hforced hoffset
  have hgoesOn : (c.bare q).quantifier.GoesOn top.repeats := hrepeats ▸ Quantifier.goesOn_one hq
  have hlength := fun run : Runner L => h.length run (m.inner setting) m.offset
  have hsize := h.size hoffset
  cases hn : measure setting.text m.offset with
  | none =>
    obtain ⟨failures, hstep⟩ := Machine.step_leaf_none hm hrest hforced hgoesOn h.leaf mode
      fun run => (hlength run).trans (congrArg _ hn)
    have hlower : top.repeats < q.lower := by
      simp only [Quantifier.isOne, Bool.and_eq_true, beq_iff_eq] at hq
      omega
    simp only [hlower, if_true] at hstep
    exact .of_giveUp (.of_step hstep)
  | some n =>
    obtain ⟨failures, hstep⟩ := Machine.step_leaf_some hm hrest hforced hgoesOn h.leaf mode
      fun run => (hlength run).trans (congrArg _ hn)
    have hmarks : Node.marksAll [.leaf m.offset (m.offset + n)] = [] := rfl
    simp only [Machine.accept, hm] at hstep
    refine .of_advance (top.repeats + 1) _ failures hrest hmarks (hsize n hn) ?_
    rcases Nat.eq_zero_or_pos n with rfl | hpos
    · simp only [Nat.add_zero, beq_self_eq_true, if_true] at hstep
      exact .of_step hstep
    · have hne : (m.offset == m.offset + n) = false := beq_false_of_ne (by omega)
      simp only [hne, Bool.false_eq_true, if_false] at hstep
      refine (Machine.Leads.of_step hstep).trans (.of_step ?_)
      refine Machine.step_full rfl hrest rfl ?_
      simp only [hrepeats]
      exact Quantifier.isFull_one hq

/-! ## Any one character, repeated -/

/-- Where a search may take one character more it does, and is back at the entry. -/
theorem Machine.leads_anyOne (mode : Mode) {m : Machine L} {top : Session} {below : List Session}
    {rest : List Entry} {q : Quantifier} (hm : m.sessions = top :: below)
    (htop : top.rest = (Checker.anyOf 1).bare q :: rest) (hforced : m.forced = false)
    (hq : q.GoesOn top.repeats) (hlt : m.offset < setting.text.size) :
    ∃ failures, m.Leads setting mode (.next { m with
      sessions := { top with
        repeats := top.repeats + 1
        nodes := top.nodes.pushAll [.leaf m.offset (m.offset + 1)] } :: below
      offset := m.offset + 1, forced := false, failures }) := by
  have hlength (run : Runner L) :
      (Checker.anyOf 1).lengthAt run (m.inner setting) m.offset = .ok (some 1) :=
    congrArg _ (if_pos hlt)
  obtain ⟨failures, hstep⟩ := step_leaf_some hm htop hforced hq
    (Checker.HasLength.any (L := L) (some 1)).leaf mode hlength
  have hne : (m.offset == m.offset + 1) = false := beq_false_of_ne (by omega)
  simp only [accept, hm, hne, Bool.false_eq_true, if_false] at hstep
  exact ⟨failures, .of_step hstep⟩

/-- Where no character is left a search gives up, or goes on after the entry. -/
theorem Machine.passes_no_one (mode : Mode) {m : Machine L} {top : Session} {below : List Session}
    {rest : List Entry} {q : Quantifier} (hm : m.sessions = top :: below)
    (htop : top.rest = (Checker.anyOf 1).bare q :: rest) (hforced : m.forced = false)
    (hq : q.GoesOn top.repeats) (hoffset : m.offset = setting.text.size) :
    m.Passes setting mode top below rest (if top.repeats < q.lower then none else some 0) := by
  have hlength (run : Runner L) :
      (Checker.anyOf 1).lengthAt run (m.inner setting) m.offset = .ok none :=
    congrArg _ (if_neg (Nat.not_le_of_lt (Nat.lt_succ_of_le (Nat.le_of_eq hoffset.symm))))
  obtain ⟨failures, hstep⟩ := step_leaf_none hm htop hforced hq
    (Checker.HasLength.any (L := L) (some 1)).leaf mode hlength
  split
  · next hlower =>
    simp only [hlower, if_true] at hstep
    exact .of_giveUp (.of_step hstep)
  · next hlower =>
    simp only [hlower, if_false] at hstep
    refine .of_advance top.repeats [] failures htop rfl (Nat.le_of_eq hoffset) ?_
    obtain ⟨sessions, snapshots, offset, forced, failures, checkers⟩ := m
    simp only at hm hforced
    subst hm hforced
    exact .of_step hstep

theorem Quantifier.goesOn_exactly {n repeats : Nat} (h : repeats < n) :
    (Quantifier.exactly n).GoesOn repeats := by
  refine ⟨?_, ?_, .inl rfl⟩
  · simp [Quantifier.isZero, Quantifier.exactly]
    omega
  · simp [Quantifier.isFull, Quantifier.exactly]
    omega

/-- So many characters more, from any number of repeats. -/
theorem Machine.passes_exactly {n left : Nat} {m : Machine L} {top : Session} {below : List Session}
    {rest : List Entry} (hm : m.sessions = top :: below)
    (htop : top.rest = (Checker.anyOf 1).bare (.exactly n) :: rest)
    (hleft : top.repeats + left = n) (hforced : m.forced = false)
    (hoffset : m.offset ≤ setting.text.size) : m.Passes setting mode top below rest
      (if left = 0 ∨ m.offset + left ≤ setting.text.size then some left else none) := by
  induction left generalizing m top with
  | zero =>
    rw [if_pos (.inl rfl)]
    have hfull : (Quantifier.exactly n).isFull top.repeats = true := by
      simp [Quantifier.isFull, Quantifier.exactly]
      omega
    refine .of_advance top.repeats [] m.failures htop rfl hoffset ?_
    obtain ⟨sessions, snapshots, offset, forced, failures, checkers⟩ := m
    simp only at hm hforced
    subst hm hforced
    exact .of_step (Machine.step_full rfl htop rfl hfull)
  | succ left ih =>
    have hgoesOn : (Quantifier.exactly n).GoesOn top.repeats := Quantifier.goesOn_exactly (by omega)
    rcases Nat.lt_or_eq_of_le hoffset with hlt | heq
    · obtain ⟨failures, hone⟩ := leads_anyOne mode hm htop hforced hgoesOn hlt
      let top' : Session := { top with
        repeats := top.repeats + 1, nodes := top.nodes.pushAll [.leaf m.offset (m.offset + 1)] }
      have hlater := @ih { m with
        sessions := top' :: below, offset := m.offset + 1, forced := false, failures }
        top' rfl htop (by simp only [top']; omega) rfl hlt
      have hpasses := hlater.further hone rfl rfl rfl ⟨_, _, rfl⟩ rfl
      convert hpasses using 1
      simp only [apply_ite (Option.map (1 + ·)), Option.map_some, Option.map_none]
      grind
    · have hlower : top.repeats < (Quantifier.exactly n).lower := by
        simp only [Quantifier.exactly]
        omega
      have hmissed := passes_no_one mode hm htop hforced hgoesOn heq
      rw [if_pos hlower] at hmissed
      rwa [if_neg (by omega)]

/-- All that is left, from any number of repeats. -/
theorem Machine.passes_zeroOrMore {m : Machine L} {top : Session} {below : List Session}
    {rest : List Entry} (hm : m.sessions = top :: below)
    (htop : top.rest = (Checker.anyOf 1).bare .zeroOrMore :: rest)
    (hforced : m.forced = false) (hoffset : m.offset ≤ setting.text.size) :
    m.Passes setting mode top below rest (some (setting.text.size - m.offset)) := by
  have hgoesOn (repeats : Nat) : Quantifier.zeroOrMore.GoesOn repeats := ⟨rfl, rfl, .inl rfl⟩
  obtain ⟨left, hleft⟩ := Nat.exists_eq_add_of_le hoffset
  induction left generalizing m top with
  | zero =>
    have hend := passes_no_one mode hm htop hforced (hgoesOn _) hleft.symm
    rw [if_neg (show ¬top.repeats < Quantifier.zeroOrMore.lower from Nat.not_lt_zero _)] at hend
    rwa [show setting.text.size - m.offset = 0 by omega]
  | succ left ih =>
    obtain ⟨failures, hone⟩ := leads_anyOne mode hm htop hforced (hgoesOn _)
      (show m.offset < setting.text.size by omega)
    let top' : Session := { top with
      repeats := top.repeats + 1, nodes := top.nodes.pushAll [.leaf m.offset (m.offset + 1)] }
    have hlater := @ih { m with
      sessions := top' :: below, offset := m.offset + 1, forced := false, failures }
      top' rfl htop rfl (show m.offset + 1 ≤ setting.text.size by omega)
      (show setting.text.size = m.offset + 1 + left by omega)
    have hpasses := hlater.further hone rfl rfl rfl ⟨_, _, rfl⟩ rfl
    convert hpasses using 1
    simp only [Option.map_some, Option.some.injEq]
    omega

/-! ## Runs and what they are fused to -/

theorem literalLengthAt_append (cs later : List Char) (text : Text) (offset : Nat) :
    literalLengthAt (cs ++ later) text offset = (literalLengthAt cs text offset).bind fun n =>
      (literalLengthAt later text (offset + n)).map (n + ·) := by
  simp only [literalLengthAt, Text.hasAt_append]
  cases text.hasAt offset cs with
  | false => rfl
  | true =>
    simp only [Bool.true_and, if_true, Option.bind_some]
    split
    · rw [Option.map_some, List.length_append]
    · rfl

/-- Literals one after the other take what they spell together. -/
theorem Entry.Spells.take {run : List Entry} {cs : List Char} (h : Entry.Spells run cs) :
    Entry.Take L run (literalLengthAt cs) := by
  induction h with
  | nil => exact .nil
  | cons hletters hq _ ih =>
    rw [funext₂ (literalLengthAt_append _ _)]
    exact ((Checker.HasLength.letters hletters).take hq).append ih

/-- **A run and the checker it is fused to** have the same length everywhere. -/
theorem Entry.Fuses.take {run : List Entry} {c : Checker} (h : Entry.Fuses run c) :
    ∃ measure, c.HasLength L measure ∧ Entry.Take L run measure := by
  cases h with
  | literals _ hspells => exact ⟨_, .literal _, hspells.take⟩
  | count n =>
    refine ⟨_, .any (some n),
      fun setting mode m top below rest hm hrest hrepeats hforced hoffset => ?_⟩
    have hpasses : m.Passes setting mode top below rest _ :=
      Machine.passes_exactly hm hrest ((congrArg (· + n) hrepeats).trans (Nat.zero_add n)) hforced
        hoffset
    convert hpasses using 1
    cases n with
    | zero => rfl
    | succ n => simp [Checker.anyLengthAt]
  | rest =>
    refine ⟨_, .any none, fun setting mode m top below rest hm hrest hrepeats hforced hoffset => ?_⟩
    have hlength : Checker.anyLengthAt none setting.text m.offset =
        some (setting.text.size - m.offset) := if_pos hoffset
    rw [hlength]
    exact Machine.passes_zeroOrMore hm hrest hforced hoffset

end TextGrammar
