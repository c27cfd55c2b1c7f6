/-
Grammars that come to an outcome wherever they are tried. Each rule bounds the
steps of the search by those of its parts: repeats that take no characters end,
so an entry has at most one repeat more than there are characters left. Searches
inside a step are bounded by a rank, which grows by one with each grammar around
another, and the steps of each of them by a power of the length of the text.
-/
import Mathlib.Tactic.Linarith
import TextGrammar.Proofs.LeftContext
import TextGrammar.Proofs.Possessive

namespace TextGrammar

variable {L : Type} [FailureLog L] {setting : Setting} {shape : String → Node → Prop}
  {rank rank' steps steps' first offset : Nat} {sure sure' : Prop}

/-! ## Outcomes -/

/-- The nodes stand between two places. -/
def Node.AllBetween (start stop : Nat) (nodes : List Node) : Prop :=
  ∀ node ∈ nodes, start ≤ node.start ∧ node.stop ≤ stop

/-- The node lies in a text of this size with its children inside it, and if it has a type it has
the shape of one. -/
structure Node.Sits (shape : String → Node → Prop) (size : Nat) (node : Node) : Prop where
  start : node.start ≤ node.stop
  stop : node.stop ≤ size
  children : Node.AllBetween node.start node.stop node.children
  type : ∀ name, node.typeName = some name → shape name node

/-- A match from the offset lies in the text with all of its nodes, and there is one if that is
sure. -/
structure Outcome (shape : String → Node → Prop) (size offset : Nat) (sure : Prop)
    (found : Option Match) : Prop where
  within : ∀ m ∈ found, offset ≤ m.stop ∧ m.stop ≤ size
  between : ∀ m ∈ found, Node.AllBetween offset m.stop m.nodes
  nodes : ∀ m ∈ found, AllNodes (Node.Sits shape size) m.nodes
  matched : sure → found.isSome

/-- What a checker finds, as a match. -/
def Found.toMatch (found : Found) : Match := ⟨found.stop, found.nodes⟩

namespace Outcome

variable {size : Nat} {found : Option Match}

theorem none (hsure : ¬sure) : Outcome shape size offset sure none :=
  ⟨nofun, nofun, nofun, fun h => absurd h hsure⟩

/-- So many characters are taken, without nodes. -/
theorem bare {stop : Nat} (hoffset : offset ≤ stop) (hstop : stop ≤ size) :
    Outcome shape size offset sure (some ⟨stop, []⟩) := by
  refine ⟨?_, ?_, ?_, fun _ => rfl⟩
  · rintro m ⟨⟩
    exact ⟨hoffset, hstop⟩
  · rintro m ⟨⟩
    exact nofun
  · rintro m ⟨⟩
    exact .nil

/-- Nothing is taken at all. -/
theorem here (hoffset : offset ≤ size) : Outcome shape size offset sure (some ⟨offset, []⟩) :=
  .bare (Nat.le_refl _) hoffset

theorem mono (h : Outcome shape size offset sure found) (hsure : sure' → sure) :
    Outcome shape size offset sure' found :=
  ⟨h.within, h.between, h.nodes, fun hs => h.matched (hsure hs)⟩

/-- A match that is there is sure. -/
theorem certain {m : Match} (h : Outcome shape size offset sure (some m)) :
    Outcome shape size offset sure' (some m) := ⟨h.within, h.between, h.nodes, fun _ => rfl⟩

/-- One match after another. -/
theorem after {m : Match} (h : Outcome shape size offset sure (some m))
    (hlater : Outcome shape size m.stop sure' found) :
    Outcome shape size offset sure' (found.map (.after m.nodes)) := by
  obtain ⟨hstart, -⟩ := h.within m rfl
  refine ⟨fun m' hm' => ?_, fun m' hm' => ?_, fun m' hm' => ?_, fun hs => ?_⟩
  · obtain ⟨later, hfound, rfl⟩ := Option.map_eq_some_iff.mp hm'
    obtain ⟨hle, hend⟩ := hlater.within later hfound
    exact ⟨Nat.le_trans hstart hle, hend⟩
  · obtain ⟨later, hfound, rfl⟩ := Option.map_eq_some_iff.mp hm'
    obtain ⟨hle, -⟩ := hlater.within later hfound
    refine List.forall_mem_append.mpr ⟨fun node hnode => ?_, fun node hnode => ?_⟩
    · obtain ⟨hfirst, hlast⟩ := h.between m rfl node hnode
      exact ⟨hfirst, Nat.le_trans hlast hle⟩
    · obtain ⟨hfirst, hlast⟩ := hlater.between later hfound node hnode
      exact ⟨Nat.le_trans hstart hfirst, hlast⟩
  · obtain ⟨later, hfound, rfl⟩ := Option.map_eq_some_iff.mp hm'
    exact (h.nodes m rfl).append (hlater.nodes later hfound)
  · rw [Option.isSome_map]
    exact hlater.matched hs

/-- The nodes of an entry lie in the text when those of its checker do. -/
theorem nodesOf {entry : Entry} {use : Option TypeUse} {f : Found}
    (hshape : ∀ u ∈ use, ∀ node ∈ entry.nodesOf offset f use, shape u.type.name node)
    (h : Outcome shape size offset sure (some f.toMatch)) :
    Outcome shape size offset sure (some ⟨f.stop, entry.nodesOf offset f use⟩) := by
  obtain ⟨hstart, hstop⟩ := h.within f.toMatch rfl
  have hbetween : Node.AllBetween offset f.stop f.nodes := h.between f.toMatch rfl
  have hbelow : AllNodes (Node.Sits shape size) f.nodes := h.nodes f.toMatch rfl
  -- the nodes of the checker itself, or one node over none or all of them
  have hone {node : Node} (hspan : node.start = offset ∧ node.stop = f.stop)
      (htype : ∀ t, node.typeName = some t → shape t node)
      (hchildren : node.children = [] ∨ node.children = f.nodes) :
      Outcome shape size offset sure (some ⟨f.stop, [node]⟩) := by
    obtain ⟨name, typeName, param, start, stop, children⟩ := node
    obtain ⟨rfl, rfl⟩ : start = offset ∧ stop = f.stop := hspan
    have hinside : Node.AllBetween start f.stop children ∧
        AllNodes (Node.Sits shape size) children := by
      obtain rfl | rfl : children = [] ∨ children = f.nodes := hchildren
      · exact ⟨nofun, .nil⟩
      · exact ⟨hbetween, hbelow⟩
    refine ⟨?_, ?_, ?_, fun _ => rfl⟩
    · rintro m ⟨⟩
      exact ⟨hstart, hstop⟩
    · rintro m ⟨⟩
      exact List.forall_mem_singleton.mpr ⟨Nat.le_refl _, Nat.le_refl _⟩
    · rintro m ⟨⟩
      exact .node hinside.2 ⟨hstart, hstop, hinside.1, htype⟩
  cases use with
  | some use =>
    have hnode := hshape use rfl
    simp only [Entry.nodesOf, Entry.typedNode, List.forall_mem_singleton] at hnode ⊢
    split at hnode
    · next hflat =>
      rw [if_pos hflat]
      exact hone ⟨rfl, rfl⟩ (fun _ ht => Option.some.inj ht ▸ hnode) (.inl rfl)
    · next hflat =>
      rw [if_neg hflat]
      exact hone ⟨rfl, rfl⟩ (fun _ ht => Option.some.inj ht ▸ hnode) (.inr rfl)
  | none =>
    simp only [Entry.nodesOf, Entry.untypedNodes]
    split
    · refine hone ⟨rfl, rfl⟩ (fun _ ht => by cases ht) ?_
      dsimp only
      split
      · exact .inl rfl
      · exact .inr rfl
    · split
      · exact h
      · exact hone ⟨rfl, rfl⟩ (fun _ ht => by cases ht) (.inr rfl)

theorem map_nodesOf {entry : Entry} {use : Option TypeUse} {found : Option Found}
    (hshape : ∀ u ∈ use, ∀ f ∈ found, ∀ node ∈ entry.nodesOf offset f use,
      shape u.type.name node)
    (h : Outcome shape size offset sure (found.map Found.toMatch)) :
    Outcome shape size offset sure (found.map fun f => ⟨f.stop, entry.nodesOf offset f use⟩) := by
  cases found with
  | none => exact h
  | some f => exact h.nodesOf fun u hu => hshape u hu f rfl

end Outcome

/-! ## Deciding -/

/-- A bound for the steps of one search, apart from those of the searches inside them. -/
def Setting.span (setting : Setting) : Nat := 2 * (setting.text.size + 10) ^ 3

/-- The checker comes to an outcome at each offset from the first one on. -/
def Checker.Decides (L : Type) [FailureLog L] (setting : Setting) (shape : String → Node → Prop)
    (rank first : Nat) (c : Checker) : Prop :=
  ∀ offset, first ≤ offset → offset ≤ setting.text.size → ∃ found,
    c.Takes L setting (rank * setting.span) offset found ∧
      Outcome shape setting.text.size offset False (found.map Found.toMatch)

/-- One attempt at the entry comes to an outcome at each offset from the first one on. -/
def Entry.Decides (L : Type) [FailureLog L] (setting : Setting) (shape : String → Node → Prop)
    (rank steps first : Nat) (sure : Prop) (entry : Entry) : Prop :=
  ∀ offset, first ≤ offset → offset ≤ setting.text.size → ∃ found,
    entry.Takes L setting (rank * setting.span) steps offset found ∧
      Outcome shape setting.text.size offset sure found

/-- The repeats of the entry come to an outcome at each offset from the first one on. -/
def Entry.RepeatsDecide (L : Type) [FailureLog L] (setting : Setting) (shape : String → Node → Prop)
    (rank steps first : Nat) (sure : Prop) (entry : Entry) : Prop :=
  ∀ offset, first ≤ offset → offset ≤ setting.text.size → ∃ found,
    entry.Repeats L setting (rank * setting.span) steps 0 offset found ∧
      Outcome shape setting.text.size offset sure found

/-- The entries come to an outcome at each offset from the first one on. -/
def Entry.AllDecide (L : Type) [FailureLog L] (setting : Setting) (shape : String → Node → Prop)
    (rank steps first : Nat) (sure : Prop) (entries : List Entry) : Prop :=
  ∀ offset, first ≤ offset → offset ≤ setting.text.size → ∃ found,
    Entry.AllRead L setting (rank * setting.span) steps entries offset found ∧
      Outcome shape setting.text.size offset sure found

/-! ## Checkers -/

namespace Checker.Decides

theorem mono {c : Checker} {first' : Nat} (h : c.Decides L setting shape rank first)
    (hrank : rank ≤ rank') (hfirst : first ≤ first') : c.Decides L setting shape rank' first' := by
  intro offset hoffset hsize
  obtain ⟨found, htake, hout⟩ := h offset (Nat.le_trans hfirst hoffset) hsize
  exact ⟨found, htake.mono (Nat.mul_le_mul_right _ hrank), hout⟩

/-- A checker without parts that takes no characters past the end. -/
theorem of_length {c : Checker} (hgrammar : ∀ g, c ≠ .grammar g)
    (hchoice : ∀ cs fallback, c ≠ .oneOf cs fallback)
    (h : ∀ offset ≤ setting.text.size, ∃ length, (∀ n ∈ length, offset + n ≤ setting.text.size) ∧
      ∀ (run : Runner L) (outer : List Trail),
        c.lengthAt run (setting.around outer) offset = .ok length) :
    c.Decides L setting shape rank first := by
  intro offset _ hsize
  obtain ⟨length, hlength, heq⟩ := h offset hsize
  refine ⟨_, (Checker.Takes.of_length hgrammar hchoice heq).mono (Nat.zero_le _), ?_⟩
  cases length with
  | none => exact .none id
  | some n => exact .bare (Nat.le_add_right _ _) (hlength n rfl)

theorem char {set : CharSet} : (Checker.char set).Decides L setting shape rank first := by
  refine of_length nofun nofun fun offset _ => ?_
  cases hget : setting.text[offset]? with
  | none =>
    refine ⟨none, (fun n hn => by cases hn), fun _ outer => ?_⟩
    have hget : (setting.around outer).text[offset]? = none := hget
    simp only [Checker.lengthAt, hget]
  | some c =>
    obtain ⟨hlt, -⟩ := Array.getElem?_eq_some_iff.mp hget
    refine ⟨if set.contains setting.types.classes c then some 1 else none, fun n hn => ?_,
      fun _ outer => ?_⟩
    · split at hn <;> cases hn
      exact hlt
    · have hget : (setting.around outer).text[offset]? = some c := hget
      simp only [Checker.lengthAt, hget]
      rfl

theorem word {w : Word} : (Checker.word w).Decides L setting shape rank first :=
  of_length nofun nofun fun offset hsize => ⟨w.lengthAt setting.text offset,
    fun _ hn => Word.lengthAt_within hsize hn, fun _ _ => rfl⟩

theorem any {width : Option Nat} : (Checker.any width).Decides L setting shape rank first :=
  of_length nofun nofun fun offset hsize => ⟨Checker.anyLengthAt width setting.text offset,
    fun _ hn => Checker.anyLengthAt_within hsize hn, fun _ _ => rfl⟩

theorem literal (chars : List Char) :
    (Checker.literal chars).Decides L setting shape rank first := by
  cases chars with
  | nil => exact any
  | cons c cs => exact word

/-- One character where there is no such literal. -/
theorem not_literal (chars : List Char) :
    (Checker.not (.literal chars)).Decides L setting shape rank first := by
  have hlength : ∀ offset : Nat, ∃ length : Option Nat, ∀ (run : Runner L) (outer : List Trail),
      (Checker.literal chars).lengthAt run (setting.around outer) offset = .ok length := by
    intro offset
    cases chars with
    | nil => exact ⟨some 0, fun _ _ => rfl⟩
    | cons c cs => exact ⟨Word.lengthAt ⟨c, cs⟩ setting.text offset, fun _ _ => rfl⟩
  refine of_length nofun nofun fun offset _ => ?_
  obtain ⟨length, hlength⟩ := hlength offset
  refine ⟨if setting.text.size ≤ offset then some 0 else
    match length with
    | some _ => none
    | none => some 1, fun n hn => ?_, fun run outer => ?_⟩
  · split at hn
    · cases hn
      omega
    · split at hn <;> cases hn
      omega
  · have htext : (setting.around outer).text = setting.text := rfl
    simp only [lengthAt, htext, hlength, bind, Except.bind]
    split
    · rfl
    · cases length <;> rfl

/-- The longest of several choices that come to an outcome each. -/
theorem choices {cs : List Checker} (h : ∀ c ∈ cs, c.Decides L setting shape rank first)
    (hoffset : first ≤ offset) (hsize : offset ≤ setting.text.size) :
    ∃ found, Checker.AllTake L setting (rank * setting.span) cs offset found ∧
      Outcome shape setting.text.size offset False (found.map Found.toMatch) := by
  induction cs with
  | nil => exact ⟨none, .nil, .none id⟩
  | cons c cs ih =>
    obtain ⟨later, hlater, hlaterOut⟩ := ih fun c hc => h c (List.mem_cons_of_mem _ hc)
    obtain ⟨here, hhere, hhereOut⟩ := h c List.mem_cons_self offset hoffset hsize
    refine ⟨longer later here, .cons hlater hhere, ?_⟩
    cases hboth : longer later here with
    | none => exact .none id
    | some f =>
      obtain rfl | rfl := eq_or_eq_of_further hboth
      · exact hlaterOut
      · exact hhereOut

theorem oneOf {cs : List Checker} {fallback : Option Checker}
    (h : ∀ c ∈ cs, c.Decides L setting shape rank first)
    (hfallback : ∀ c ∈ fallback, c.Decides L setting shape rank first) :
    (Checker.oneOf cs fallback).Decides L setting shape rank first := by
  intro offset hoffset hsize
  obtain ⟨chosen, hchosen, hout⟩ := choices h hoffset hsize
  cases chosen with
  | some f => exact ⟨some f, .chosen hchosen, hout⟩
  | none =>
    cases fallback with
    | none => exact ⟨none, .unchosen hchosen, .none id⟩
    | some c =>
      obtain ⟨other, hother, hotherOut⟩ := hfallback c rfl offset hoffset hsize
      exact ⟨other, .fallen hchosen hother, hotherOut⟩

/-- A grammar as a choice, by a search of its own. -/
theorem grammar {g : Grammar} (h : Entry.AllDecide L setting shape rank steps first sure g.entries)
    (hsteps : steps < setting.span) :
    (Checker.grammar g).Decides L setting shape (rank + 1) first := by
  intro offset hoffset hsize
  obtain ⟨found, hread, hout⟩ := h offset hoffset hsize
  refine ⟨found.map Match.found, (Checker.Takes.grammar hread).mono ?_, ?_⟩
  · rw [Nat.add_mul, Nat.one_mul]
    omega
  · rw [Option.map_map]
    cases found <;> exact hout.mono False.elim

end Checker.Decides

/-! ## Entries -/

section

variable {entry : Entry} {entries : List Entry} {use : Option TypeUse}

/-- The nodes with a type that the entry makes of what the checker takes have the shape they should
have. -/
def Entry.Shapes (L : Type) [FailureLog L] (setting : Setting) (shape : String → Node → Prop)
    (use : Option TypeUse) (c : Checker) (entry : Entry) : Prop :=
  ∀ u ∈ use, ∀ need offset f, c.Takes L setting need offset (some f) →
    ∀ node ∈ entry.nodesOf offset f use, shape u.type.name node

/-- An entry whose checker is matched at once. -/
theorem Entry.Decides.at_once {c : Checker} (hentry : entry.MatchedBy setting.types use c)
    (hshapes : entry.Shapes L setting shape use c) (hgrammar : ∀ g, c ≠ .grammar g)
    (hfixed : ∀ regions, c ≠ .fixed regions) (h : c.Decides L setting shape rank first) :
    entry.Decides L setting shape rank 1 first False := by
  intro offset hoffset hsize
  obtain ⟨found, htake, hout⟩ := h offset hoffset hsize
  refine ⟨_, Entry.Takes.at_once hentry hfixed (fun g hg => absurd hg (hgrammar g)) htake,
    hout.map_nodesOf ?_⟩
  rintro u hu f rfl
  exact hshapes u hu _ _ f htake

/-- An entry whose checker is a grammar, whether it is walked or matched at once. -/
theorem Entry.Decides.grammar {g : Grammar}
    (hentry : entry.MatchedBy setting.types use (.grammar g))
    (hshapes : entry.Shapes L setting shape use (.grammar g))
    (h : Entry.AllDecide L setting shape rank steps first sure g.entries)
    (hsteps : steps < setting.span) :
    entry.Decides L setting shape (rank + 1) (steps + 2) first sure := by
  intro offset hoffset hsize
  obtain ⟨found, hread, hout⟩ := h offset hoffset hsize
  have hrank : rank * setting.span + steps + 1 ≤ (rank + 1) * setting.span := by
    rw [Nat.add_mul, Nat.one_mul]
    omega
  refine ⟨found.map fun m => ⟨m.stop, entry.nodesOf offset m.found use⟩,
    fun rest repeats hfull => ?_, ?_⟩
  · cases hopens : setting.strategy.opens g with
    | true =>
      have hwalked := Entry.Takes.walked hentry hopens hread rest repeats hfull
      exact hwalked.mono (by omega) (Nat.le_refl _)
    | false =>
      have hshut (g' : Grammar) (hg' : Checker.grammar g = .grammar g') :
          setting.strategy.opens g' = false := by
        cases hg'
        exact hopens
      have honce := Entry.Takes.at_once hentry nofun hshut (Checker.Takes.grammar hread) rest
        repeats hfull
      rw [Option.map_map] at honce
      exact honce.mono hrank (by omega)
  · cases found with
    | none => exact hout
    | some m =>
      exact Outcome.nodesOf (f := m.found)
        (fun u hu => hshapes u hu _ _ m.found (Checker.Takes.grammar hread)) hout

/-- **All repeats of an entry**: at most one more than there are characters left, each of so many
steps. Once they are enough they end in a match, and so they do when every attempt is one. -/
theorem Entry.repeats_of_decides (h : entry.Decides L setting shape rank steps first sure)
    (left : Nat) : ∀ repeats offset, first ≤ offset → offset + left = setting.text.size → ∃ found,
      entry.Repeats L setting (rank * setting.span) ((left + 1) * steps + 1) repeats offset found ∧
        Outcome shape setting.text.size offset (sure ∨ entry.quantifier.lower ≤ repeats) found := by
  induction left using Nat.strong_induction_on with
  | _ left ih =>
  intro repeats offset hfirst hleft
  have hsize : offset ≤ setting.text.size := by omega
  have hfew : steps ≤ (left + 1) * steps + 1 := by
    have hpos : 0 < left + 1 := Nat.succ_pos left
    exact Nat.le_succ_of_le (Nat.le_mul_of_pos_left steps hpos)
  by_cases hfull : entry.quantifier.isFull repeats = true
  · exact ⟨some ⟨offset, []⟩, fun rest => (Entry.Repeats.full hfull rest).mono (Nat.le_refl _)
      (Nat.le_add_left _ _), .here hsize⟩
  have hfull : entry.quantifier.isFull repeats = false := eq_false_of_ne_true hfull
  obtain ⟨found, htakes, hout⟩ := h offset hfirst hsize
  cases found with
  | none =>
    refine ⟨_, fun rest => (Entry.Repeats.missed hfull htakes rest).mono (Nat.le_refl _) hfew, ?_⟩
    split
    · next hlower =>
      refine .none ?_
      rintro (hsure | hle)
      · exact absurd (hout.matched hsure) (by simp)
      · omega
    · exact .here hsize
  | some m =>
    obtain ⟨hbefore, hafter⟩ := hout.within m rfl
    by_cases hstop : m.stop = offset
    · exact ⟨some m, fun rest => (Entry.Repeats.stayed hfull htakes hstop rest).mono (Nat.le_refl _)
        hfew, hout.certain⟩
    · obtain ⟨later, hlater, hlaterOut⟩ := ih (setting.text.size - m.stop) (by omega) (repeats + 1)
        m.stop (by omega) (by omega)
      refine ⟨later.map (.after m.nodes), fun rest => ?_, hout.after (hlaterOut.mono fun hsure =>
        hsure.imp_right fun hlower => Nat.le_succ_of_le hlower)⟩
      refine (Entry.Repeats.more hfull htakes hstop hlater rest).mono (Nat.le_refl _) ?_
      have hmul : (setting.text.size - m.stop + 1 + 1) * steps ≤ (left + 1) * steps :=
        Nat.mul_le_mul_right _ (by omega)
      rw [Nat.add_mul, Nat.one_mul] at hmul
      omega

/-- An entry with any number of repeats. -/
theorem Entry.RepeatsDecide.many (h : entry.Decides L setting shape rank steps first sure) :
    entry.RepeatsDecide L setting shape rank ((setting.text.size + 1) * steps + 1) first
      (sure ∨ entry.quantifier.lower = 0) := by
  intro offset hoffset hsize
  obtain ⟨found, hrepeats, hout⟩ := Entry.repeats_of_decides h (setting.text.size - offset) 0 offset
    hoffset (by omega)
  refine ⟨found, fun rest => (hrepeats rest).mono (Nat.le_refl _) ?_,
    hout.mono fun hsure => hsure.imp_right Nat.le_of_eq⟩
  have hmul : (setting.text.size - offset + 1) * steps ≤ (setting.text.size + 1) * steps :=
    Nat.mul_le_mul_right steps (by omega)
  omega

/-- An entry that is matched once at most. -/
theorem Entry.RepeatsDecide.once (h : entry.Decides L setting shape rank steps first sure)
    (hupper : entry.quantifier.upper = some 1) :
    entry.RepeatsDecide L setting shape rank (steps + 1) first
      (sure ∨ entry.quantifier.lower = 0) := by
  intro offset hoffset hsize
  have hopen : entry.quantifier.isFull 0 = false := by
    simp only [Quantifier.isFull, hupper]
    rfl
  have hfull : entry.quantifier.isFull (0 + 1) = true := by
    simp only [Quantifier.isFull, hupper]
    rfl
  obtain ⟨found, htakes, hout⟩ := h offset hoffset hsize
  cases found with
  | none =>
    refine ⟨_, fun rest => (Entry.Repeats.missed hopen htakes rest).mono (Nat.le_refl _)
      (Nat.le_succ steps), ?_⟩
    split
    · next hlower =>
      refine .none ?_
      rintro (hsure | hzero)
      · exact absurd (hout.matched hsure) (by simp)
      · omega
    · exact .here hsize
  | some m =>
    by_cases hstop : m.stop = offset
    · exact ⟨some m, fun rest => (Entry.Repeats.stayed hopen htakes hstop rest).mono (Nat.le_refl _)
        (Nat.le_succ steps), hout.certain⟩
    · exact ⟨_, Entry.Repeats.more hopen htakes hstop (Entry.Repeats.full hfull),
        hout.after (.here (hout.within m rfl).2)⟩

theorem Entry.AllDecide.nil : Entry.AllDecide L setting shape rank 0 first True [] :=
  fun _ _ hsize => ⟨_, .nil, .here hsize⟩

theorem Entry.AllDecide.cons (h : entry.RepeatsDecide L setting shape rank steps first sure)
    (h' : Entry.AllDecide L setting shape rank steps' first sure' entries) :
    Entry.AllDecide L setting shape rank (steps + steps') first (sure ∧ sure')
      (entry :: entries) := by
  intro offset hoffset hsize
  obtain ⟨found, hrepeats, hout⟩ := h offset hoffset hsize
  cases found with
  | none =>
    exact ⟨none, fun rest => (Entry.AllRead.stuck hrepeats rest).mono (Nat.le_refl _)
      (Nat.le_add_right _ _), .none fun hsure => absurd (hout.matched hsure.1) (by simp)⟩
  | some m =>
    obtain ⟨hbefore, hafter⟩ := hout.within m rfl
    obtain ⟨later, hread, hlaterOut⟩ := h' m.stop (Nat.le_trans hoffset hbefore) hafter
    exact ⟨later.map (.after m.nodes), .cons hrepeats hread,
      hout.after (hlaterOut.mono fun hsure => hsure.2)⟩

end

/-! ## Grammars of entries -/

/-- The checker is a grammar whose entries come to an outcome. -/
def Checker.Walks (L : Type) [FailureLog L] (setting : Setting) (shape : String → Node → Prop)
    (rank steps first : Nat) (sure : Prop) (c : Checker) : Prop :=
  ∃ g, c = .grammar g ∧ Entry.AllDecide L setting shape rank steps first sure g.entries

namespace Checker.Walks

variable {c : Checker} {entries : List Entry} {entry : Entry} {use : Option TypeUse}

theorem sequence (h : Entry.AllDecide L setting shape rank steps first sure entries) :
    (Checker.sequence entries).Walks L setting shape rank steps first sure := ⟨_, rfl, h⟩

theorem mono (h : c.Walks L setting shape rank steps first sure) (hrank : rank ≤ rank')
    (hsteps : steps ≤ steps') (hsure : sure' → sure) :
    c.Walks L setting shape rank' steps' first sure' := by
  obtain ⟨g, rfl, h⟩ := h
  refine ⟨g, rfl, fun offset hoffset hsize => ?_⟩
  obtain ⟨found, hread, hout⟩ := h offset hoffset hsize
  exact ⟨found, fun rest => (hread rest).mono (Nat.mul_le_mul_right _ hrank) hsteps,
    hout.mono hsure⟩

theorem decides (h : c.Walks L setting shape rank steps first sure)
    (hsteps : steps < setting.span) : c.Decides L setting shape (rank + 1) first := by
  obtain ⟨g, rfl, h⟩ := h
  exact .grammar h hsteps

theorem within (h : c.Walks L setting shape rank steps first sure) (hsteps : steps < setting.span)
    (hentry : entry.MatchedBy setting.types use c) (hshapes : entry.Shapes L setting shape use c) :
    entry.Decides L setting shape (rank + 1) (steps + 2) first sure := by
  obtain ⟨g, rfl, h⟩ := h
  exact .grammar hentry hshapes h hsteps

/-- Past the end of the text there is nothing to walk. -/
theorem past_end (hfirst : setting.text.size < first) :
    (Checker.sequence entries).Walks L setting shape rank steps first sure :=
  .sequence fun _ hoffset hsize => absurd hsize (by omega)

end Checker.Walks

/-- After a certain character the rest of a grammar is tried one offset later. -/
theorem Entry.AllDecide.after_char {c : Char} {entries : List Entry}
    (h : Entry.AllDecide L setting shape rank steps (first + 1) sure entries) :
    Entry.AllDecide L setting shape rank (2 + steps) first False
      (.ofChecker (.single c) :: entries) := by
  intro offset hoffset hsize
  have hentry : (Entry.ofChecker (.single c)).MatchedBy setting.types none (.single c) :=
    .ofChecker _
  have htakes (found : Option Found)
      (htake : (Checker.single c).Takes L setting 0 offset found) :
      (Entry.ofChecker (.single c)).Takes L setting (rank * setting.span) 1 offset
        (found.map fun f => ⟨f.stop, (Entry.ofChecker (.single c)).nodesOf offset f none⟩) :=
    Entry.Takes.at_once hentry (fun _ h => by cases h) (fun _ h => by cases h)
      (htake.mono (Nat.zero_le _))
  have hopen : (Entry.ofChecker (.single c)).quantifier.isFull 0 = false := rfl
  have hfull : (Entry.ofChecker (.single c)).quantifier.isFull (0 + 1) = true := rfl
  by_cases hget : setting.text[offset]? = some c
  · have hlt : offset < setting.text.size := (Array.getElem?_eq_some_iff.mp hget).1
    have hset : (CharSet.single c).contains setting.types.classes c = true := by
      simp only [CharSet.contains, beq_self_eq_true]
    obtain ⟨found, hread, hout⟩ := h (offset + 1) (Nat.succ_le_succ hoffset) hlt
    have hleaf : Outcome shape setting.text.size offset sure
        (some (Found.toMatch ⟨offset + 1, [], false⟩)) := .bare (Nat.le_succ _) hlt
    have hhere : Outcome shape setting.text.size offset sure (some ⟨offset + 1,
        (Entry.ofChecker (.single c)).nodesOf offset ⟨offset + 1, [], false⟩ none⟩) :=
      hleaf.nodesOf fun _ hnone => by cases hnone
    have hrepeats := Entry.Repeats.more hopen (htakes _ (Checker.Takes.char hget hset))
      (Nat.succ_ne_self offset) (Entry.Repeats.full hfull)
    have honce : Outcome shape setting.text.size offset sure (some _) := hhere.after (.here hlt)
    exact ⟨_, .cons hrepeats hread, honce.after (hout.mono False.elim)⟩
  · have hnone : ∀ d, setting.text[offset]? = some d →
        (CharSet.single c).contains setting.types.classes d = false := by
      intro d hd
      have hne : ¬ c = d := fun heq => hget (heq ▸ hd)
      simpa only [CharSet.contains, beq_eq_false_iff_ne, ne_eq] using hne
    have hrepeats := Entry.Repeats.missed hopen (htakes _ (Checker.Takes.not_char hnone))
    exact ⟨none, fun rest => (Entry.AllRead.stuck hrepeats rest).mono (Nat.le_refl _) (by omega),
      .none id⟩

end TextGrammar
