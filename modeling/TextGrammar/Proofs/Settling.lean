/-
How many steps a search needs. `Machine.Settles` says with which result a search
ends from a state when it is allowed so many steps. It is carried back over one
step, and from the newest snapshot that leaves something to try to the state
that gives up.

Of a state only the current entries, their repeats and the offset matter to what
comes next; the rest of it is a `Spot`. As it goes on, a search adds nodes to its
spot, and leaves behind snapshots of which nothing is left to try.
-/
import Mathlib.Data.List.Induction
import TextGrammar.Proofs.Walk

namespace TextGrammar

variable {L : Type} [FailureLog L] {setting : Setting} {mode : Mode} {result : Option Match}
  {steps more need : Nat}

/-! ## Settling -/

/-- With so many steps or more the search ends with this result. -/
def Machine.Settles (setting : Setting) (mode : Mode) (result : Option Match) (steps : Nat)
    (m : Machine L) : Prop :=
  ∀ fuel, steps ≤ fuel → ∃ failures, Machine.run fuel setting mode m = .ok ⟨result, failures⟩

/-- The search ends with this result from what a step leads to. -/
def Step.Settles (setting : Setting) (mode : Mode) (result : Option Match) (steps : Nat) :
    Step L → Prop
  | .next m => m.Settles setting mode result steps
  | .done value _ => value = result

/-- One step more, in which searches may take as many steps as are left. -/
theorem Machine.Settles.of_step {m : Machine L} (hneed : need ≤ steps)
    (hstep : ∀ fuel, need ≤ fuel → ∃ s, m.step (runWithin fuel) setting mode = .ok s ∧
      s.Settles setting mode result steps) :
    m.Settles setting mode result (steps + 1) := by
  intro fuel hfuel
  obtain ⟨fuel, rfl⟩ : ∃ n, fuel = n + 1 := ⟨fuel - 1, by omega⟩
  obtain ⟨s, hs, hsettles⟩ := hstep fuel (by omega)
  unfold runWithin at hs
  cases s with
  | done value failures =>
    obtain rfl : value = result := hsettles
    refine ⟨failures, ?_⟩
    rw [Machine.run, hs]
  | next m' =>
    obtain ⟨failures, hrun⟩ := hsettles fuel (by omega)
    refine ⟨failures, ?_⟩
    rw [Machine.run, hs]
    exact hrun

theorem Machine.Settles.mono {m : Machine L} (h : m.Settles setting mode result steps)
    (hle : steps ≤ more) : m.Settles setting mode result more :=
  fun fuel hfuel => h fuel (Nat.le_trans hle hfuel)

/-! ## Types -/

/-- The name refers to a type that always gives this checker and lets every match stand. -/
structure TypeEnv.Offers (types : TypeEnv) (r : TypeRef) (type : ParserType) (c : Checker) : Prop
    where
  found : types.find? r.name = some type
  named : type.name = r.name
  supplied : ∀ host, types.supply host r.param type = .ok (.ok c)
  accepted : ∀ host ref, type.accepts host ref = true

theorem TypeEnv.Offers.unique {types : TypeEnv} {r : TypeRef} {type type' : ParserType}
    {c c' : Checker} (h : types.Offers r type c) (h' : types.Offers r type' c') : c = c' := by
  have htype : some type = some type' := h.found.symm.trans h'.found
  obtain rfl := Option.some.inj htype
  have hsupplied := (h.supplied ⟨#[], 0, []⟩).symm.trans (h'.supplied ⟨#[], 0, []⟩)
  exact Except.ok.inj (Except.ok.inj hsupplied)

/-- The checkers a search keeps are those that the types of these names give. -/
def TypeEnv.Remembers (types : TypeEnv)
    (checkers : List ((String × Option String) × Checker)) : Prop :=
  ∀ kept ∈ checkers, ∀ type c, types.Offers ⟨kept.1.1, kept.1.2⟩ type c → kept.2 = c

/-- What a target is matched with, and the type that gives it. -/
inductive Target.Gives (types : TypeEnv) : Target → Option TypeUse → Checker → Prop
  | checker (c : Checker) : Gives types (.checker c) none c
  | ref {r : TypeRef} {type : ParserType} {c : Checker} (h : types.Offers r type c) :
    Gives types (.ref r) (some ⟨type, r.param⟩) c

/-- The type lets every match of the entry stand. -/
theorem Target.Gives.accepts {types : TypeEnv} {target : Target} {use : TypeUse} {c : Checker}
    (h : target.Gives types (some use) c) (host : Host) (ref : NodeRef) :
    use.type.accepts host ref = true := by
  cases h with
  | ref h => exact h.accepted host ref

/-- The entry is matched by the checker as it is, and keeps what it has taken. -/
structure Entry.MatchedBy (types : TypeEnv) (use : Option TypeUse) (c : Checker) (entry : Entry) :
    Prop where
  gives : entry.target.Gives types use c
  second : entry.secondary = none
  keeps : entry.quantifier.greediness = .possessive

namespace Entry.MatchedBy

variable {types : TypeEnv} {use : Option TypeUse} {c : Checker} {entry : Entry}

theorem ofChecker (c : Checker) : (Entry.ofChecker c).MatchedBy types none c :=
  ⟨.checker c, rfl, rfl⟩

theorem ref {name : String} {param : Option String} {type : ParserType}
    (h : types.Offers ⟨name, param⟩ type c) :
    (Entry.ref name param).MatchedBy types (some ⟨type, param⟩) c :=
  ⟨.ref h, rfl, rfl⟩

theorem named (h : entry.MatchedBy types use c) (name : String) :
    (entry.named name).MatchedBy types use c := ⟨h.gives, h.second, h.keeps⟩

theorem quantified (h : entry.MatchedBy types use c) {q : Quantifier}
    (hq : q.greediness = .possessive) : (entry.quantified q).MatchedBy types use c :=
  ⟨h.gives, h.second, hq⟩

end Entry.MatchedBy

/-- The nodes of a match of an entry that has no secondary grammar. -/
def Entry.nodesOf (entry : Entry) (offset : Nat) (found : Found) : Option TypeUse → List Node
  | none => entry.untypedNodes offset found
  | some use =>
    let node := entry.typedNode offset found use
    [if entry.isFlat then { node with children := [] } else node]

theorem Entry.complete_accepted {types : TypeEnv} {entry : Entry} {use : Option TypeUse}
    {c : Checker} (hentry : entry.MatchedBy types use c)
    (run : Runner L) (setting : Setting) (offset : Nat) (found : Found) :
    entry.complete run setting offset found use =
      .ok (.of (some (entry.nodesOf offset found use))) := by
  have hreread : entry.reread run setting offset found = .ok (.of (some found)) := by
    simp only [Entry.reread, hentry.second]
  simp only [Entry.complete, hreread]
  cases use with
  | none => rfl
  | some use =>
    have haccepts := hentry.gives.accepts ⟨setting.text, offset, setting.outer⟩
      ⟨setting.text, entry.typedNode offset found use, 0⟩
    simp only [Seen.of, bind, Except.bind, haccepts, if_true]
    rfl

/-- A target is tried with its checker, which may be kept from then on. -/
theorem Machine.attempt_given (setting : Setting) (m : Machine L) {entry : Entry}
    {use : Option TypeUse} {c : Checker} (hgives : entry.target.Gives setting.types use c)
    (hkept : setting.types.Remembers m.checkers) (run : Runner L) :
    ∃ checkers, setting.types.Remembers checkers ∧ m.attempt run setting entry =
      Machine.attemptChecker run setting { m with checkers } entry c use := by
  obtain ⟨capture, target, q, second⟩ := entry
  cases hgives with
  | checker => exact ⟨m.checkers, hkept, rfl⟩
  | @ref r type c h =>
    have hattempt : m.attempt run setting ⟨capture, .ref r, q, second⟩ =
        m.attemptType run setting ⟨capture, .ref r, q, second⟩ ⟨type, r.param⟩ := by
      simp only [Machine.attempt, h.found]
    have hof : ∃ checkers, setting.types.Remembers checkers ∧
        m.checkerOf setting ⟨type, r.param⟩ = .ok ({ m with checkers }, c) := by
      simp only [Machine.checkerOf, h.supplied]
      split
      · next kept hlookup =>
        refine ⟨m.checkers, hkept, ?_⟩
        split at hlookup
        · have hmem : ((type.name, r.param), kept) ∈ m.checkers := by
            obtain ⟨before, after, hsplit, -⟩ := List.lookup_eq_some_iff.mp hlookup
            rw [hsplit]
            exact List.mem_append_right _ List.mem_cons_self
          have hr : setting.types.Offers ⟨type.name, r.param⟩ type c :=
            ⟨h.named ▸ h.found, rfl, h.supplied, h.accepted⟩
          rw [← hkept _ hmem type c hr]
        · cases hlookup
      · split
        · refine ⟨_, ?_, rfl⟩
          intro kept hmem type' c' h'
          rcases List.mem_cons.mp hmem with rfl | hmem
          · have hname : type.name = r.name := h.named
            simp only [hname] at h'
            exact h.unique h'
          · exact hkept kept hmem type' c' h'
        · exact ⟨m.checkers, hkept, rfl⟩
    obtain ⟨checkers, hcheckers, hof⟩ := hof
    refine ⟨checkers, hcheckers, ?_⟩
    rw [hattempt]
    simp only [Machine.attemptType, hof]
    rfl

/-! ## Spots -/

/-- Where a search stands, apart from the current entries, their repeats and the offset. -/
structure Spot (L : Type) where
  start : Nat
  nodes : Trail
  barrier : Option Nat
  use : Option TypeUse
  below : List Session
  snapshots : Array Snapshot
  failures : L
  checkers : List ((String × Option String) × Checker)

/-- What a search has left behind at a spot, apart from nodes. -/
structure Remains (L : Type) where
  spent : Array Snapshot
  failures : L
  checkers : List ((String × Option String) × Checker)

/-- Nothing is left to try at the snapshots, and the checkers are those of their types. -/
structure Remains.Sound (types : TypeEnv) (left : Remains L) : Prop where
  spent : ∀ snapshot ∈ left.spent, snapshot.action = .exhausted
  kept : types.Remembers left.checkers

namespace Spot

variable {spot : Spot L}

/-- A search at the spot. -/
def state (spot : Spot L) (rest : List Entry) (repeats offset : Nat) : Machine L :=
  ⟨⟨rest, repeats, spot.start, spot.nodes, spot.barrier, spot.use⟩ :: spot.below, spot.snapshots,
    offset, false, spot.failures, spot.checkers⟩

/-- The spot once some nodes are completed. -/
def after (spot : Spot L) (nodes : List Node) (left : Remains L) : Spot L :=
  { spot with
    nodes := spot.nodes.pushAll nodes
    snapshots := spot.snapshots ++ left.spent
    failures := left.failures
    checkers := left.checkers }

/-- What a search at the spot has left behind so far. -/
def untouched (spot : Spot L) : Remains L := ⟨#[], spot.failures, spot.checkers⟩

/-- What it comes to when the search gives up. -/
def stuck (spot : Spot L) : Step L := (spot.state [] 0 0).giveUp

omit [FailureLog L] in
theorem untouched_sound {types : TypeEnv} (h : types.Remembers spot.checkers) :
    spot.untouched.Sound types := ⟨fun _ hs => (nomatch hs), h⟩

omit [FailureLog L] in
theorem after_untouched : spot.after [] spot.untouched = spot := by
  simp only [after, untouched, Array.append_empty]
  rfl

omit [FailureLog L] in
theorem after_after {nodes nodes' : List Node} {left left' : Remains L} :
    (spot.after nodes left).after nodes' left' =
      spot.after (nodes ++ nodes') { left' with spent := left.spent ++ left'.spent } := by
  simp only [after, Array.append_assoc, Trail.pushAll, List.foldl_append]

end Spot

omit [FailureLog L] in
theorem Remains.Sound.append {types : TypeEnv} {left left' : Remains L} (h : left.Sound types)
    (h' : left'.Sound types) :
    Remains.Sound types { left' with spent := left.spent ++ left'.spent } := by
  refine ⟨fun snapshot hmem => ?_, h'.kept⟩
  rcases Array.mem_append.mp hmem with hmem | hmem
  · exact h.spent snapshot hmem
  · exact h'.spent snapshot hmem

/-! ## Giving up -/

section

omit [FailureLog L]

theorem Spot.giveUp_state (spot : Spot L) (rest : List Entry) (repeats offset : Nat) :
    (spot.state rest repeats offset).giveUp = spot.stuck := Machine.giveUp_congr rfl rfl rfl

/-- Snapshots where nothing is left to try make no difference. -/
theorem Machine.giveUp_spent (m : Machine L) (spent : Array Snapshot)
    (h : ∀ snapshot ∈ spent, snapshot.action = .exhausted) :
    Machine.giveUp { m with snapshots := m.snapshots ++ spent } = m.giveUp := by
  obtain ⟨spent⟩ := spent
  induction spent using List.reverseRecOn with
  | nil => rw [show m.snapshots ++ #[] = m.snapshots from Array.append_empty]
  | append_singleton spent snapshot ih =>
    have hlast : snapshot.action = .exhausted := h snapshot (by simp)
    have hothers : ∀ other ∈ spent.toArray, other.action = .exhausted := fun other hother =>
      h other (by simpa using Or.inl (List.mem_toArray.mp hother))
    have hpush : m.snapshots ++ (spent ++ [snapshot]).toArray =
        (m.snapshots ++ spent.toArray).push snapshot := by
      simp only [← List.append_toArray, ← Array.append_assoc, Array.push_eq_append]
    have hresume : Machine.resume { m with snapshots := m.snapshots ++ spent.toArray } snapshot =
        none := by
      simp only [Machine.resume, hlast]
    rw [hpush, Machine.giveUp_push { m with snapshots := m.snapshots ++ spent.toArray }, hresume]
    exact ih hothers

end

end TextGrammar
