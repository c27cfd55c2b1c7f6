/-
A pattern inside another one. Where a pattern stands in a longer one, and what
follows it there begins with a line break, its categories come to the same as
in the pattern alone, as long as they stay away from its end or what they come
to has no errors in it. Here this is said of entries and checkers in general: what the
parts of the inner pattern come to, and that it moves to the outer one.
-/
import TextGrammar.Proofs.PatternReading
import TextGrammar.Proofs.Shift

namespace TextGrammar

/-! ## Matches at other offsets -/

theorem Match.shift_after (n : Nat) (nodes : List Node) (m : Match) :
    (m.after nodes).shift n = (m.shift n).after (Node.shiftAll n nodes) := by
  simp only [Match.shift, Match.after, Node.shiftAll_append]

theorem Match.map_shift_after (n : Nat) (nodes : List Node) (found : Option Match) :
    (found.map (Match.after nodes)).map (Match.shift n) =
      (found.map (Match.shift n)).map (Match.after (Node.shiftAll n nodes)) := by
  cases found with
  | none => rfl
  | some m => exact congrArg some (Match.shift_after n nodes m)

theorem Entry.nodesOf_shift (n : Nat) (entry : Entry) (offset : Nat) (found : Found)
    (use : Option TypeUse) :
    entry.nodesOf (offset + n) (found.shift n) use =
      Node.shiftAll n (entry.nodesOf offset found use) := by
  cases use with
  | none =>
    obtain ⟨stop, nodes, built⟩ := found
    simp only [Entry.nodesOf, Entry.untypedNodes, Found.shift]
    split
    · split <;> rfl
    · cases built <;> rfl
  | some use =>
    simp only [Entry.nodesOf, Entry.typedNode, Found.shift]
    split <;> rfl

/-- Without a type an entry leaves the nodes as they are, or makes one node of them or of none. -/
theorem Entry.nodesOf_none {P : List Node → Prop} (entry : Entry) (offset : Nat) {f : Found}
    (nil : P []) (found : P f.nodes) (node : ∀ name start stop children, P children →
      P [{ name, start, stop, children }]) : P (entry.nodesOf offset f none) := by
  simp only [Entry.nodesOf, Entry.untypedNodes]
  split
  · refine node _ _ _ _ ?_
    split
    · exact nil
    · exact found
  · split
    · exact found
    · exact node _ _ _ _ found

/-- The nodes of an entry have a property everywhere only if those of what it has found do. -/
theorem AllNodes.of_nodesOf {p : Node → Prop} {entry : Entry} {offset : Nat} {f : Found}
    {use : Option TypeUse}
    (hflat : entry.isFlat = false) (h : AllNodes p (entry.nodesOf offset f use)) :
    AllNodes p f.nodes := by
  cases use with
  | some use =>
    simp only [Entry.nodesOf, hflat] at h
    exact h.children
  | none =>
    simp only [Entry.nodesOf, Entry.untypedNodes] at h
    simp only [Entry.isFlat] at hflat
    cases hcapture : entry.capture with
    | some capture =>
      simp only [hcapture] at h hflat
      have hflat : capture.flat = false := hflat
      rw [hflat] at h
      exact h.children
    | none =>
      simp only [hcapture] at h
      split at h
      · exact h
      · exact h.children

namespace Pattern

/-! ## Inlays -/

/-- A text inside another one, where a line break follows it if anything does. -/
structure Inlay where
  vocabulary : Vocabulary
  inner : Text
  outer : Text
  shift : Nat
  same : ∀ i < inner.size, outer[i + shift]? = inner[i]?
  beyond : ∀ c, outer[inner.size + shift]? = some c → c = '\n'

namespace Inlay

variable (l : Inlay) {i : Nat}

/-- Both texts have the same there: a character or their end. -/
def Agrees (i : Nat) : Prop := l.outer[i + l.shift]? = l.inner[i]?

/-- The node is no error, and if it is an escape it stands for something. -/
structure IsClean (node : Node) : Prop where
  sound : node.typeName ≠ some "fatalError"
  escape : node.typeName = some "escape" →
    ∃ escaped, readEscape l.vocabulary (inText l.inner node) = .ok escaped

/-- Nothing is wrong with the nodes and those below them. -/
def Clean : List Node → Prop := AllNodes l.IsClean

variable {l}

theorem Agrees.of_lt (h : i < l.inner.size) : l.Agrees i := l.same i h

theorem Agrees.mono {j : Nat} (h : l.Agrees j) (hij : i ≤ j) (hj : j ≤ l.inner.size) :
    l.Agrees i := by
  rcases Nat.lt_or_ge i l.inner.size with hlt | hge
  · exact .of_lt hlt
  · obtain rfl : i = j := by omega
    exact h

/-- None of the nodes and those below them is a fatal error. -/
def Sound : List Node → Prop := AllNodes (·.typeName ≠ some "fatalError")

/-- Only nodes without a type, and such nodes below them. -/
def Untyped : List Node → Prop := AllNodes (·.typeName = none)

theorem Clean.sound {nodes : List Node} (h : l.Clean nodes) : Sound nodes :=
  h.mono fun _ hnode => hnode.sound

theorem Sound.node {name typeName param : Option String} {start stop : Nat} {children : List Node}
    (h : Sound children) (hfatal : typeName ≠ some "fatalError") :
    Sound [⟨name, typeName, param, start, stop, children⟩] := AllNodes.node h hfatal

theorem Sound.leaf (start stop : Nat) : Sound [.leaf start stop] := .node .nil (by rintro ⟨⟩)

theorem Untyped.leaf (start stop : Nat) : Untyped [.leaf start stop] := .node .nil rfl

theorem Untyped.sound {nodes : List Node} (h : Untyped nodes) : Sound nodes :=
  h.mono fun node hnode => by
    rw [hnode]
    rintro ⟨⟩

theorem Untyped.clean {nodes : List Node} (h : Untyped nodes) : l.Clean nodes := by
  refine h.mono fun node hnode => ⟨?_, fun hescape => ?_⟩
  · rw [hnode]
    rintro ⟨⟩
  · rw [hnode] at hescape
    cases hescape

/-- A node of another type than errors and escapes is clean if those below it are. -/
theorem Clean.typed {name typeName param : Option String} {start stop : Nat} {children : List Node}
    (h : l.Clean children) (hfatal : typeName ≠ some "fatalError")
    (hescape : typeName ≠ some "escape") :
    l.Clean [⟨name, typeName, param, start, stop, children⟩] :=
  .node h ⟨hfatal, fun hout => absurd hout hescape⟩

variable (l) in
/-- Nodes without errors are clean: there are no escapes among them. -/
def Plain (nodes : List Node) : Prop := Sound nodes → l.Clean nodes

theorem Plain.nil : l.Plain [] := fun _ => .nil

theorem Plain.append {nodes later : List Node} (h : l.Plain nodes) (h' : l.Plain later) :
    l.Plain (nodes ++ later) := fun hsound =>
  (h (AllNodes.append_iff.mp hsound).1).append (h' (AllNodes.append_iff.mp hsound).2)

theorem Plain.node {name typeName param : Option String} {start stop : Nat} {children : List Node}
    (h : l.Plain children) (hescape : typeName ≠ some "escape") :
    l.Plain [⟨name, typeName, param, start, stop, children⟩] := fun hsound =>
  .typed (h hsound.children) (hsound _ List.mem_cons_self) hescape

/-- An entry without a type makes no node of one. -/
theorem Untyped.nodesOf {entry : Entry} {f : Found} (h : Untyped f.nodes) :
    Untyped (entry.nodesOf i f none) :=
  entry.nodesOf_none i .nil h fun _ _ _ _ hnodes => .node hnodes rfl

theorem Plain.nodesOf {entry : Entry} {f : Found} (h : l.Plain f.nodes) :
    l.Plain (entry.nodesOf i f none) :=
  entry.nodesOf_none i .nil h fun _ _ _ _ hnodes => .node hnodes (by rintro ⟨⟩)

theorem Plain.typed {entry : Entry} {f : Found} {use : TypeUse} (h : l.Plain f.nodes)
    (hescape : use.type.name ≠ "escape") : l.Plain (entry.nodesOf i f (some use)) := by
  simp only [Entry.nodesOf, Entry.typedNode]
  split
  · exact .node .nil (fun heq => hescape (Option.some.inj heq))
  · exact .node h (fun heq => hescape (Option.some.inj heq))

theorem Untyped.plain {nodes : List Node} (h : Untyped nodes) : l.Plain nodes := fun _ => h.clean

/-! ## What comes out -/

variable (l)

/-- In the inner text the relation comes to something there of which this holds, and which ends in
the text. -/
def Comes {α : Type} (stop : α → Nat) (R T : Option α → Prop) (i : Nat) : Prop :=
  ∃ found, R found ∧ (∀ a ∈ found, i ≤ stop a ∧ stop a ≤ l.inner.size) ∧ T found

/-- Entries come to a match. -/
def Yields (R T : Option Match → Prop) (i : Nat) : Prop := l.Comes Match.stop R T i

/-- Checkers as choices come to what they find. -/
def Picks (R T : Option Found → Prop) (i : Nat) : Prop := l.Comes Found.stop R T i

/-- What is found is found in the outer text. -/
def Alike (R : Option Match → Prop) (found : Option Match) : Prop := R (found.map (.shift l.shift))

/-- What is found is found in the outer text, if it is clean. -/
def Moves (R : Option Match → Prop) (found : Option Match) : Prop :=
  (∀ m ∈ found, l.Clean m.nodes) → R (found.map (.shift l.shift))

/-- A clean match that ends at such an offset is one in the outer text. -/
def MovesIf (S : Nat → Prop) (R : Option Match → Prop) (found : Option Match) : Prop :=
  ∀ m, found = some m → S m.stop → l.Clean m.nodes → R (some (m.shift l.shift))

/-- What a choice finds it finds in the outer text, if it is clean. -/
def Passes (R : Option Found → Prop) (found : Option Found) : Prop :=
  (∀ f ∈ found, l.Clean f.nodes) → R (found.map (.shift l.shift))

variable {l}

theorem Alike.moves {R : Option Match → Prop} {found : Option Match} (h : l.Alike R found) :
    l.Moves R found := fun _ => h

theorem Moves.matches {R : Option Match → Prop} {found : Option Match} (h : l.Moves R found)
    (S : Nat → Prop) : l.MovesIf S R found := by
  rintro m rfl - hclean
  exact h (by rintro _ ⟨⟩; exact hclean)

theorem Comes.mono {α : Type} {stop : α → Nat} {R T T' : Option α → Prop} (h : l.Comes stop R T i)
    (hT : ∀ found, (∀ a ∈ found, i ≤ stop a ∧ stop a ≤ l.inner.size) → T found → T' found) :
    l.Comes stop R T' i := by
  obtain ⟨found, hR, hin, hfound⟩ := h
  exact ⟨found, hR, hin, hT found hin hfound⟩

/-! ### Entries -/

section

variable {entry : Entry} {entries : List Entry} {use : Option TypeUse} {c : Checker}
  {T T' : Option Match → Prop}

theorem Yields.nil (hi : i ≤ l.inner.size) :
    l.Yields (Reads l.inner [] i) (fun found => found = some ⟨i, []⟩) i :=
  ⟨_, .nil, by rintro m ⟨⟩; exact ⟨Nat.le_refl i, hi⟩, rfl⟩

theorem Yields.cons (h : l.Yields (Repeats l.inner entry 0 i) T i)
    (h' : ∀ m, i ≤ m.stop → m.stop ≤ l.inner.size → T (some m) →
      l.Yields (Reads l.inner entries m.stop) (fun later => T' (later.map (.after m.nodes))) m.stop)
    (hnone : T none → T' none) : l.Yields (Reads l.inner (entry :: entries) i) T' i := by
  obtain ⟨found, hR, hin, hT⟩ := h
  cases found with
  | none => exact ⟨none, .stuck hR, by rintro m ⟨⟩, hnone hT⟩
  | some m =>
    obtain ⟨hle, hsize⟩ := hin m rfl
    obtain ⟨later, hlater, hlaterIn, hT'⟩ := h' m hle hsize hT
    refine ⟨_, .cons hR hlater, fun m' hm' => ?_, hT'⟩
    obtain ⟨last, hlast, rfl⟩ := Option.map_eq_some_iff.mp hm'
    exact ⟨Nat.le_trans hle (hlaterIn last hlast).1, (hlaterIn last hlast).2⟩

theorem Yields.last (h : l.Yields (Repeats l.inner entry 0 i) T i) :
    l.Yields (Reads l.inner [entry] i) T i := by
  obtain ⟨found, hR, hin, hT⟩ := h
  exact ⟨found, .last hR, hin, hT⟩

/-- An entry that repeats at most once. -/
theorem Yields.once (hi : i ≤ l.inner.size) (hupper : entry.quantifier.upper = some 1)
    (h : l.Yields (Attempts l.inner entry i) T i)
    (hT : ∀ found, T found →
      T' (if entry.quantifier.lower = 0 then some (found.getD ⟨i, []⟩) else found)) :
    l.Yields (Repeats l.inner entry 0 i) T' i := by
  obtain ⟨found, hR, hin, hfound⟩ := h
  refine ⟨_, .once hupper hR, fun m hm => ?_, hT found hfound⟩
  split at hm
  · obtain rfl := Option.some.inj hm
    cases found with
    | none => exact ⟨Nat.le_refl i, hi⟩
    | some m => exact hin m rfl
  · exact hin m hm

/-- An entry that may repeat for ever takes steps until there is none, or one that takes nothing. -/
theorem chain_yields {T : Nat → Option Match → Prop} (hlower : entry.quantifier.lower = 0)
    (hupper : entry.quantifier.upper = none)
    (h : ∀ j, i ≤ j → j ≤ l.inner.size → l.Yields (Attempts l.inner entry j) (T j) j)
    (hi : i ≤ l.inner.size) (repeats : Nat) :
    l.Yields (Repeats l.inner entry repeats i) (fun found => ∃ j nodes, found = some ⟨j, nodes⟩ ∧
      (T j none ∧ Chain (fun j m => T j (some m) ∧ m.stop ≤ l.inner.size) i nodes j ∨
        ∃ m, T j (some m) ∧ m.stop = j)) i := by
  have hopen (repeats : Nat) : entry.quantifier.isFull repeats = false := by
    simp only [Quantifier.isFull, hupper]
  suffices hleft : ∀ left j repeats, i ≤ j → j + left = l.inner.size →
      ∃ k nodes, Repeats l.inner entry repeats j (some ⟨k, nodes⟩) ∧ j ≤ k ∧ k ≤ l.inner.size ∧
        (T k none ∧ Chain (fun j m => T j (some m) ∧ m.stop ≤ l.inner.size) j nodes k ∨
          ∃ m, T k (some m) ∧ m.stop = k) by
    obtain ⟨k, nodes, hR, hle, hk, hout⟩ :=
      hleft (l.inner.size - i) i repeats (Nat.le_refl i) (by omega)
    refine ⟨_, hR, ?_, k, nodes, rfl, hout⟩
    rintro m ⟨⟩
    exact ⟨hle, hk⟩
  intro left
  induction left using Nat.strong_induction_on with
  | _ left ih =>
  intro j repeats hij hleft
  obtain ⟨found, hR, hin, hT⟩ := h j hij (by omega)
  cases found with
  | none =>
    have hmissed := Repeats.missed (hopen repeats) hR
    rw [if_neg (by omega)] at hmissed
    exact ⟨j, [], hmissed, Nat.le_refl j, by omega, .inl ⟨hT, .nil j⟩⟩
  | some m =>
    obtain ⟨hle, hsize⟩ := hin m rfl
    by_cases hstop : m.stop = j
    · obtain ⟨stop, nodes⟩ := m
      subst hstop
      exact ⟨_, nodes, .stayed (hopen repeats) hR, Nat.le_refl _, hsize, .inr ⟨_, hT, rfl⟩⟩
    · obtain ⟨k, nodes, hlater, hmk, hk, hout⟩ :=
        ih (l.inner.size - m.stop) (by omega) m.stop (repeats + 1) (by omega) (by omega)
      refine ⟨k, _, .more (hopen repeats) hR hstop hlater, by omega, hk, ?_⟩
      rcases hout with ⟨hnone, hchain⟩ | hstay
      · exact .inl ⟨hnone, .cons ⟨hT, hsize⟩ (by omega) hchain⟩
      · exact .inr hstay

/-- The same for an entry that always takes something. -/
theorem many_yields {T : Nat → Option Match → Prop} (hlower : entry.quantifier.lower = 0)
    (hupper : entry.quantifier.upper = none)
    (h : ∀ j, i ≤ j → j ≤ l.inner.size → l.Yields (Attempts l.inner entry j) (T j) j)
    (hprogress : ∀ j m, T j (some m) → j < m.stop) (hi : i ≤ l.inner.size) (repeats : Nat) :
    l.Yields (Repeats l.inner entry repeats i) (fun found => ∃ j nodes,
      found = some ⟨j, nodes⟩ ∧ T j none ∧
      Chain (fun j m => T j (some m) ∧ m.stop ≤ l.inner.size) i nodes j) i := by
  refine (chain_yields hlower hupper h hi repeats).mono fun found _ hfound => ?_
  obtain ⟨j, nodes, rfl, hout⟩ := hfound
  rcases hout with hout | ⟨m, hT, hstop⟩
  · exact ⟨j, nodes, rfl, hout⟩
  · exact absurd (hprogress j m hT) (by omega)

/-- Steps that move to the outer text, each if its nodes are clean and it ends where it may. -/
theorem chain_moves {S : Nat → Prop} {R T : Nat → Match → Prop} {j : Nat} {nodes : List Node}
    (h : Chain R i nodes j) (hS : ∀ j k, j ≤ k → S k → S j)
    (hstep : ∀ j m, R j m → j < m.stop → S m.stop → l.Clean m.nodes →
      T (j + l.shift) (m.shift l.shift))
    (hj : S j) (hclean : l.Clean nodes) :
    Chain T (i + l.shift) (Node.shiftAll l.shift nodes) (j + l.shift) := by
  induction h with
  | nil => exact .nil _
  | cons h hlt hlater ih =>
    obtain ⟨hhere, hrest⟩ := AllNodes.append_iff.mp hclean
    rw [Node.shiftAll_append]
    exact .cons (hstep _ _ h hlt (hS _ _ hlater.le hj) hhere) (Nat.add_lt_add_right hlt _)
      (ih hj hrest)

end

end Inlay

end Pattern

end TextGrammar
