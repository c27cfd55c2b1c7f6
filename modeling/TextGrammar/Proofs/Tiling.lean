/-
Nodes that lie side by side. The nodes of a match tile what was matched: the
first starts where the match starts, each starts where the one before it ended,
the last ends where the match ends, and only a match of no characters has no
nodes at all. The children of a node tile the node in the same way, unless it
has none.
-/
import TextGrammar.Proofs.Outcomes

namespace TextGrammar

mutual

/-- The node starts no later than it ends, and its children, if it has any, tile it. -/
def Node.Tiled : Node → Prop
  | ⟨_, _, _, start, stop, children⟩ =>
    start ≤ stop ∧ (children = [] ∨ Node.Tile start stop children)

/-- The nodes, each of them tiled, lie side by side from `start` up to `stop`. -/
def Node.Tile : (start stop : Nat) → List Node → Prop
  | start, stop, [] => start = stop
  | start, stop, node :: nodes =>
    node.start = start ∧ Node.Tiled node ∧ Node.Tile node.stop stop nodes

end

mutual

/-- The node and all below it lie in a text of this size. -/
def Node.inText (size : Nat) : Node → Bool
  | ⟨_, _, _, start, stop, children⟩ =>
    decide (start ≤ stop) && decide (stop ≤ size) && Node.allInText size children

def Node.allInText (size : Nat) : List Node → Bool
  | [] => true
  | node :: nodes => Node.inText size node && Node.allInText size nodes

end

namespace Node

theorem Tiled.le : ∀ {node : Node}, node.Tiled → node.start ≤ node.stop
  | ⟨_, _, _, _, _, _⟩, h => h.1

namespace Tile

variable {start middle stop : Nat} {nodes : List Node}

theorem le (h : Tile start stop nodes) : start ≤ stop := by
  induction nodes generalizing start with
  | nil => exact Nat.le_of_eq h
  | cons node nodes ih =>
    obtain ⟨rfl, htiled, hrest⟩ := h
    exact Nat.le_trans htiled.le (ih hrest)

theorem append {later : List Node} (h : Tile start middle nodes) (hlater : Tile middle stop later) :
    Tile start stop (nodes ++ later) := by
  induction nodes generalizing start with
  | nil =>
    obtain rfl : start = middle := h
    exact hlater
  | cons node nodes ih => exact ⟨h.1, h.2.1, ih h.2.2⟩

/-- A node alone tiles its own span. -/
theorem single {name typeName param : Option String} {children : List Node} (hle : start ≤ stop)
    (h : children = [] ∨ Tile start stop children) :
    Tile start stop [⟨name, typeName, param, start, stop, children⟩] :=
  ⟨rfl, ⟨hle, h⟩, rfl⟩

theorem each (h : Tile start stop nodes) :
    ∀ node ∈ nodes, node.Tiled ∧ start ≤ node.start ∧ node.stop ≤ stop := by
  induction nodes generalizing start with
  | nil => exact fun _ hnode => nomatch hnode
  | cons node nodes ih =>
    obtain ⟨rfl, htiled, hrest⟩ := h
    refine List.forall_mem_cons.mpr ⟨⟨htiled, Nat.le_refl _, hrest.le⟩, fun n hn => ?_⟩
    obtain ⟨htiled', hstart, hstop⟩ := ih hrest n hn
    exact ⟨htiled', Nat.le_trans htiled.le hstart, hstop⟩

end Tile

mutual

/-- A tiled node lies in the text as soon as it ends there. -/
theorem Tiled.inText {size : Nat} : ∀ {node : Node}, node.Tiled → node.stop ≤ size →
    node.inText size = true
  | ⟨_, _, _, start, stop, children⟩, h, hstop => by
    have hchildren : Node.allInText size children = true := by
      rcases h.2 with rfl | hchildren
      · rfl
      · exact Tile.allInText hchildren hstop
    have hle : start ≤ stop := h.1
    have hstop : stop ≤ size := hstop
    simp only [Node.inText, hle, hstop, hchildren, decide_true, Bool.and_true]

theorem Tile.allInText {size : Nat} : ∀ {start stop : Nat} {nodes : List Node},
    Tile start stop nodes → stop ≤ size → Node.allInText size nodes = true
  | _, _, [], _, _ => rfl
  | _, _, node :: nodes, h, hstop => by
    have hnode := Tiled.inText h.2.1 (Nat.le_trans h.2.2.le hstop)
    simp only [Node.allInText, hnode, Tile.allInText h.2.2 hstop, Bool.and_true]

end

end Node

/-! ## Matches -/

/-- The match ends in the text, at its end if it has to, and its nodes tile what was matched. -/
structure Match.Tiles (size : Nat) (mode : Mode) (offset : Nat) (m : Match) : Prop where
  within : m.stop ≤ size
  nodes : Node.Tile offset m.stop m.nodes
  whole : mode = .whole → m.stop = size

/-- The match of a checker ends in the text. It has nodes that tile it, or it is one of those that
get a node of their own, and may have no nodes. -/
structure Found.Tiles (size offset : Nat) (found : Found) : Prop where
  start : offset ≤ found.stop
  within : found.stop ≤ size
  nodes : found.nodes = [] ∧ found.built = false ∨ Node.Tile offset found.stop found.nodes

/-- A match that comes with its nodes. -/
theorem Node.Tile.found {size start stop : Nat} {nodes : List Node} (h : Node.Tile start stop nodes)
    (hstop : stop ≤ size) : (⟨stop, nodes, true⟩ : Found).Tiles size start :=
  ⟨h.le, hstop, .inr h⟩

theorem Match.Tiles.found {size offset : Nat} {mode : Mode} {m : Match}
    (h : m.Tiles size mode offset) : m.found.Tiles size offset :=
  h.nodes.found h.within

theorem Found.Tiles.longer {size offset : Nat} {a b : Option Found}
    (ha : ∀ found, a = some found → found.Tiles size offset)
    (hb : ∀ found, b = some found → found.Tiles size offset) :
    ∀ found, TextGrammar.longer a b = some found → found.Tiles size offset :=
  fun found h => (eq_or_eq_of_further h).elim (ha found) (hb found)

/-! ## Columns -/

/-- The nodes of columns tile what the columns take together. -/
theorem Region.nodes_tile {size : Nat} {regions : List Region} {start : Nat}
    (h : ∀ span ∈ Region.layout size start regions, span.1 ≤ span.2) :
    Node.Tile start (lastStop start (Region.layout size start regions))
      (Region.nodes regions (Region.layout size start regions)) := by
  induction regions generalizing start with
  | nil => rfl
  | cons region regions ih =>
    rw [Region.layout] at h ⊢
    obtain ⟨hle, hrest⟩ := List.forall_mem_cons.mp h
    rw [lastStop_cons]
    exact ⟨rfl, ⟨hle, .inl rfl⟩, ih hrest⟩

end TextGrammar
