/-
States of a search whose nodes lie side by side. The nodes of the innermost
session tile what was matched since it was opened, up to the current offset;
those of the session around it tile what was matched before that, and so on out
to the start of the search. A snapshot holds the same for the offset saved with
it, so that a failure leads back to a state of this kind.
-/
import TextGrammar.Proofs.States
import TextGrammar.Proofs.TiledAttempts

namespace TextGrammar

variable {L : Type} {size start offset middle stop : Nat}

/-! ## Sessions -/

/-- The nodes of the sessions tile the text from `start` up to `stop`, and what is left of their
grammars is built by the constructors. -/
def Session.Tile (start : Nat) : (stop : Nat) → List Session → Prop
  | stop, [] => stop = start
  | stop, session :: below =>
    Entry.EveryOf (fun _ => True) Region.AreColumns session.rest ∧
      Node.Tile session.start stop session.nodes.toList ∧ Session.Tile start session.start below

namespace Session.Tile

variable {sessions below : List Session}

theorem le (h : Session.Tile start stop sessions) : start ≤ stop := by
  induction sessions generalizing stop with
  | nil => exact Nat.le_of_eq h.symm
  | cons session below ih =>
    obtain ⟨_, hnodes, hbelow⟩ := h
    exact Nat.le_trans (ih hbelow) hnodes.le

/-- Sessions are opened before the offset, and their nodes are tiled and end before it. -/
theorem each (h : Session.Tile start stop sessions) : ∀ session ∈ sessions,
    session.start ≤ stop ∧ ∀ node ∈ session.nodes.toList, node.Tiled ∧ node.stop ≤ stop := by
  induction sessions generalizing stop with
  | nil => exact fun _ hsession => nomatch hsession
  | cons session below ih =>
    obtain ⟨_, hnodes, hbelow⟩ := h
    have hle := hnodes.le
    refine List.forall_mem_cons.mpr ⟨⟨hle, fun node hnode => ?_⟩, fun other hother => ?_⟩
    · obtain ⟨htiled, _, hstop⟩ := hnodes.each node hnode
      exact ⟨htiled, hstop⟩
    · obtain ⟨hstart, hother⟩ := ih hbelow other hother
      refine ⟨Nat.le_trans hstart hle, fun node hnode => ?_⟩
      obtain ⟨htiled, hstop⟩ := hother node hnode
      exact ⟨htiled, Nat.le_trans hstop hle⟩

/-- Nodes that tile what follows are added to the innermost session. -/
theorem push {session : Session} {nodes : List Node} {repeats : Nat}
    (h : Session.Tile start middle (session :: below)) (hnodes : Node.Tile middle stop nodes) :
    Session.Tile start stop ({ session with nodes := session.nodes.pushAll nodes, repeats } :: below)
    := by
  obtain ⟨hrest, htile, hbelow⟩ := h
  exact ⟨hrest, (Trail.toList_pushAll session.nodes nodes).symm ▸ htile.append hnodes, hbelow⟩

theorem tail {session : Session} {repeats : Nat} (h : Session.Tile start stop (session :: below)) :
    Session.Tile start stop ({ session with rest := session.rest.tail, repeats } :: below) := by
  obtain ⟨hrest, htile, hbelow⟩ := h
  refine ⟨?_, htile, hbelow⟩
  obtain ⟨rest, _, _, _, _, _⟩ := session
  cases rest with
  | nil => trivial
  | cons entry rest => exact hrest.2

end Session.Tile

/-- The nodes of the sessions tile the text up to the offset, which lies in it. -/
abbrev Session.TileWithin (size start offset : Nat) (sessions : List Session) : Prop :=
  offset ≤ size ∧ Session.Tile start offset sessions

theorem Session.tileWithin_closed : Session.Closed (Session.TileWithin size start) :=
  fun _ _ _ h => ⟨h.1, h.2.tail⟩

/-! ## States -/

/-- Checkers that types gave are built by the constructors. -/
abbrev Checker.GivenBuilt (kept : List ((String × Option String) × Checker)) : Prop :=
  ∀ given ∈ kept, given.2.Every (fun _ => True) Region.AreColumns

namespace Machine

/-- All of the text up to the current offset is tiled by the nodes of the search, now and wherever
it comes back to. -/
abbrev Tidy (size start : Nat) (m : Machine L) : Prop :=
  m.Holds (Session.TileWithin size start) Checker.GivenBuilt

variable {m : Machine L}

theorem Tidy.within (h : m.Tidy size start) : m.offset ≤ size := h.sessions.1

theorem Tidy.tile (h : m.Tidy size start) : Session.Tile start m.offset m.sessions := h.sessions.2

theorem tidy_start [FailureLog L] {g : Grammar} (built : g.Built) (h : offset ≤ size) :
    (Machine.start g offset : Machine L).Tidy size offset where
  saved _ hmem := absurd hmem (Array.not_mem_empty _)
  checkers _ hmem := nomatch hmem
  sessions := by
    cases g
    exact ⟨h, built, rfl, rfl⟩

/-- The nodes around an attempt end before it. -/
theorem inner_fits {setting : Setting} (fits : setting.Fits start)
    (hstop : stop ≤ setting.text.size) (h : Session.Tile start stop m.sessions) :
    (m.inner setting).Fits stop where
  types := fits.types
  size := fits.size
  start := hstop
  outer trail htrail node hnode := by
    rcases List.mem_append.mp htrail with htrail | htrail
    · obtain ⟨session, hsession, rfl⟩ := List.mem_map.mp htrail
      exact (h.each session hsession).2 node hnode
    · obtain ⟨htiled, hle⟩ := fits.outer trail htrail node hnode
      exact ⟨htiled, Nat.le_trans hle h.le⟩

end Machine

/-- What a step comes to: a state of this kind, or a match that tiles what it takes. -/
abbrev Step.Tidy (size : Nat) (mode : Mode) (start : Nat) : Step L → Prop :=
  Step.Holds (Session.TileWithin size start) Checker.GivenBuilt (·.Tiles size mode start)

end TextGrammar
