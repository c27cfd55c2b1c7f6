/-
Searches that start later. What lies so many characters later in a text is the
same with every offset in it moved: nodes, what has been completed so far, the
sessions and snapshots of a search, and the failure it reports. Every move of a
search takes a moved state to the moved state.
-/
import TextGrammar.Search.Machine

namespace TextGrammar

/-! ## Nodes at other offsets -/

mutual

/-- The node in a text where everything stands so much later. -/
def Node.shift (n : Nat) : Node → Node
  | ⟨name, typeName, param, start, stop, children⟩ =>
    ⟨name, typeName, param, start + n, stop + n, Node.shiftAll n children⟩

def Node.shiftAll (n : Nat) : List Node → List Node
  | [] => []
  | node :: nodes => Node.shift n node :: Node.shiftAll n nodes

end

def Match.shift (n : Nat) (m : Match) : Match := ⟨m.stop + n, Node.shiftAll n m.nodes⟩

def Found.shift (n : Nat) (f : Found) : Found :=
  ⟨f.stop + n, Node.shiftAll n f.nodes, f.built⟩

section

variable (n : Nat) (node : Node)

@[simp] theorem Node.shift_start : (node.shift n).start = node.start + n := by cases node; rfl

@[simp] theorem Node.shift_stop : (node.shift n).stop = node.stop + n := by cases node; rfl

@[simp] theorem Node.shift_name : (node.shift n).name = node.name := by cases node; rfl

@[simp] theorem Node.shift_typeName : (node.shift n).typeName = node.typeName := by cases node; rfl

@[simp] theorem Node.shift_param : (node.shift n).param = node.param := by cases node; rfl

end

mutual

theorem Node.shift_zero : ∀ node : Node, node.shift 0 = node
  | ⟨_, _, _, _, _, children⟩ => by rw [Node.shift, Node.shiftAll_zero children]; rfl

theorem Node.shiftAll_zero : ∀ nodes : List Node, Node.shiftAll 0 nodes = nodes
  | [] => rfl
  | node :: nodes => by rw [Node.shiftAll, Node.shift_zero node, Node.shiftAll_zero nodes]

end

@[simp] theorem Node.length_shiftAll (n : Nat) (nodes : List Node) :
    (Node.shiftAll n nodes).length = nodes.length := by
  induction nodes with
  | nil => rfl
  | cons node nodes ih => simp only [Node.shiftAll, List.length_cons, ih]

theorem Node.shiftAll_append (n : Nat) (nodes later : List Node) :
    Node.shiftAll n (nodes ++ later) = Node.shiftAll n nodes ++ Node.shiftAll n later := by
  induction nodes with
  | nil => rfl
  | cons node nodes ih => simp only [List.cons_append, Node.shiftAll, ih]

theorem Node.shiftAll_reverse (n : Nat) (nodes : List Node) :
    Node.shiftAll n nodes.reverse = (Node.shiftAll n nodes).reverse := by
  induction nodes with
  | nil => rfl
  | cons node nodes ih => simp only [List.reverse_cons, Node.shiftAll_append, ih, Node.shiftAll]

theorem Match.shift_zero (m : Match) : m.shift 0 = m := by
  simp only [Match.shift, Node.shiftAll_zero, Nat.add_zero]

theorem longer_shift (n : Nat) (a b : Option Found) :
    longer (a.map (.shift n)) (b.map (.shift n)) = (longer a b).map (.shift n) :=
  further_map (fun _ _ => Nat.add_lt_add_iff_right) a b

theorem Region.nodes_shift (n : Nat) (regions : List Region) (spans : List (Nat × Nat)) :
    Region.nodes regions (spans.map fun span => (span.1 + n, span.2 + n)) =
      Node.shiftAll n (Region.nodes regions spans) := by
  induction regions generalizing spans with
  | nil => rfl
  | cons region regions ih =>
    cases spans with
    | nil => rfl
    | cons span spans => exact congrArg (_ :: ·) (ih spans)

theorem lastStop_shift (n offset : Nat) (spans : List (Nat × Nat)) :
    lastStop (offset + n) (spans.map fun span => (span.1 + n, span.2 + n)) =
      lastStop offset spans + n := by
  simp only [lastStop, List.getLast?_map]
  cases spans.getLast? <;> rfl

theorem Entry.untypedNodes_shift (n : Nat) (entry : Entry) (start : Nat) (found : Found) :
    entry.untypedNodes (start + n) (found.shift n) =
      Node.shiftAll n (entry.untypedNodes start found) := by
  obtain ⟨stop, nodes, built⟩ := found
  simp only [Entry.untypedNodes, Found.shift]
  split
  · split <;> rfl
  · cases built <;> rfl

theorem Entry.typedNode_shift (n : Nat) (entry : Entry) (start : Nat) (found : Found)
    (use : TypeUse) :
    entry.typedNode (start + n) (found.shift n) use = (entry.typedNode start found use).shift n :=
  rfl

/-! ## States at other offsets -/

def Trail.shift (n : Nat) (trail : Trail) : Trail :=
  ⟨Node.shiftAll n trail.newestFirst, trail.count,
    trail.count_eq.trans (Node.length_shiftAll n trail.newestFirst).symm⟩

theorem Trail.shift_zero (trail : Trail) : trail.shift 0 = trail :=
  eq_of_newestFirst (Node.shiftAll_zero trail.newestFirst)

@[simp] theorem Trail.toList_shift (n : Nat) (trail : Trail) :
    (trail.shift n).toList = Node.shiftAll n trail.toList :=
  (Node.shiftAll_reverse n trail.newestFirst).symm

theorem Trail.shift_pushAll (n : Nat) (trail : Trail) (nodes : List Node) :
    (trail.pushAll nodes).shift n = (trail.shift n).pushAll (Node.shiftAll n nodes) := by
  induction nodes generalizing trail with
  | nil => rfl
  | cons node nodes ih => exact ih (trail.push node)

def Failure.shift (n : Nat) (failure : Failure) : Failure :=
  { failure with offset := failure.offset + n }

theorem furthest_shift (n : Nat) (a b : Option Failure) :
    furthest (a.map (.shift n)) (b.map (.shift n)) = (furthest a b).map (.shift n) :=
  further_map (fun _ _ => Nat.add_lt_add_iff_right) a b

def Session.shift (n : Nat) (session : Session) : Session :=
  { session with start := session.start + n, nodes := session.nodes.shift n }

def Snapshot.shift (n : Nat) (snapshot : Snapshot) : Snapshot :=
  { snapshot with
    sessions := snapshot.sessions.map (Session.shift n)
    offset := snapshot.offset + n }

namespace Machine

/-- The state so much later in a text, with the checkers kept there. -/
def shift (n : Nat) (checkers : List ((String × Option String) × Checker))
    (m : Machine (Option Failure)) : Machine (Option Failure) where
  sessions := m.sessions.map (Session.shift n)
  snapshots := m.snapshots.map (Snapshot.shift n)
  offset := m.offset + n
  forced := m.forced
  failures := m.failures.map (Failure.shift n)
  checkers

variable (n : Nat) (kept : List ((String × Option String) × Checker))
  (m : Machine (Option Failure))

@[simp] theorem shift_offset : (m.shift n kept).offset = m.offset + n := rfl

@[simp] theorem shift_checkers : (m.shift n kept).checkers = kept := rfl

theorem shift_start (g : Grammar) (offset : Nat) :
    (Machine.start g offset).shift n [] = Machine.start g (offset + n) := by
  simp only [Machine.shift, Machine.start, List.map_toArray, List.map_nil]
  rfl

theorem shift_zero : m.shift 0 m.checkers = m := by
  have hsession : Session.shift 0 = id := by
    funext session
    simp only [Session.shift, Trail.shift_zero, Nat.add_zero, id_eq]
  have hsnapshot : Snapshot.shift 0 = id := by
    funext snapshot
    simp only [Snapshot.shift, hsession, List.map_id, Nat.add_zero, id_eq]
  have hfailure : Failure.shift 0 = id := rfl
  simp only [Machine.shift, hsession, hsnapshot, hfailure, List.map_id, Array.map_id,
    Option.map_id_fun, Nat.add_zero, id_eq]

theorem shift_scopes : (m.shift n kept).scopes = m.scopes.map (Trail.shift n) := by
  simp only [Machine.scopes, Machine.shift, List.map_map]
  rfl

/-! ## Moves -/

theorem shift_advance : (m.shift n kept).advance = m.advance.shift n kept := by
  obtain ⟨sessions, snapshots, offset, forced, failures, checkers⟩ := m
  cases sessions <;> rfl

theorem shift_accept (start stop : Nat) (nodes : List Node) :
    (m.shift n kept).accept (start + n) (stop + n) (Node.shiftAll n nodes) =
      (m.accept start stop nodes).shift n kept := by
  obtain ⟨sessions, snapshots, offset, forced, failures, checkers⟩ := m
  have hempty : (start + n == stop + n) = (start == stop) := by
    rw [Bool.eq_iff_iff, beq_iff_eq, beq_iff_eq, Nat.add_right_cancel_iff]
  cases sessions with
  | nil =>
    simp only [Machine.accept, hempty]
    split <;> rfl
  | cons top below =>
    have hpush : ((top.nodes.pushAll nodes).shift n) = _ := Trail.shift_pushAll n top.nodes nodes
    simp only [Machine.accept, Machine.shift, List.map_cons, Session.shift, hempty, ← hpush]
    split <;> rfl

theorem shift_save (action : Action) :
    (m.shift n kept).save action = (m.save action).shift n kept := by
  simp only [Machine.save, Machine.shift, Array.map_push]
  rfl

theorem shift_enter (g : Grammar) (use : Option TypeUse) :
    (m.shift n kept).enter g use = (m.enter g use).shift n kept := by
  simp only [Machine.enter, Machine.save, Machine.shift, Array.map_push, Array.size_map]
  rfl

theorem shift_record (failures : Option Failure) :
    (m.shift n kept).record (failures.map (Failure.shift n)) =
      (m.record failures).shift n kept := by
  simp only [Machine.record, Machine.shift, FailureLog.merge, furthest_shift]

theorem shift_close (barrier : Option Nat) :
    (m.shift n kept).close barrier = (m.close barrier).shift n kept := by
  cases barrier with
  | none => rfl
  | some place =>
    simp only [Machine.close, Machine.shift]
    congr 1
    refine Array.ext (by simp) fun i hi _ => ?_
    simp only [Array.getElem_modify, Array.getElem_map]
    split <;> rfl

theorem shift_resume (snapshot : Snapshot) :
    (m.shift n kept).resume (snapshot.shift n) =
      (m.resume snapshot).map (Machine.shift n kept) := by
  obtain ⟨sessions, offset, forced, action⟩ := snapshot
  cases action with
  | exhausted => rfl
  | oneMore => rfl
  | passOver =>
    rcases sessions with _ | ⟨⟨_ | ⟨entry, rest⟩, repeats, start, nodes, barrier, use⟩, below⟩
    · rfl
    · rfl
    · simp only [Machine.resume, Snapshot.shift, List.map_cons, Session.shift]
      split
      · rfl
      · rfl

theorem shift_backtrackIn (count : Nat) :
    (m.shift n kept).backtrackIn count = (m.backtrackIn count).map (Machine.shift n kept) := by
  induction count generalizing m with
  | zero => rfl
  | succ count ih =>
    have hback : (m.shift n kept).snapshots.back? = m.snapshots.back?.map (Snapshot.shift n) := by
      simp only [Machine.shift, Array.back?_map]
    have hpop : ({ m.shift n kept with snapshots := (m.shift n kept).snapshots.pop } :
        Machine (Option Failure)) = { m with snapshots := m.snapshots.pop }.shift n kept := by
      simp only [Machine.shift, Array.map_pop]
    simp only [Machine.backtrackIn, hback, hpop]
    cases m.snapshots.back? with
    | none => rfl
    | some snapshot =>
      simp only [Option.map_some, shift_resume]
      cases Machine.resume _ snapshot with
      | none => exact ih _
      | some next => rfl

theorem shift_backtrack :
    (m.shift n kept).backtrack = m.backtrack.map (Machine.shift n kept) := by
  simp only [Machine.backtrack, ← shift_backtrackIn, Machine.shift, Array.size_map]

end Machine

/-! ## Texts that end alike -/

namespace Text

/-- The second text is what the first has after so many characters. -/
structure Tail (n : Nat) (text tail : Text) : Prop where
  size : text.size = tail.size + n
  char : ∀ i, text[i + n]? = tail[i]?

namespace Tail

variable {n : Nat} {text tail : Text}

theorem refl (text : Text) : Tail 0 text text := ⟨rfl, fun _ => rfl⟩

theorem eq_of_zero (h : Tail 0 text tail) : text = tail := Array.ext_getElem? h.char

theorem drop (text : Text) (h : n ≤ text.size) : Tail n text (text.slice n text.size) where
  size := by
    simp only [slice, Array.size_extract]
    omega
  char i := by
    simp only [slice, Array.getElem?_extract, Nat.min_self]
    split
    · rw [Nat.add_comm]
    · rw [Array.getElem?_eq_none (by omega)]

theorem hasAt (h : Tail n text tail) (offset : Nat) (cs : List Char) :
    text.hasAt (offset + n) cs = tail.hasAt offset cs := by
  induction cs generalizing offset with
  | nil => rfl
  | cons c cs ih => simp only [Text.hasAt, h.char, Nat.add_right_comm offset n 1, ih]

theorem slice (h : Tail n text tail) (start stop : Nat) :
    text.slice (start + n) (stop + n) = tail.slice start stop := by
  have hsize := h.size
  refine Array.ext_getElem? fun i => ?_
  simp only [Text.slice, Array.getElem?_extract]
  by_cases hi : i < min stop tail.size - start
  · rw [if_pos hi, if_pos (by omega), Nat.add_right_comm, h.char]
  · rw [if_neg hi, if_neg (by omega)]

/-- A part of the text from its beginning ends like the same part of its tail. -/
theorem beginning (h : Tail n text tail) {stop : Nat} (hstop : stop ≤ tail.size) :
    Tail n (text.slice 0 (stop + n)) (tail.slice 0 stop) where
  size := by
    have hsize := h.size
    simp only [Text.slice, Array.size_extract]
    omega
  char i := by
    have hsize := h.size
    simp only [Text.slice, Array.getElem?_extract, Nat.zero_add, Nat.sub_zero]
    by_cases hi : i < min stop tail.size
    · rw [if_pos hi, if_pos (by omega), h.char]
    · rw [if_neg hi, if_neg (by omega)]

theorem string (h : Tail n text tail) (node : Node) (index : Nat) :
    (⟨text, node.shift n, index⟩ : NodeRef).string = (⟨tail, node, index⟩ : NodeRef).string := by
  simp only [NodeRef.string, NodeRef.chars, Node.shift_start, Node.shift_stop, h.slice]

end Tail

end Text

end TextGrammar
