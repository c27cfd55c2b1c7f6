/-
Reading a pattern inside another one. The nodes of the inner text of an inlay
stand for the same in the outer one, moved there: whatever can be read from
them there is read from them here as well.
-/
import Mathlib.Data.List.Forall2
import TextGrammar.Proofs.PatternErrors
import TextGrammar.Proofs.PatternInlay

namespace TextGrammar.Pattern

variable {α β : Type}

/-! ## Results -/

/-- A result of the first one is one of the second. -/
def Rereads (x y : Except GrammarError α) : Prop := ∀ a, x = .ok a → y = .ok a

namespace Rereads

theorem same (x : Except GrammarError α) : Rereads x x := fun _ h => h

theorem error (e : GrammarError) (y : Except GrammarError α) : Rereads (.error e) y := by
  rintro a ⟨⟩

theorem bind {x y : Except GrammarError α} {f g : α → Except GrammarError β} (h : Rereads x y)
    (hf : ∀ a, Rereads (f a) (g a)) : Rereads (x >>= f) (y >>= g) := by
  intro b hb
  cases x with
  | error e => cases hb
  | ok a =>
    rw [h a rfl]
    exact hf a b hb

end Rereads

namespace Inlay

variable {l : Inlay}

/-! ## Nodes -/

/-- A node of the inner text, and the same node in the outer one. -/
structure Copies (l : Inlay) (ref copy : NodeRef) : Prop where
  inside : Inside l.inner ref
  text : copy.text = l.outer
  node : copy.node = ref.node.shift l.shift

theorem Copies.of_inside {node : Node} (h : Inside l.inner (inText l.inner node)) :
    l.Copies (inText l.inner node) (inText l.outer (node.shift l.shift)) := ⟨h, rfl, rfl⟩

section

variable {ref copy : NodeRef}

theorem Copies.start (h : l.Copies ref copy) : copy.node.start = ref.node.start + l.shift := by
  rw [h.node, Node.shift_start]

theorem Copies.stop (h : l.Copies ref copy) : copy.node.stop = ref.node.stop + l.shift := by
  rw [h.node, Node.shift_stop]

theorem Copies.name (h : l.Copies ref copy) : copy.node.name = ref.node.name := by
  rw [h.node, Node.shift_name]

theorem Copies.typeName (h : l.Copies ref copy) : copy.node.typeName = ref.node.typeName := by
  rw [h.node, Node.shift_typeName]

theorem Copies.length (h : l.Copies ref copy) : copy.node.length = ref.node.length := by
  rw [Node.length, h.start, h.stop, Nat.add_sub_add_right, Node.length]

theorem slice_shift {start stop : Nat} (hstop : stop ≤ l.inner.size) :
    l.outer.slice (start + l.shift) (stop + l.shift) = l.inner.slice start stop := by
  have hget (i : Nat) (hi : i < l.inner.size) : i + l.shift < l.outer.size := by
    have hsame := (l.same i hi).trans (Array.getElem?_eq_getElem hi)
    exact (Array.getElem?_eq_some_iff.mp hsame).1
  refine Array.ext_getElem? fun i => ?_
  simp only [Text.slice, Array.getElem?_extract]
  by_cases hi : start + i < stop
  · have hinner : start + i < l.inner.size := Nat.lt_of_lt_of_le hi hstop
    have houter := hget _ hinner
    rw [if_pos (by omega), if_pos (by omega), Nat.add_right_comm]
    exact l.same _ hinner
  · rw [if_neg (by omega), if_neg (by omega)]

theorem Copies.chars (h : l.Copies ref copy) : copy.chars = ref.chars := by
  rw [NodeRef.chars, NodeRef.chars, h.text, h.start, h.stop, slice_shift h.inside.sits.stop,
    h.inside.1]

theorem Copies.string (h : l.Copies ref copy) : copy.string = ref.string := by
  rw [NodeRef.string, NodeRef.string, h.chars]

theorem copies_zip {nodes : List Node} (h : AllInside l.inner nodes) (index : Nat) :
    List.Forall₂ l.Copies ((nodes.zipIdx index).map fun entry => ⟨l.inner, entry.1, entry.2⟩)
      (((Node.shiftAll l.shift nodes).zipIdx index).map fun entry =>
        ⟨l.outer, entry.1, entry.2⟩) := by
  induction nodes generalizing index with
  | nil => exact .nil
  | cons node nodes ih => exact .cons ⟨⟨rfl, h.head.2⟩, rfl, rfl⟩ (ih h.tail (index + 1))

theorem Copies.children (h : l.Copies ref copy) :
    List.Forall₂ l.Copies ref.children copy.children := by
  obtain ⟨text, ⟨name, typeName, param, start, stop, children⟩, index⟩ := ref
  obtain ⟨text', node', index'⟩ := copy
  obtain ⟨⟨rfl, hinside⟩, rfl, rfl⟩ := h
  exact copies_zip (fun n hn => hinside n (List.mem_cons_of_mem _ hn)) 0

/-- The first node of a kind is the same. -/
theorem find_copies {refs copies : List NodeRef} (h : List.Forall₂ l.Copies refs copies)
    {p : NodeRef → Bool} (hp : ∀ {ref copy}, l.Copies ref copy → p copy = p ref) :
    Option.Rel l.Copies (refs.find? p) (copies.find? p) := by
  induction h with
  | nil => exact .none
  | cons h _ ih =>
    rw [List.find?_cons, List.find?_cons, hp h]
    split
    · exact .some h
    · exact ih

theorem Copies.child? (h : l.Copies ref copy) (name : String) :
    Option.Rel l.Copies (ref.child? name) (copy.child? name) :=
  find_copies h.children fun hcopy => by rw [hcopy.name]

theorem Copies.typedChild? (h : l.Copies ref copy) (name : String) :
    Option.Rel l.Copies (ref.typedChild? name) (copy.typedChild? name) :=
  find_copies h.children fun hcopy => by rw [hcopy.typeName]

mutual

/-- What is below a node is copied with it. -/
theorem below_copies : ∀ {node : Node}, Inside l.inner (inText l.inner node) →
    List.Forall₂ l.Copies (NodeRef.below l.inner node)
      (NodeRef.below l.outer (node.shift l.shift))
  | ⟨_, _, _, _, _, _⟩, h => belowAll_copies 0 h.children

theorem belowAll_copies (index : Nat) : ∀ {nodes : List Node}, AllInside l.inner nodes →
    List.Forall₂ l.Copies (NodeRef.belowAll l.inner index nodes)
      (NodeRef.belowAll l.outer index (Node.shiftAll l.shift nodes))
  | [], _ => .nil
  | _ :: _, h => .cons ⟨⟨rfl, h.head.2⟩, rfl, rfl⟩
      (List.rel_append (below_copies h.head) (belowAll_copies (index + 1) h.tail))

end

theorem Copies.descendants (h : l.Copies ref copy) :
    List.Forall₂ l.Copies ref.descendants copy.descendants := by
  obtain ⟨text, node, index⟩ := ref
  obtain ⟨text', node', index'⟩ := copy
  obtain ⟨⟨rfl, hinside⟩, rfl, rfl⟩ := h
  exact below_copies ⟨rfl, hinside⟩

theorem filter_copies {refs copies : List NodeRef} (h : List.Forall₂ l.Copies refs copies)
    {p : NodeRef → Bool} (hp : ∀ {ref copy}, l.Copies ref copy → p copy = p ref) :
    List.Forall₂ l.Copies (refs.filter p) (copies.filter p) := by
  induction h with
  | nil => exact .nil
  | cons h _ ih =>
    rw [List.filter_cons, List.filter_cons, hp h]
    split
    · exact .cons h ih
    · exact ih

end

/-! ## Characters and counts -/

section

variable {vocabulary : Vocabulary} {ref copy : NodeRef}

theorem readEscape_copies (h : l.Copies ref copy) :
    Rereads (readEscape vocabulary ref) (readEscape vocabulary copy) := by
  unfold readEscape
  rw [h.chars]
  dsimp only
  split
  · exact .error _ _
  · split
    · exact .same _
    · exact .error _ _
  · split
    · split
      · exact .same _
      · exact .error _ _
    · split
      · split
        · exact .same _
        · exact .error _ _
      · split
        · simp only [namedClass]
          split
          · exact .same _
          · exact .error _ _
        · exact .error _ _

theorem readQuantifier_copies (h : l.Copies ref copy) :
    Rereads (readQuantifier ref) (readQuantifier copy) := by
  have hgreed := h.child? "greed"
  simp only [readQuantifier, h.chars]
  generalize ref.child? "greed" = greed at hgreed ⊢
  generalize copy.child? "greed" = greed' at hgreed ⊢
  cases hgreed with
  | none =>
    split
    · exact .error _ _
    · exact .same _
  | some hgreed =>
    dsimp only
    rw [hgreed.length, hgreed.string]
    split
    · exact .error _ _
    · split
      · exact .error _ _
      · exact .same _

theorem unquoteFrom_copies (h : l.Copies ref copy) (count pos : Nat) {escapes copies : List NodeRef}
    (hescapes : List.Forall₂ l.Copies escapes copies) :
    Rereads (unquoteFrom vocabulary ref count pos escapes)
      (unquoteFrom vocabulary copy count (pos + l.shift) copies) := by
  induction count generalizing pos escapes copies with
  | zero => exact .same _
  | succ count ih =>
    unfold unquoteFrom
    rw [h.stop]
    by_cases hend : ref.node.stop - 1 ≤ pos
    · rw [if_pos hend, if_pos (by omega)]
      exact .same _
    rw [if_neg hend, if_neg (by omega)]
    have hget : copy.text.getD (pos + l.shift) '\x00' = ref.text.getD pos '\x00' := by
      have hstop := h.inside.sits.stop
      have hpos : pos < l.inner.size := by omega
      rw [h.text, h.inside.1, Array.getD_eq_getD_getElem?, Array.getD_eq_getD_getElem?,
        l.same pos hpos]
    have hplain {others others' : List NodeRef} (hothers : List.Forall₂ l.Copies others others') :
        Rereads (do pure (ref.text.getD pos '\x00' ::
            (← unquoteFrom vocabulary ref count (pos + 1) others)))
          (do pure (copy.text.getD (pos + l.shift) '\x00' ::
            (← unquoteFrom vocabulary copy count (pos + l.shift + 1) others'))) := by
      rw [hget, Nat.add_right_comm]
      exact (ih (pos + 1) hothers).bind fun chars => .same _
    cases hescapes with
    | nil => exact hplain .nil
    | cons hescape hothers =>
      have hstart : ∀ {n m : Nat}, (n + l.shift == m + l.shift) = (n == m) := by
        intro n m
        simp only [Nat.add_left_inj, beq_eq_beq]
      dsimp only
      rw [hescape.start, hstart]
      split
      · refine (readEscape_copies hescape).bind fun escaped => ?_
        cases escaped with
        | char c =>
          dsimp only
          rw [hescape.stop]
          exact (ih _ hothers).bind fun chars => .same _
        | set set => exact .error _ _
      · exact hplain (.cons hescape hothers)

theorem readQuoted_copies (h : l.Copies ref copy) :
    Rereads (readQuoted vocabulary ref) (readQuoted vocabulary copy) := by
  unfold readQuoted
  rw [h.chars]
  split
  · exact .error _ _
  · refine .bind ?_ fun chars => .same _
    rw [h.length, h.start, Nat.add_right_comm]
    exact unquoteFrom_copies h _ _ (filter_copies h.descendants fun hcopy => by rw [hcopy.typeName])

/-! ## References -/

theorem knownType_copies (name : String) (param : Option String) :
    Rereads (knownType vocabulary ref name param) (knownType vocabulary copy name param) := by
  simp only [knownType]
  split
  · exact .same _
  · exact .error _ _

theorem rel_isSome {x y : Option NodeRef} (h : Option.Rel l.Copies x y) : y.isSome = x.isSome := by
  cases h <;> rfl

theorem rel_string {x y : Option NodeRef} (h : Option.Rel l.Copies x y) :
    y.map NodeRef.string = x.map NodeRef.string := by
  cases h with
  | none => rfl
  | some h => exact congrArg some h.string

theorem readTypeRef_copies (h : l.Copies ref copy) :
    Rereads (readTypeRef vocabulary ref) (readTypeRef vocabulary copy) := by
  have hname := h.child? "name"
  unfold readTypeRef
  rw [rel_string (h.child? "param"), rel_isSome (h.child? "capture")]
  generalize ref.child? "name" = name at hname ⊢
  generalize copy.child? "name" = name' at hname ⊢
  cases hname with
  | none => exact .error _ _
  | some hname =>
    dsimp only
    rw [hname.string]
    exact (knownType_copies _ _).bind fun entry => .same _

theorem readBackRef_copies (h : l.Copies ref copy) :
    Rereads (readBackRef vocabulary ref) (readBackRef vocabulary copy) := by
  have hname := h.child? "name"
  unfold readBackRef
  rw [rel_isSome (h.child? "ci")]
  generalize ref.child? "name" = name at hname ⊢
  generalize copy.child? "name" = name' at hname ⊢
  cases hname with
  | none => exact .error _ _
  | some hname =>
    dsimp only
    rw [hname.string]
    exact knownType_copies _ _

/-! ## Sets -/

theorem readSetChar_copies (h : l.Copies ref copy) :
    Rereads (readSetChar vocabulary ref) (readSetChar vocabulary copy) := by
  have hescape := h.typedChild? "escape"
  unfold readSetChar
  rw [h.chars]
  generalize ref.typedChild? "escape" = escape at hescape ⊢
  generalize copy.typedChild? "escape" = escape' at hescape ⊢
  cases hescape with
  | none =>
    dsimp only
    split
    · exact .same _
    · exact .error _ _
  | some hescape => exact readEscape_copies hescape

theorem readRange_copies {lo lo' hi hi' : NodeRef} (hlo : l.Copies lo lo') (hhi : l.Copies hi hi') :
    Rereads (readRange vocabulary ref lo hi) (readRange vocabulary copy lo' hi') := by
  unfold readRange
  refine (readSetChar_copies hlo).bind fun low => (readSetChar_copies hhi).bind fun high => ?_
  split
  · exact .same _
  · exact .error _ _

theorem readPlainItem_copies (h : l.Copies ref copy) :
    Rereads (readPlainItem vocabulary ref) (readPlainItem vocabulary copy) := by
  have hlo := h.child? "from"
  have hhi := h.child? "to"
  have hchar := h.typedChild? "setChar"
  unfold readPlainItem
  generalize ref.child? "from" = lo at hlo ⊢
  generalize copy.child? "from" = lo' at hlo ⊢
  generalize ref.child? "to" = hi at hhi ⊢
  generalize copy.child? "to" = hi' at hhi ⊢
  generalize ref.typedChild? "setChar" = char at hchar ⊢
  generalize copy.typedChild? "setChar" = char' at hchar ⊢
  cases hlo <;> cases hhi
  case some.some hlo _ _ hhi => exact readRange_copies hlo hhi
  all_goals
    cases hchar with
    | none => exact .error _ _
    | some hchar => exact (readSetChar_copies hchar).bind fun escaped => .same _

end

theorem any_name_shift (n : Nat) (nodes : List Node) (name : String) :
    (Node.shiftAll n nodes).any (·.name == some name) = nodes.any (·.name == some name) := by
  induction nodes with
  | nil => rfl
  | cons node nodes ih =>
    rw [Node.shiftAll, List.any_cons, List.any_cons, ih, Node.shift_name]

section

variable {vocabulary : Vocabulary}

mutual

theorem readSet_copies : ∀ {node : Node}, Inside l.inner (inText l.inner node) →
    Rereads (readSet vocabulary l.inner node) (readSet vocabulary l.outer (node.shift l.shift))
  | ⟨_, _, _, _, _, children⟩, h => by
    rw [Node.shift]
    unfold readSet
    rw [any_name_shift]
    exact .bind (readItems_copies h.children) fun _ => .same _

theorem readItems_copies : ∀ {nodes : List Node}, AllInside l.inner nodes →
    Rereads (readItems vocabulary l.inner nodes)
      (readItems vocabulary l.outer (Node.shiftAll l.shift nodes))
  | [], _ => .same _
  | ⟨_, _, _, _, _, children⟩ :: nodes, h => by
    rw [Node.shiftAll, Node.shift]
    unfold readItems
    split
    · exact readParts_copies h.head.children
    · exact readItems_copies h.tail

theorem readParts_copies : ∀ {nodes : List Node}, AllInside l.inner nodes →
    Rereads (readParts vocabulary l.inner nodes)
      (readParts vocabulary l.outer (Node.shiftAll l.shift nodes))
  | [], _ => .same _
  | ⟨_, _, _, _, _, children⟩ :: nodes, h => by
    rw [Node.shiftAll, Node.shift]
    unfold readParts
    split
    · exact .bind (readMembers_copies h.head.children) fun _ =>
        .bind (readParts_copies h.tail) fun _ => .same _
    · exact readParts_copies h.tail

theorem readMembers_copies : ∀ {nodes : List Node}, AllInside l.inner nodes →
    Rereads (readMembers vocabulary l.inner nodes)
      (readMembers vocabulary l.outer (Node.shiftAll l.shift nodes))
  | [], _ => .same _
  | ⟨_, _, _, _, _, children⟩ :: nodes, h => by
    have hplain : Rereads (readPlainItem vocabulary _) (readPlainItem vocabulary _) :=
      readPlainItem_copies (Copies.of_inside h.head)
    rw [Node.shiftAll]
    rw [Node.shift] at hplain ⊢
    unfold readMembers
    split
    · exact .bind (readNestedSet_copies hplain h.head.children) fun _ =>
        .bind (readMembers_copies h.tail) fun _ => .same _
    · exact readMembers_copies h.tail

theorem readNestedSet_copies {plain plain' : Except GrammarError CharSet} : ∀ {nodes : List Node},
    Rereads plain plain' → AllInside l.inner nodes →
      Rereads (readNestedSet vocabulary l.inner plain nodes)
        (readNestedSet vocabulary l.outer plain' (Node.shiftAll l.shift nodes))
  | [], hplain, _ => hplain
  | node :: nodes, hplain, h => by
    rw [Node.shiftAll]
    unfold readNestedSet
    rw [Node.shift_typeName]
    split
    · exact readSet_copies h.head
    · exact readNestedSet_copies hplain h.tail

end

/-! ## Bodies -/

theorem readElement_copies {ref copy : NodeRef} (h : l.Copies ref copy) (q : Quantifier) :
    Rereads (readElement vocabulary ref q) (readElement vocabulary copy q) := by
  unfold readElement
  rw [h.typeName, h.chars]
  split
  · exact .bind (readTypeRef_copies h) fun _ => .same _
  · exact .bind (readBackRef_copies h) fun _ => .same _
  · exact .bind (readQuoted_copies h) fun _ => .same _
  · exact .bind (readEscape_copies h) fun _ => .same _
  · exact .same _

mutual

theorem readBody_copies : ∀ {node : Node}, Inside l.inner (inText l.inner node) →
    Rereads (readBody vocabulary l.inner node) (readBody vocabulary l.outer (node.shift l.shift))
  | ⟨_, _, _, _, _, children⟩, h => by
    rw [Node.shift]
    unfold readBody
    exact .bind (readSegments_copies h.children) fun _ => .same _

theorem readSegments_copies : ∀ {nodes : List Node}, AllInside l.inner nodes →
    Rereads (readSegments vocabulary l.inner nodes)
      (readSegments vocabulary l.outer (Node.shiftAll l.shift nodes))
  | [], _ => .same _
  | ⟨_, _, _, start, stop, children⟩ :: nodes, h => by
    have hslice : l.outer.slice (start + l.shift) (stop + l.shift) = l.inner.slice start stop :=
      (Copies.of_inside h.head).chars
    rw [Node.shiftAll, Node.shift]
    unfold readSegments
    rw [hslice]
    split
    · exact .bind (readPieces_copies h.head.children) fun _ =>
        .bind (readSegments_copies h.tail) fun _ => .same _
    · split
      · exact .bind (readSegments_copies h.tail) fun _ => .same _
      · exact readSegments_copies h.tail

theorem readPieces_copies : ∀ {nodes : List Node}, AllInside l.inner nodes →
    Rereads (readPieces vocabulary l.inner nodes)
      (readPieces vocabulary l.outer (Node.shiftAll l.shift nodes))
  | [], _ => .same _
  | ⟨name, typeName, param, start, stop, children⟩ :: nodes, h => by
    have hquantifier := (Copies.of_inside h.head).typedChild? "quantifier"
    rw [Node.shiftAll]
    rw [Node.shift] at hquantifier ⊢
    unfold readPieces
    split
    · dsimp only
      generalize NodeRef.typedChild? _ "quantifier" = q at hquantifier ⊢
      generalize NodeRef.typedChild? _ "quantifier" = q' at hquantifier ⊢
      cases hquantifier with
      | none =>
        exact .bind (.same _) fun q => .bind (readItem_copies h.head.children q) fun _ =>
          .bind (readPieces_copies h.tail) fun _ => .same _
      | some hq =>
        exact .bind (readQuantifier_copies hq) fun q =>
          .bind (readItem_copies h.head.children q) fun _ =>
            .bind (readPieces_copies h.tail) fun _ => .same _
    · exact readPieces_copies h.tail

theorem readItem_copies {missing missing' : GrammarError} : ∀ {nodes : List Node},
    AllInside l.inner nodes → ∀ q, Rereads (readItem vocabulary l.inner missing q nodes)
      (readItem vocabulary l.outer missing' q (Node.shiftAll l.shift nodes))
  | [], _, _ => .error _ _
  | node :: nodes, h, q => by
    rw [Node.shiftAll]
    unfold readItem
    rw [Node.shift_typeName]
    split
    · exact readItem_copies h.tail q
    · split
      · exact .bind (readGroup_copies h.head) fun _ => .same _
      · split
        · exact .bind (readSet_copies h.head) fun _ => .same _
        · exact readElement_copies (Copies.of_inside h.head) q

theorem readGroup_copies : ∀ {node : Node}, Inside l.inner (inText l.inner node) →
    Rereads (readGroup vocabulary l.inner node) (readGroup vocabulary l.outer (node.shift l.shift))
  | ⟨_, _, _, _, _, children⟩, h => by
    have hcopies := Copies.of_inside h
    rw [Node.shift] at hcopies ⊢
    unfold readGroup
    dsimp only
    rw [rel_isSome (hcopies.child? "not")]
    refine .bind (readInner_copies h.children) fun body => ?_
    refine .bind (readSecond_copies h.children) fun second => ?_
    have hkind := hcopies.child? "kind"
    have hname := hcopies.child? "name"
    generalize NodeRef.child? _ "kind" = kind at hkind ⊢
    generalize NodeRef.child? _ "kind" = kind' at hkind ⊢
    generalize NodeRef.child? _ "name" = name at hname ⊢
    generalize NodeRef.child? _ "name" = name' at hname ⊢
    cases second <;>
    · refine .bind (.same _) fun entry => ?_
      cases hkind with
      | none => exact .same _
      | some hkind =>
        cases hname with
        | none => exact .same _
        | some hname =>
          dsimp only
          rw [hkind.string, hname.string]
          exact .same _

theorem readInner_copies {unclosed unclosed' : GrammarError} : ∀ {nodes : List Node},
    AllInside l.inner nodes → Rereads (readInner vocabulary l.inner unclosed nodes)
      (readInner vocabulary l.outer unclosed' (Node.shiftAll l.shift nodes))
  | [], _ => .error _ _
  | node :: nodes, h => by
    rw [Node.shiftAll]
    unfold readInner
    rw [Node.shift_typeName, Node.shift_name]
    split
    · exact readBody_copies h.head
    · exact readInner_copies h.tail

theorem readSecond_copies : ∀ {nodes : List Node}, AllInside l.inner nodes →
    Rereads (readSecond vocabulary l.inner nodes)
      (readSecond vocabulary l.outer (Node.shiftAll l.shift nodes))
  | [], _ => .same _
  | node :: nodes, h => by
    rw [Node.shiftAll]
    unfold readSecond
    rw [Node.shift_name]
    split
    · exact .bind (readBody_copies h.head) fun _ => .same _
    · exact readSecond_copies h.tail

end

end

end Inlay

end TextGrammar.Pattern
