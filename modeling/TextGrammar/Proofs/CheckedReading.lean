/-
Patterns read with care. What a pattern is compiled to is read from the nodes of
its tree: their spans are cut out of the text, a length is taken from another
one, and a literal is gone through until it is used up. Here all this is written
so that it can go wrong: a span that is none of the text and a length that is
too short are faults, and so is a literal that is not used up in the rounds
allowed. No pattern comes to a fault: reading it in this way comes to what
compiling it does, in all numbers of rounds from its length on.
-/
import TextGrammar.Proofs.BackReferences
import TextGrammar.Proofs.PatternTrees

namespace TextGrammar

namespace Pattern

open Inlay (Sound)

/-! ## Results -/

/-- Why reading a pattern ends without a result: the pattern is wrong, or the reading is. -/
inductive Halt where
  | error (e : GrammarError)
  | fault (f : Fault)

variable {α β : Type}

/-- Something that is read without a fault. -/
def faultless (x : Except GrammarError α) : Except Halt α := x.mapError .error

/-- What is read with care is what is read without. -/
def Checks (checked : Except Halt α) (x : Except GrammarError α) : Prop := checked = faultless x

namespace Checks

theorem ok {a : α} : Checks (.ok a) (.ok a) := rfl

theorem pure {a : α} : Checks (Pure.pure a) (Pure.pure a) := rfl

theorem error {e : GrammarError} : Checks (.error (.error e)) (.error e : Except GrammarError α) :=
  rfl

theorem bind {x' : Except Halt α} {x : Except GrammarError α} {f' : α → Except Halt β}
    {f : α → Except GrammarError β} (h : Checks x' x) (hf : ∀ a, Checks (f' a) (f a)) :
    Checks (x' >>= f') (x >>= f) := by
  obtain rfl := h
  cases x with
  | ok a => exact hf a
  | error e => rfl

end Checks

/-! ## Spans and characters -/

section

variable (ref : NodeRef)

/-- The characters of a span, which has to be one of the text. -/
def charsChecked : Except Halt Text :=
  if ref.node.start ≤ ref.node.stop ∧ ref.node.stop ≤ ref.text.size then .ok ref.chars
  else .error (.fault .outOfRange)

def stringChecked : Except Halt String := do pure (← charsChecked ref).string

/-- The length of a span, which must not end before it starts. -/
def lengthChecked : Except Halt Nat :=
  if ref.node.start ≤ ref.node.stop then .ok (ref.node.stop - ref.node.start)
  else .error (.fault .outOfRange)

/-- A quantifier, whose sign of greediness must not be longer than the quantifier. -/
def quantifierChecked : Except Halt Quantifier := do
  let chars := (← charsChecked ref).toList
  let greed := ref.child? "greed"
  let width ← match greed with
    | some g => lengthChecked g
    | none => pure 0
  if width ≤ chars.length then
    match bareQuantifier? (chars.take (chars.length - width)) with
    | none => throw (.error (malformed "Malformed quantifier" ref))
    | some q =>
      match greed with
      | none => pure q
      | some g =>
        if q.isZero then
          throw (.error (malformed "Zero quantifier cannot take a greediness marker" g))
        else do
          let sign ← stringChecked g
          pure (q.withGreediness (if sign == "+" then .maximum else .minimum))
  else throw (.fault .outOfRange)

variable (vocabulary : Vocabulary)

/-- An escape, by the characters of its span. -/
def escapeChecked : Except Halt Escaped := do
  let _ ← charsChecked ref
  faultless (readEscape vocabulary ref)

/-- The escape that begins at a place. Of several the last one is kept. -/
def escapeAt? (escapes : List NodeRef) (pos : Nat) : Option NodeRef :=
  escapes.reverse.find? (·.node.start == pos)

/-- The characters of a literal from a place on, with its escapes resolved, whatever the order of
these is. In each round a character or an escape is read. -/
def unquoteChecked (escapes : List NodeRef) : (rounds pos : Nat) → Except Halt (List Char)
  | 0, pos => if ref.node.stop - 1 ≤ pos then .ok [] else .error (.fault .outOfFuel)
  | rounds + 1, pos =>
    if ref.node.stop - 1 ≤ pos then .ok []
    else
      match escapeAt? escapes pos with
      | some escape => do
        match ← escapeChecked escape vocabulary with
        | .char c => pure (c :: (← unquoteChecked escapes rounds escape.node.stop))
        | .set _ => throw (.error (.malformedAt "Character class inside a literal" ref.text pos))
      | none =>
        match ref.text[pos]? with
        | some c => do pure (c :: (← unquoteChecked escapes rounds (pos + 1)))
        | none => throw (.fault .outOfRange)

/-- The quote of a literal and the characters between its quotes. -/
def quotedChecked (rounds : Nat) : Except Halt (Char × List Char) := do
  match (← charsChecked ref).toList with
  | [] => throw (.error (malformed "Unterminated literal" ref))
  | quote :: _ => do
    let escapes := ref.descendants.filter (·.node.typeName == some "escape")
    pure (quote, ← unquoteChecked ref vocabulary escapes rounds (ref.node.start + 1))

/-! ## References and items of sets -/

/-- A reference to a type. -/
def typeRefChecked : Except Halt Entry :=
  match ref.child? "name" with
  | none => .error (.error (malformed "Malformed type reference" ref))
  | some name => do
    let called ← stringChecked name
    let param ← match ref.child? "param" with
      | some param => do pure (some (← stringChecked param))
      | none => pure none
    let entry ← faultless (knownType vocabulary ref called param)
    pure (if (ref.child? "capture").isSome then entry.named called else entry)

/-- A reference to captured text. -/
def backRefChecked : Except Halt Entry :=
  match ref.child? "name" with
  | none => .error (.error (malformed "Malformed back-reference" ref))
  | some name => do
    let type := if (ref.child? "ci").isSome then "backrefCI" else "backref"
    faultless (knownType vocabulary ref type (some (← stringChecked name)))

/-- A character of a set, or a class standing for one. -/
def setCharChecked : Except Halt Escaped :=
  match ref.typedChild? "escape" with
  | some escape => escapeChecked escape vocabulary
  | none => do
    match (← charsChecked ref)[0]? with
    | some c => pure (.char c)
    | none => throw (.error (malformed "Malformed character set" ref))

/-- An item of a set that holds no set itself. -/
def plainItemChecked : Except Halt CharSet :=
  match ref.child? "from", ref.child? "to" with
  | some lo, some hi => do
    match ← setCharChecked lo vocabulary, ← setCharChecked hi vocabulary with
    | .char a, .char b => pure (.between a b)
    | _, _ => throw (.error (malformed "Character class used as a range bound" ref))
  | _, _ =>
    match ref.typedChild? "setChar" with
    | none => .error (.error (malformed "Malformed character set" ref))
    | some char => do
      match ← setCharChecked char vocabulary with
      | .char c => pure (.single c)
      | .set set => pure set

/-- An element that holds no body and no set. -/
def elementChecked (rounds : Nat) (q : Quantifier) : Except Halt Piece :=
  if ref.node.typeName = some "typeRef" then do
    pure (.entry ((← typeRefChecked ref vocabulary).quantified q))
  else if ref.node.typeName = some "backRef" then do
    pure (.entry ((← backRefChecked ref vocabulary).quantified q))
  else if ref.node.typeName = some "quoted" then do
    let (quote, chars) ← quotedChecked ref vocabulary rounds
    if quote == '\x60' then
      pure (.entry ((Entry.ref "textCI" (some (String.ofList chars))).quantified q))
    else pure (literalPiece chars q)
  else if ref.node.typeName = some "escape" then do
    match ← escapeChecked ref vocabulary with
    | .char c =>
      if q.isOne then pure (.literal [c])
      else pure (.entry ((Entry.ofChecker (.single c)).quantified q))
    | .set set => pure (.entry ((Entry.ofChecker (.char set)).quantified q))
  else do
    let chars := (← charsChecked ref).toList
    if chars == ['.'] then pure (.entry (dotEntry q)) else pure (literalPiece chars q)

end

/-! ## Nodes -/

section

variable (vocabulary : Vocabulary) (rounds : Nat) (text : Text)

mutual

/-- A character set. -/
def setChecked : Node → Except Halt CharSet
  | ⟨_, _, _, _, _, children⟩ => do
    let parts ← itemsChecked children
    let set := match parts with
      | [part] => part
      | parts => CharSet.interOf parts
    let negated := children.any (·.name == some "negate")
    pure (if negated then .complement set.simplify else set.simplify)

/-- The parts of a set, from the node that holds its items. -/
def itemsChecked : List Node → Except Halt (List CharSet)
  | [] => .ok []
  | ⟨_, typeName, _, _, _, children⟩ :: nodes =>
    if typeName == some "setItems" then partsChecked children else itemsChecked nodes

/-- Parts that are to be intersected. -/
def partsChecked : List Node → Except Halt (List CharSet)
  | [] => .ok []
  | ⟨name, _, _, _, _, children⟩ :: nodes =>
    if name == some "part" then do
      let members ← membersChecked children
      let parts ← partsChecked nodes
      pure (.unionOf members :: parts)
    else partsChecked nodes

/-- Items that are to be united. -/
def membersChecked : List Node → Except Halt (List CharSet)
  | [] => .ok []
  | ⟨name, typeName, param, start, stop, children⟩ :: nodes =>
    if typeName == some "setItem" then do
      let plain := plainItemChecked
        (inText text ⟨name, typeName, param, start, stop, children⟩) vocabulary
      let item ← nestedSetChecked plain children
      let items ← membersChecked nodes
      pure (item :: items)
    else membersChecked nodes

/-- The set an item holds, or the item without one. -/
def nestedSetChecked (plain : Except Halt CharSet) : List Node → Except Halt CharSet
  | [] => plain
  | node :: nodes =>
    if node.typeName == some "charSet" then setChecked node else nestedSetChecked plain nodes

end

mutual

/-- A body. -/
def bodyChecked : Node → Except Halt Body
  | ⟨_, _, _, _, _, children⟩ => do
    let (first, others) ← segmentsChecked children
    pure (.ofSequences (first :: others))

/-- The sequences of the current segment, and the segments after it. -/
def segmentsChecked : List Node → Except Halt (List (List Entry) × List (List (List Entry)))
  | [] => .ok ([], [])
  | ⟨name, typeName, param, start, stop, children⟩ :: nodes =>
    if typeName == some "sequence" then do
      let pieces ← piecesChecked children
      let (sequences, segments) ← segmentsChecked nodes
      pure (entriesOf [] pieces :: sequences, segments)
    else if name == some "sep" then do
      let sep ← charsChecked (inText text ⟨name, typeName, param, start, stop, children⟩)
      if sep.toList == ['|', '|'] then do
        let (sequences, segments) ← segmentsChecked nodes
        pure ([], sequences :: segments)
      else segmentsChecked nodes
    else segmentsChecked nodes

/-- The items of a sequence. -/
def piecesChecked : List Node → Except Halt (List Piece)
  | [] => .ok []
  | ⟨name, typeName, param, start, stop, children⟩ :: nodes =>
    if typeName == some "item" then do
      let ref := inText text ⟨name, typeName, param, start, stop, children⟩
      let q ← match ref.typedChild? "quantifier" with
        | some q => quantifierChecked q
        | none => .ok .one
      let piece ← itemChecked (malformed "Missing element" ref) q children
      let pieces ← piecesChecked nodes
      pure (piece :: pieces)
    else piecesChecked nodes

/-- The element of an item, which is the first of its nodes but for the quantifier. -/
def itemChecked (missing : GrammarError) (q : Quantifier) : List Node → Except Halt Piece
  | [] => .error (.error missing)
  | node :: nodes =>
    if node.typeName == some "quantifier" then itemChecked missing q nodes
    else if node.typeName == some "group" then do
      pure (.entry ((← groupChecked node).quantified q))
    else if node.typeName == some "charSet" then do
      pure (.entry ((Entry.ofChecker (.char (← setChecked vocabulary text node))).quantified q))
    else elementChecked (inText text node) vocabulary rounds q

/-- A group. -/
def groupChecked : Node → Except Halt Entry
  | ⟨name, typeName, param, start, stop, children⟩ => do
    let ref := inText text ⟨name, typeName, param, start, stop, children⟩
    let body ← innerChecked (malformed "Unclosed group" ref) children
    let entry :=
      if (ref.child? "not").isSome then Entry.ofChecker (.not body.checker) else body.entry
    let entry ← do
      match ← secondChecked children with
      | some g => pure (entry.withSecondary g)
      | none => pure entry
    match ref.child? "kind", ref.child? "name" with
    | some kind, some name => do
      let kind ← stringChecked kind
      let name ← stringChecked name
      pure (if kind == "$" then entry.flatNamed name else entry.named name)
    | _, _ => pure entry

/-- The body of a group. -/
def innerChecked (unclosed : GrammarError) : List Node → Except Halt Body
  | [] => .error (.error unclosed)
  | node :: nodes =>
    if node.typeName == some "body" && node.name.isNone then bodyChecked node
    else innerChecked unclosed nodes

/-- The secondary body of a group. -/
def secondChecked : List Node → Except Halt (Option Grammar)
  | [] => .ok none
  | node :: nodes =>
    if node.name == some "second" then do
      pure (some (← bodyChecked node).grammar)
    else secondChecked nodes

end

/-- The first body among the nodes of a pattern. -/
def firstChecked : List Node → Except Halt Body
  | [] => .ok (.sequence [])
  | node :: nodes =>
    if node.typeName == some "body" then bodyChecked vocabulary rounds text node
    else firstChecked nodes

end

/-! ## Spans of the nodes of a pattern -/

variable {vocabulary : Vocabulary} {text : Text} {ref : NodeRef}

theorem Inside.chars_checked (h : Inside text ref) : charsChecked ref = pure ref.chars :=
  if_pos ⟨h.sits.start, h.1 ▸ h.sits.stop⟩

theorem Inside.string_checked (h : Inside text ref) : stringChecked ref = pure ref.string := by
  rw [stringChecked, h.chars_checked, pure_bind]
  rfl

theorem Inside.length_checked (h : Inside text ref) : lengthChecked ref = pure ref.node.length :=
  if_pos h.sits.start

/-- What a node holds is no longer than the node. -/
theorem Inside.child_length (h : Inside text ref) {child : NodeRef} (hchild : child ∈ ref.children) :
    child.node.length ≤ ref.chars.toList.length := by
  obtain ⟨hstart, hstop⟩ := h.sits.children child.node (node_mem_children hchild).2
  have hend : ref.node.stop ≤ ref.text.size := h.1 ▸ h.sits.stop
  rw [NodeRef.chars, Text.slice, Array.length_toList, Array.size_extract, Node.length]
  omega

theorem quantifier_checks (h : Inside text ref) :
    Checks (quantifierChecked ref) (readQuantifier ref) := by
  unfold quantifierChecked readQuantifier
  rw [h.chars_checked, pure_bind]
  cases hgreed : ref.child? "greed" with
  | none =>
    dsimp only
    rw [pure_bind, if_pos (Nat.zero_le _)]
    cases bareQuantifier? (ref.chars.toList.take (ref.chars.toList.length - 0)) <;> rfl
  | some g =>
    have hg : Inside text g := h.child? hgreed
    have hwidth : g.node.length ≤ ref.chars.toList.length :=
      h.child_length (List.mem_of_find?_eq_some hgreed)
    dsimp only
    rw [hg.length_checked, pure_bind, if_pos hwidth, hg.string_checked]
    cases bareQuantifier? (ref.chars.toList.take (ref.chars.toList.length - g.node.length)) with
    | none => rfl
    | some q =>
      dsimp only
      cases q.isZero <;> rfl

theorem escape_checks (h : Inside text ref) :
    Checks (escapeChecked ref vocabulary) (readEscape vocabulary ref) := by
  rw [escapeChecked, h.chars_checked, pure_bind]
  rfl

/-! ## Literals -/

/-- A literal without errors is made of its quotes, and characters and escapes between them. -/
theorem Inside.literal (h : Inside text ref) (htype : ref.node.typeName = some "quoted")
    (hsound : Sound ref.node.children) :
    Inlay.IsLiteral ref.node.start ref.node.stop ref.node.children := by
  obtain ⟨need, built, htakes⟩ := (h.sits.type "quoted" htype).taken _ quoted
    ⟨rfl, rfl, fun _ => rfl, fun _ _ => rfl⟩
  let whole : Inlay :=
    ⟨⟨fun _ => false, .standard⟩, text, text, 0, fun _ _ => rfl, fun c hc => by
      rw [Nat.add_zero, Array.getElem?_eq_none (Nat.le_refl _)] at hc
      cases hc⟩
  obtain ⟨found, hfound, -, -, hliteral⟩ := Inlay.quoted_picks (l := whole) h.start
  obtain rfl := hfound.unique ⟨need, htakes⟩
  exact (hliteral _ rfl).2.2 hsound

/-- Of escapes in order the one that begins at the place is found, if there is one. -/
theorem escapeAt?_append {before later : List NodeRef} {pos : Nat}
    (hbefore : ∀ escape ∈ before, escape.node.start < pos)
    (hlater : ∀ escape ∈ later, pos < escape.node.start) :
    escapeAt? (before ++ later) pos = none ∧
      ∀ escape, escape.node.start = pos →
        escapeAt? (before ++ escape :: later) pos = some escape := by
  have hnone : (later.reverse.find? (·.node.start == pos)) = none :=
    List.find?_eq_none.mpr fun escape hescape => by
      have hlt := hlater escape (List.mem_reverse.mp hescape)
      simp only [beq_iff_eq]
      omega
  have hnone' : (before.reverse.find? (·.node.start == pos)) = none :=
    List.find?_eq_none.mpr fun escape hescape => by
      have hlt := hbefore escape (List.mem_reverse.mp hescape)
      simp only [beq_iff_eq]
      omega
  refine ⟨?_, fun escape hstart => ?_⟩
  · rw [escapeAt?, List.reverse_append, List.find?_append, hnone, hnone']
    rfl
  · have hhere : (escape.node.start == pos) = true := beq_iff_eq.mpr hstart
    rw [escapeAt?, List.reverse_append, List.find?_append, List.reverse_cons, List.find?_append,
      hnone, List.find?_cons, hhere]
    rfl

/-- Character by character and escape by escape, in the order of the text, a literal is used up. -/
theorem unquote_checks {i j : Nat} {nodes rest : List Node} (htext : ref.text = text)
    (hstop : ref.node.stop = j + 1) (hsize : j < text.size)
    (h : Chain Inlay.PieceAt i nodes j) (hsound : Sound nodes)
    (hrest : ∀ index, Inlay.escapesIn text index rest = []) (index rounds count : Nat)
    (hinside : ∀ escape ∈ Inlay.escapesIn text index (nodes ++ rest), Inside text escape)
    (hrounds : j ≤ i + rounds) (hcount : j ≤ i + count) (before : List NodeRef)
    (hbefore : ∀ escape ∈ before, escape.node.start < i) :
    Checks (unquoteChecked ref vocabulary (before ++ Inlay.escapesIn text index (nodes ++ rest))
        rounds i)
      (unquoteFrom vocabulary ref count i (Inlay.escapesIn text index (nodes ++ rest))) := by
  induction h generalizing index rounds count before with
  | nil i =>
    have hend : ref.node.stop - 1 ≤ i := by omega
    have hchecked (rounds : Nat) (escapes : List NodeRef) :
        unquoteChecked ref vocabulary escapes rounds i = .ok [] := by
      cases rounds <;> exact if_pos hend
    have hplain (count : Nat) (escapes : List NodeRef) :
        unquoteFrom vocabulary ref count i escapes = .ok [] := by
      cases count with
      | zero => rfl
      | succ count => exact if_pos hend
    rw [hchecked, hplain]
    exact .ok
  | @cons i j m nodes hpiece hlt hchain ih =>
    obtain ⟨hhere, hlater⟩ := AllNodes.append_iff.mp hsound
    have hle := hchain.le
    obtain ⟨rounds, rfl⟩ : ∃ n, rounds = n + 1 := ⟨rounds - 1, by omega⟩
    obtain ⟨count, rfl⟩ : ∃ n, count = n + 1 := ⟨count - 1, by omega⟩
    have hpos : ¬ ref.node.stop - 1 ≤ i := by omega
    have hfrom := Inlay.escapesIn_from hchain hlater hrest (index + 1)
    rw [unquoteChecked, if_neg hpos]
    rcases hpiece with ⟨children, hnodes, huntyped⟩ | rfl
    · rw [hnodes] at hhere
      rw [hnodes, List.append_assoc, List.singleton_append,
        Inlay.escapesIn_escape (huntyped hhere.children)] at hinside ⊢
      obtain ⟨hescape, hinside⟩ := List.forall_mem_cons.mp hinside
      rw [(escapeAt?_append hbefore fun escape hmem => Nat.lt_of_lt_of_le hlt
        (hfrom escape hmem)).2 _ rfl, unquoteFrom, if_neg hpos]
      dsimp only
      rw [if_pos (show ((categoryNode "escape" i m.stop children).start == i) = true from
        beq_self_eq_true i)]
      refine .bind (escape_checks hescape) fun escaped => ?_
      cases escaped with
      | set set => exact htext ▸ .error
      | char c =>
        have hlaterChecks := ih hstop hsize hlater (index + 1) rounds count hinside (by omega)
          (by omega) (before ++ [⟨text, categoryNode "escape" i m.stop children, index⟩])
          (List.forall_mem_append.mpr ⟨fun escape hmem => Nat.lt_trans (hbefore escape hmem) hlt,
            List.forall_mem_singleton.mpr hlt⟩)
        rw [List.append_assoc, List.singleton_append] at hlaterChecks
        exact .bind hlaterChecks fun _ => .pure
    · rw [List.append_assoc, List.singleton_append, Inlay.escapesIn_leaf] at hinside ⊢
      have hget : ref.text[i]? = some (ref.text.getD i '\x00') := by
        have hlt : i < ref.text.size := by
          rw [htext]
          exact Nat.lt_of_lt_of_le hlt (Nat.le_trans hle (Nat.le_of_lt hsize))
        rw [Array.getD_eq_getD_getElem?, Array.getElem?_eq_getElem hlt]
        rfl
      rw [(escapeAt?_append hbefore hfrom).1, hget, Inlay.unquoteFrom_plain hpos hfrom]
      exact .bind (ih hstop hsize hlater (index + 1) rounds count hinside (by omega) (by omega)
        before fun escape hmem => Nat.lt_succ_of_lt (hbefore escape hmem)) fun _ => .pure

/-- In as many rounds as the text has characters every literal is used up. -/
theorem quoted_checks {rounds : Nat} (h : Inside text ref)
    (htype : ref.node.typeName = some "quoted") (hsound : Sound ref.node.children)
    (hrounds : text.size ≤ rounds) :
    Checks (quotedChecked ref vocabulary rounds) (readQuoted vocabulary ref) := by
  obtain ⟨j, nodes, hstop, hchildren, hchain⟩ := h.literal htype hsound
  have hsize : ref.node.stop ≤ text.size := h.sits.stop
  have hescapes : ref.descendants.filter (·.node.typeName == some "escape") =
      Inlay.escapesIn text 1 (nodes ++ [.leaf j ref.node.stop]) := by
    rw [NodeRef.descendants, below_children, h.1, hchildren]
    exact Inlay.escapesIn_leaf
  unfold quotedChecked readQuoted
  rw [h.chars_checked, pure_bind, hescapes]
  cases ref.chars.toList with
  | nil => exact .error
  | cons quote chars =>
    rw [hchildren] at hsound
    have hnodes : Sound nodes := (AllNodes.append_iff.mp (AllNodes.cons_iff.mp hsound).2).1
    refine .bind (unquote_checks h.1 hstop (by omega) hchain hnodes
      (fun _ => Inlay.escapesIn_untyped (.leaf _ _)) 1 rounds ref.node.length
      (fun escape hescape => ?_) (by omega) ?_ [] nofun) fun _ => .pure
    · rw [← hescapes] at hescape
      exact h.descendant (List.mem_of_mem_filter hescape)
    · have hle := hchain.le
      rw [Node.length]
      omega

/-! ## References and sets -/

theorem typeRef_checks (h : Inside text ref) :
    Checks (typeRefChecked ref vocabulary) (readTypeRef vocabulary ref) := by
  unfold typeRefChecked readTypeRef
  cases hname : ref.child? "name" with
  | none => exact .error
  | some name =>
    dsimp only
    rw [(h.child? hname).string_checked, pure_bind]
    cases hparam : ref.child? "param" with
    | none =>
      dsimp only
      rw [pure_bind]
      exact .bind rfl fun _ => .pure
    | some param =>
      dsimp only
      rw [(h.child? hparam).string_checked, pure_bind, pure_bind]
      exact .bind rfl fun _ => .pure

theorem backRef_checks (h : Inside text ref) :
    Checks (backRefChecked ref vocabulary) (readBackRef vocabulary ref) := by
  unfold backRefChecked readBackRef
  cases hname : ref.child? "name" with
  | none => exact .error
  | some name =>
    dsimp only
    rw [(h.child? hname).string_checked, pure_bind]
    rfl

theorem setChar_checks (h : Inside text ref) :
    Checks (setCharChecked ref vocabulary) (readSetChar vocabulary ref) := by
  unfold setCharChecked readSetChar
  cases hescape : ref.typedChild? "escape" with
  | some escape => exact escape_checks (h.typedChild? hescape)
  | none =>
    dsimp only
    rw [h.chars_checked, pure_bind]
    cases ref.chars[0]? with
    | none => exact .error
    | some c => exact .pure

theorem plainItem_checks (h : Inside text ref) :
    Checks (plainItemChecked ref vocabulary) (readPlainItem vocabulary ref) := by
  unfold plainItemChecked readPlainItem
  rcases hlo : ref.child? "from" with _ | lo <;> rcases hhi : ref.child? "to" with _ | hi
  case some.some =>
    dsimp only
    rw [readRange]
    refine .bind (setChar_checks (h.child? hlo)) fun low => ?_
    refine .bind (setChar_checks (h.child? hhi)) fun high => ?_
    cases low <;> cases high
    case char.char => exact .pure
    all_goals exact .error
  all_goals
    dsimp only
    cases hchar : ref.typedChild? "setChar" with
    | none => exact .error
    | some char =>
      refine .bind (setChar_checks (h.typedChild? hchar)) fun escaped => ?_
      cases escaped <;> exact .pure

mutual

theorem set_checks : ∀ {node : Node}, Inside text (inText text node) →
    Checks (setChecked vocabulary text node) (readSet vocabulary text node)
  | ⟨_, _, _, _, _, children⟩, h => by
    unfold setChecked readSet
    exact .bind (items_checks h.children) fun _ => .pure

theorem items_checks : ∀ {nodes : List Node}, AllInside text nodes →
    Checks (itemsChecked vocabulary text nodes) (readItems vocabulary text nodes)
  | [], _ => .ok
  | ⟨_, _, _, _, _, children⟩ :: nodes, h => by
    unfold itemsChecked readItems
    split
    · exact parts_checks h.head.children
    · exact items_checks h.tail

theorem parts_checks : ∀ {nodes : List Node}, AllInside text nodes →
    Checks (partsChecked vocabulary text nodes) (readParts vocabulary text nodes)
  | [], _ => .ok
  | ⟨_, _, _, _, _, children⟩ :: nodes, h => by
    unfold partsChecked readParts
    split
    · exact .bind (members_checks h.head.children) fun _ =>
        .bind (parts_checks h.tail) fun _ => .pure
    · exact parts_checks h.tail

theorem members_checks : ∀ {nodes : List Node}, AllInside text nodes →
    Checks (membersChecked vocabulary text nodes) (readMembers vocabulary text nodes)
  | [], _ => .ok
  | ⟨_, _, _, _, _, children⟩ :: nodes, h => by
    unfold membersChecked readMembers
    split
    · exact .bind (nestedSet_checks (plainItem_checks h.head) h.head.children) fun _ =>
        .bind (members_checks h.tail) fun _ => .pure
    · exact members_checks h.tail

theorem nestedSet_checks {plain' : Except Halt CharSet} {plain : Except GrammarError CharSet} :
    ∀ {nodes : List Node}, Checks plain' plain → AllInside text nodes →
      Checks (nestedSetChecked vocabulary text plain' nodes)
        (readNestedSet vocabulary text plain nodes)
  | [], hplain, _ => hplain
  | node :: nodes, hplain, h => by
    unfold nestedSetChecked readNestedSet
    split
    · exact set_checks h.head
    · exact nestedSet_checks hplain h.tail

end

/-! ## Bodies -/

section

variable {rounds : Nat}

theorem element_checks (h : Inside text ref) (hsound : Sound ref.node.children)
    (hrounds : text.size ≤ rounds) (q : Quantifier) :
    Checks (elementChecked ref vocabulary rounds q) (readElement vocabulary ref q) := by
  unfold elementChecked
  split
  · next htype =>
    rw [readElement, htype]
    exact .bind (typeRef_checks h) fun _ => .pure
  split
  · next htype =>
    rw [readElement, htype]
    exact .bind (backRef_checks h) fun _ => .pure
  split
  · next htype =>
    rw [readElement, htype]
    refine .bind (quoted_checks h htype hsound hrounds) fun r => ?_
    obtain ⟨quote, chars⟩ := r
    dsimp only
    split <;> exact .pure
  split
  · next htype =>
    rw [readElement, htype]
    refine .bind (escape_checks h) fun escaped => ?_
    cases escaped with
    | char c =>
      dsimp only
      split <;> exact .pure
    | set set => exact .pure
  · unfold readElement
    split <;> try contradiction
    rw [h.chars_checked, pure_bind]
    dsimp only
    split <;> exact .pure

mutual

theorem body_checks (hrounds : text.size ≤ rounds) : ∀ {node : Node},
    Inside text (inText text node) → Sound node.children →
      Checks (bodyChecked vocabulary rounds text node) (readBody vocabulary text node)
  | ⟨_, _, _, _, _, children⟩, h, hsound => by
    unfold bodyChecked readBody
    exact .bind (segments_checks hrounds h.children hsound) fun _ => .pure

theorem segments_checks (hrounds : text.size ≤ rounds) : ∀ {nodes : List Node},
    AllInside text nodes → Sound nodes →
      Checks (segmentsChecked vocabulary rounds text nodes) (readSegments vocabulary text nodes)
  | [], _, _ => .ok
  | ⟨name, typeName, param, start, stop, children⟩ :: nodes, h, hsound => by
    obtain ⟨hhere, hlater⟩ := AllNodes.cons_iff.mp hsound
    have hchars : charsChecked (inText text ⟨name, typeName, param, start, stop, children⟩) =
        pure (text.slice start stop) := h.head.chars_checked
    unfold segmentsChecked readSegments
    split
    · exact .bind (pieces_checks hrounds h.head.children hhere.children) fun _ =>
        .bind (segments_checks hrounds h.tail hlater) fun _ => .pure
    · rw [hchars, pure_bind]
      cases name == some "sep" with
      | false => exact segments_checks hrounds h.tail hlater
      | true =>
        cases (text.slice start stop).toList == ['|', '|'] with
        | false => exact segments_checks hrounds h.tail hlater
        | true => exact .bind (segments_checks hrounds h.tail hlater) fun _ => .pure

theorem pieces_checks (hrounds : text.size ≤ rounds) : ∀ {nodes : List Node},
    AllInside text nodes → Sound nodes →
      Checks (piecesChecked vocabulary rounds text nodes) (readPieces vocabulary text nodes)
  | [], _, _ => .ok
  | ⟨name, typeName, param, start, stop, children⟩ :: nodes, h, hsound => by
    obtain ⟨hhere, hlater⟩ := AllNodes.cons_iff.mp hsound
    unfold piecesChecked readPieces
    split
    · dsimp only
      cases hq : (inText text ⟨name, typeName, param, start, stop, children⟩).typedChild?
          "quantifier" with
      | none =>
        exact .bind .ok fun q =>
          .bind (item_checks hrounds h.head.children hhere.children) fun _ =>
            .bind (pieces_checks hrounds h.tail hlater) fun _ => .pure
      | some q =>
        exact .bind (quantifier_checks (h.head.typedChild? hq)) fun q =>
          .bind (item_checks hrounds h.head.children hhere.children) fun _ =>
            .bind (pieces_checks hrounds h.tail hlater) fun _ => .pure
    · exact pieces_checks hrounds h.tail hlater

theorem item_checks {missing : GrammarError} {q : Quantifier} (hrounds : text.size ≤ rounds) :
    ∀ {nodes : List Node}, AllInside text nodes → Sound nodes →
      Checks (itemChecked vocabulary rounds text missing q nodes)
        (readItem vocabulary text missing q nodes)
  | [], _, _ => .error
  | ⟨name, typeName, param, start, stop, children⟩ :: nodes, h, hsound => by
    obtain ⟨hhere, hlater⟩ := AllNodes.cons_iff.mp hsound
    unfold itemChecked readItem
    split
    · exact item_checks hrounds h.tail hlater
    · split
      · exact .bind (group_checks hrounds h.head hhere.children) fun _ => .pure
      · split
        · exact .bind (set_checks h.head) fun _ => .pure
        · exact element_checks h.head hhere.children hrounds q

theorem group_checks (hrounds : text.size ≤ rounds) : ∀ {node : Node},
    Inside text (inText text node) → Sound node.children →
      Checks (groupChecked vocabulary rounds text node) (readGroup vocabulary text node)
  | ⟨name, typeName, param, start, stop, children⟩, h, hsound => by
    unfold groupChecked readGroup
    refine .bind (inner_checks hrounds h.children hsound) fun body => ?_
    refine .bind (second_checks hrounds h.children hsound) fun second => ?_
    cases second <;>
    · refine .bind .pure fun entry => ?_
      rcases hkind : (inText text ⟨name, typeName, param, start, stop, children⟩).child? "kind"
        with _ | kind <;>
      rcases hname : (inText text ⟨name, typeName, param, start, stop, children⟩).child? "name"
        with _ | called
      case some.some =>
        dsimp only
        rw [(h.child? hkind).string_checked, (h.child? hname).string_checked, pure_bind, pure_bind]
        exact .pure
      all_goals exact .pure

theorem inner_checks {unclosed : GrammarError} (hrounds : text.size ≤ rounds) :
    ∀ {nodes : List Node}, AllInside text nodes → Sound nodes →
      Checks (innerChecked vocabulary rounds text unclosed nodes)
        (readInner vocabulary text unclosed nodes)
  | [], _, _ => .error
  | ⟨name, typeName, param, start, stop, children⟩ :: nodes, h, hsound => by
    obtain ⟨hhere, hlater⟩ := AllNodes.cons_iff.mp hsound
    unfold innerChecked readInner
    split
    · exact body_checks hrounds h.head hhere.children
    · exact inner_checks hrounds h.tail hlater

theorem second_checks (hrounds : text.size ≤ rounds) : ∀ {nodes : List Node},
    AllInside text nodes → Sound nodes →
      Checks (secondChecked vocabulary rounds text nodes) (readSecond vocabulary text nodes)
  | [], _, _ => .ok
  | ⟨name, typeName, param, start, stop, children⟩ :: nodes, h, hsound => by
    obtain ⟨hhere, hlater⟩ := AllNodes.cons_iff.mp hsound
    unfold secondChecked readSecond
    split
    · exact .bind (body_checks hrounds h.head hhere.children) fun _ => .pure
    · exact second_checks hrounds h.tail hlater

end

theorem first_checks (hrounds : text.size ≤ rounds) {nodes : List Node}
    (h : AllInside text nodes) (hsound : Sound nodes) :
    Checks (firstChecked vocabulary rounds text nodes) (readFirst vocabulary text nodes) := by
  induction nodes with
  | nil => exact .ok
  | cons node nodes ih =>
    obtain ⟨name, typeName, param, start, stop, children⟩ := node
    obtain ⟨hhere, hlater⟩ := AllNodes.cons_iff.mp hsound
    unfold firstChecked readFirst
    split
    · exact body_checks hrounds h.head hhere.children
    · exact ih h.tail hlater

end

/-! ## Compiling -/

/-- The categories of the pattern language are well formed. -/
theorem patternTypes_built : patternTypes.Built where
  found name type h := by
    have hmem : type ∈ categories :=
      List.mem_of_find?_eq_some (show category? name = some type from h)
    rcases List.mem_append.mp (show type ∈ Builtin.all ++ _ from hmem) with hmem | hmem
    · have hevery := Builtin.every_of_mem_all hmem
      exact ParserType.Every.combine (fun _ _ _ => trivial) (fun _ hc _ => hc.elim) hevery hevery
    · simp only [List.mem_cons, List.not_mem_nil, or_false] at hmem
      rcases hmem with rfl | rfl | rfl | rfl | rfl | rfl | rfl | rfl | rfl | rfl | rfl | rfl | rfl |
        rfl
      all_goals
        intro _ _ _
        trivial
  compiled _ _ h := nomatch h

end Pattern

/-- Compiles a pattern, and reads its tree with care. -/
def TypeRegistry.compileChecked (registry : TypeRegistry) (rounds : Nat) (pattern : String) :
    Except Pattern.Halt Grammar := do
  let tree ← Pattern.faultless (Pattern.readTree pattern)
  let body ← Pattern.firstChecked registry.vocabulary rounds tree.text tree.nodes
  pure body.grammar

/-- **Compiling always comes to an end, and it never goes wrong.** Whatever the registry, every
pattern is matched in the steps allowed to it, with a tree that more steps would not change; an
error is malformed or fatal and quotes the pattern from a place in it to the end, or it is about an
unknown type at such a place. The tree is read without a fault: each span that is cut out of the
pattern, and each character that is looked at, is one of the pattern, no length is too short for
what is taken from it, and the literals are used up in as many rounds as the pattern has characters.
Nor does the search for the tree read anything outside of a pattern whose offsets can be counted. -/
theorem TypeRegistry.compile_never_faults (registry : TypeRegistry) (pattern : String) :
    let text := Text.ofString pattern
    (∃ tree, ∀ fuel, Pattern.fuelFor text.size ≤ fuel →
      Pattern.start.parse fuel Pattern.patternTypes text = .ok tree) ∧
    (∀ error, registry.compile pattern = .error error → error.PointsInto text) ∧
    (∀ rounds, text.size ≤ rounds →
      registry.compileChecked rounds pattern = Pattern.faultless (registry.compile pattern)) ∧
    (text.size < maxCount → ∀ fuel,
      searchWithin fuel (Pattern.patternTypes.setting text) .beginning Pattern.start 0 =
        searchChecked fuel (Pattern.patternTypes.setting text) .beginning Pattern.start 0) := by
  intro text
  obtain ⟨tree, hparse, -⟩ := Pattern.start_tree text
  refine ⟨⟨tree, hparse⟩, registry.compile_fails pattern, fun rounds hrounds => ?_,
    fun fits fuel => ?_⟩
  · have hcompile : registry.compile pattern = Pattern.readTree pattern >>= fun tree =>
        Pattern.readFirst registry.vocabulary tree.text tree.nodes >>= fun body =>
          pure body.grammar := by
      unfold compile Grammar.compile Pattern.read
      cases Pattern.readTree pattern with
      | error e => rfl
      | ok tree =>
        dsimp only [bind, Except.bind]
        cases Pattern.readFirst registry.vocabulary tree.text tree.nodes <;> rfl
    rw [hcompile]
    cases htree : Pattern.readTree pattern with
    | error e => rw [compileChecked, htree]; rfl
    | ok tree =>
      obtain ⟨-, htext, -, hsound, hinside⟩ := Pattern.readTree_ok htree
      have hfirst : Pattern.Checks
          (Pattern.firstChecked registry.vocabulary rounds tree.text tree.nodes)
          (Pattern.readFirst registry.vocabulary tree.text tree.nodes) := by
        rw [htext]
        exact Pattern.first_checks hrounds hinside hsound
      rw [compileChecked, htree]
      exact hfirst.bind fun _ => .pure
  · exact (Grammar.search_tiles Pattern.patternTypes_built (by trivial) fits (Nat.zero_le _) fuel
      .beginning).2.1

/-- A literal with an escape, and a quantifier with a sign of greediness. One round is too few for
the two characters of the literal. -/
theorem TypeRegistry.escaped_never_faults :
    let pattern := "'\\x41b'{3}+"
    let text := Text.ofString pattern
    (∃ tree, ∀ fuel, Pattern.fuelFor 11 ≤ fuel →
      Pattern.start.parse fuel Pattern.patternTypes text = .ok tree) ∧
    (standard.compile pattern).isOk = true ∧ (standard.compileChecked 1 pattern).isOk = false ∧
    (∀ rounds, 11 ≤ rounds →
      standard.compileChecked rounds pattern = Pattern.faultless (standard.compile pattern)) ∧
    ∀ fuel, searchWithin fuel (Pattern.patternTypes.setting text) .beginning Pattern.start 0 =
      searchChecked fuel (Pattern.patternTypes.setting text) .beginning Pattern.start 0 := by
  intro pattern text
  have hsize : text.size = 11 := by decide
  have hcompiles : (standard.compile pattern).isOk = true := by decide +kernel
  have hfault : (standard.compileChecked 1 pattern).isOk = false := by decide +kernel
  obtain ⟨htree, -, hchecked, hsearch⟩ := compile_never_faults standard pattern
  rw [show (Text.ofString pattern).size = 11 from hsize] at htree hchecked hsearch
  exact ⟨htree, hcompiles, hfault, hchecked, hsearch (by decide)⟩

end TextGrammar
