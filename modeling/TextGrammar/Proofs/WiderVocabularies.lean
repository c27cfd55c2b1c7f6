/-
Compiling a pattern when more types are known. Reading stops at the first type
that is not known; all that is read before it stays as it is. So a pattern that
compiles goes on compiling to the same grammar, and one that does not ends with
the same error, unless that error is a type that has become known. The grammars
that come of it hold no types themselves, only names of types.
-/
import TextGrammar.Pattern.Compile
import TextGrammar.Proofs.Following

namespace TextGrammar

/-- The same classes, and other types. -/
def Vocabulary.knowing (vocabulary : Vocabulary) (knows : String → Bool) : Vocabulary :=
  { vocabulary with knows }

namespace Pattern

/-! ## Results -/

/-- What is read with fewer types known, and with more of them: the same, unless the first is an
error about a type that has become known. What the second comes to has the property. -/
inductive Widens {α : Type} (knows : String → Bool) (holds : α → Prop) :
    Except GrammarError α → Except GrammarError α → Prop where
  | ok (a : α) : holds a → Widens knows holds (.ok a) (.ok a)
  | error (e : GrammarError) : Widens knows holds (.error e) (.error e)
  | known (name : String) (offset : Nat) (y : Except GrammarError α) : knows name = true →
    (∀ a, y = .ok a → holds a) → Widens knows holds (.error (.unknownType name offset)) y

namespace Widens

variable {α β : Type} {knows : String → Bool} {holds : α → Prop} {x y : Except GrammarError α}

theorem same (x : Except GrammarError α) (h : ∀ a, x = .ok a → holds a) :
    Widens knows holds x x := by
  cases x with
  | ok a => exact .ok a (h a rfl)
  | error e => exact .error e

theorem trivially (x : Except GrammarError α) : Widens knows (fun _ => True) x x :=
  .same x fun _ _ => trivial

theorem post (h : Widens knows holds x y) {a : α} (ha : y = .ok a) : holds a := by
  cases h with
  | ok b hb => exact Except.ok.inj ha ▸ hb
  | error e => cases ha
  | known name offset y hname hy => exact hy a ha

theorem bind {holds' : β → Prop} {f g : α → Except GrammarError β} (h : Widens knows holds x y)
    (hfg : ∀ a, holds a → Widens knows holds' (f a) (g a)) :
    Widens knows holds' (x >>= f) (y >>= g) := by
  cases h with
  | ok a ha => exact hfg a ha
  | error e => exact .error e
  | known name offset y hname hy =>
    refine .known name offset _ hname fun b hb => ?_
    cases y with
    | ok a => exact (hfg a (hy a rfl)).post hb
    | error e => cases hb

end Widens

/-! ## Parts without held types -/

section

variable (typeOk : ParserType → Prop)

def EntriesOk (es : List Entry) : Prop := Entry.EveryOf (Entry.Holds typeOk) (fun _ => True) es

def PieceOk : Piece → Prop
  | .literal _ => True
  | .entry e => Entry.HoldsOnly typeOk e

def BodyOk : Body → Prop
  | .sequence entries => EntriesOk typeOk entries
  | .choice checker => Checker.HoldsOnly typeOk checker

end

variable {typeOk : ParserType → Prop}

theorem literal_ok (chars : List Char) : Checker.HoldsOnly typeOk (.literal chars) := by
  cases chars <;> trivial

theorem literalEntry_ok (chars : List Char) : EntriesOk typeOk (literalEntry chars) := by
  unfold literalEntry
  split
  · trivial
  · exact ⟨Entry.HoldsOnly.ofChecker (literal_ok chars), trivial⟩

theorem entriesOf_ok {pieces : List Piece} (h : ∀ piece ∈ pieces, PieceOk typeOk piece)
    (pending : List Char) : EntriesOk typeOk (entriesOf pending pieces) := by
  induction pieces generalizing pending with
  | nil => exact literalEntry_ok pending
  | cons piece pieces ih =>
    obtain ⟨hpiece, hpieces⟩ := List.forall_mem_cons.mp h
    cases piece with
    | literal chars => exact ih hpieces _
    | entry e => exact (literalEntry_ok pending).append ⟨hpiece, ih hpieces _⟩

theorem sequenceChecker_ok {entries : List Entry} (h : EntriesOk typeOk entries) :
    Checker.HoldsOnly typeOk (Body.sequenceChecker entries) := by
  unfold Body.sequenceChecker
  split
  · next entry =>
    split
    · next c ht =>
      split
      · have htarget := h.1.target
        rwa [ht] at htarget
      · exact h
    · exact h
  · exact h

theorem ofSegments_ok {segments : List (List Checker)}
    (h : ∀ choices ∈ segments, ∀ c ∈ choices, Checker.HoldsOnly typeOk c) :
    ∀ c, Body.ofSegments segments = some c → Checker.HoldsOnly typeOk c := by
  induction segments with
  | nil => exact fun _ hc => nomatch hc
  | cons choices segments ih =>
    obtain ⟨hchoices, hsegments⟩ := List.forall_mem_cons.mp h
    intro c hc
    unfold Body.ofSegments at hc
    split at hc
    · next fallback hfallback =>
      obtain rfl := Option.some.inj hc
      exact ⟨Checker.everyOf_flatMap_choiceParts hchoices, ih hsegments fallback hfallback⟩
    · split at hc
      · obtain rfl := Option.some.inj hc
        exact hchoices _ List.mem_cons_self
      · obtain rfl := Option.some.inj hc
        exact ⟨Checker.everyOf_flatMap_choiceParts hchoices, trivial⟩

theorem ofSequences_ok {segments : List (List (List Entry))}
    (h : ∀ sequences ∈ segments, ∀ entries ∈ sequences, EntriesOk typeOk entries) :
    BodyOk typeOk (.ofSequences segments) := by
  unfold Body.ofSequences
  split
  · exact h _ List.mem_cons_self _ List.mem_cons_self
  · have hchoices : ∀ choices ∈ segments.map (·.map Body.sequenceChecker),
        ∀ c ∈ choices, Checker.HoldsOnly typeOk c := by
      intro choices hmem c hc
      obtain ⟨sequences, hsequences, rfl⟩ := List.mem_map.mp hmem
      obtain ⟨entries, hentries, rfl⟩ := List.mem_map.mp hc
      exact sequenceChecker_ok (h sequences hsequences entries hentries)
    show Checker.HoldsOnly typeOk _
    cases hsegments : Body.ofSegments (segments.map (·.map Body.sequenceChecker)) with
    | none => trivial
    | some c => exact ofSegments_ok hchoices c hsegments

theorem BodyOk.checker {body : Body} (h : BodyOk typeOk body) :
    Checker.HoldsOnly typeOk body.checker := by
  cases body with
  | sequence entries => exact sequenceChecker_ok h
  | choice checker => exact h

theorem BodyOk.entry {body : Body} (h : BodyOk typeOk body) :
    Entry.HoldsOnly typeOk body.entry := by
  unfold Body.entry
  split
  · split
    · exact h.1
    · exact .ofChecker h
  · exact .ofChecker h
  · exact .ofChecker h

theorem BodyOk.grammar {body : Body} (h : BodyOk typeOk body) :
    Grammar.HoldsOnly typeOk body.grammar := by
  cases body with
  | sequence entries => exact h
  | choice checker => exact ⟨Entry.HoldsOnly.ofChecker h, trivial⟩

theorem dotEntry_ok (q : Quantifier) : Entry.HoldsOnly typeOk (dotEntry q) := by
  unfold dotEntry
  split
  · split
    · exact .ofChecker trivial
    · split
      · exact .ofChecker trivial
      · exact .ofChecker trivial
  · exact .ofChecker trivial

theorem literalPiece_ok (chars : List Char) (q : Quantifier) :
    PieceOk typeOk (literalPiece chars q) := by
  have hsimple : Checker.HoldsOnly typeOk (Checker.literal chars).simplify := by
    rcases chars with _ | ⟨_, _ | ⟨_, _⟩⟩ <;> trivial
  unfold literalPiece
  split
  · trivial
  · exact Entry.HoldsOnly.ofChecker hsimple

/-! ## Reading what names no type -/

section

variable (vocabulary : Vocabulary) (knows : String → Bool)

theorem unquoteFrom_knowing (ref : NodeRef) (count pos : Nat) (escapes : List NodeRef) :
    unquoteFrom (vocabulary.knowing knows) ref count pos escapes =
      unquoteFrom vocabulary ref count pos escapes := by
  induction count generalizing pos escapes with
  | zero => rfl
  | succ count ih =>
    have hescape (escape : NodeRef) :
        readEscape (vocabulary.knowing knows) escape = readEscape vocabulary escape := rfl
    simp only [unquoteFrom, ih, hescape]

theorem readQuoted_knowing (ref : NodeRef) :
    readQuoted (vocabulary.knowing knows) ref = readQuoted vocabulary ref := by
  simp only [readQuoted, unquoteFrom_knowing]

mutual

theorem readSet_knowing (text : Text) : ∀ node : Node,
    readSet (vocabulary.knowing knows) text node = readSet vocabulary text node
  | ⟨_, _, _, _, _, children⟩ => by simp only [readSet, readItems_knowing text children]

theorem readItems_knowing (text : Text) : ∀ nodes : List Node,
    readItems (vocabulary.knowing knows) text nodes = readItems vocabulary text nodes
  | [] => by simp only [readItems]
  | ⟨_, _, _, _, _, children⟩ :: nodes => by
    simp only [readItems, readParts_knowing text children, readItems_knowing text nodes]

theorem readParts_knowing (text : Text) : ∀ nodes : List Node,
    readParts (vocabulary.knowing knows) text nodes = readParts vocabulary text nodes
  | [] => by simp only [readParts]
  | ⟨_, _, _, _, _, children⟩ :: nodes => by
    simp only [readParts, readMembers_knowing text children, readParts_knowing text nodes]

theorem readMembers_knowing (text : Text) : ∀ nodes : List Node,
    readMembers (vocabulary.knowing knows) text nodes = readMembers vocabulary text nodes
  | [] => by simp only [readMembers]
  | ⟨name, typeName, param, start, stop, children⟩ :: nodes => by
    have hplain (ref : NodeRef) :
        readPlainItem (vocabulary.knowing knows) ref = readPlainItem vocabulary ref := rfl
    simp only [readMembers, hplain, readNestedSet_knowing text _ children,
      readMembers_knowing text nodes]

theorem readNestedSet_knowing (text : Text) (plain : Except GrammarError CharSet) :
    ∀ nodes : List Node, readNestedSet (vocabulary.knowing knows) text plain nodes =
      readNestedSet vocabulary text plain nodes
  | [] => by simp only [readNestedSet]
  | node :: nodes => by
    simp only [readNestedSet, readSet_knowing text node, readNestedSet_knowing text plain nodes]

end

end

/-! ## Reading what may name a type -/

variable {vocabulary : Vocabulary} {knows : String → Bool}

/-- The types known are known afterwards. -/
def Wider (vocabulary : Vocabulary) (knows : String → Bool) : Prop :=
  ∀ name, vocabulary.knows name = true → knows name = true

section

variable (h : Wider vocabulary knows)
include h

theorem knownType_widens (ref : NodeRef) (name : String) (param : Option String) :
    Widens knows (Entry.HoldsOnly typeOk) (knownType vocabulary ref name param)
      (knownType (vocabulary.knowing knows) ref name param) := by
  have hknowing : (vocabulary.knowing knows).knows name = knows name := rfl
  simp only [knownType, hknowing]
  cases hold : vocabulary.knows name with
  | true =>
    rw [h name hold]
    exact .ok _ (.ref name param)
  | false =>
    cases hnew : knows name with
    | true =>
      refine .known name _ _ hnew fun a ha => ?_
      exact Except.ok.inj ha ▸ Entry.HoldsOnly.ref name param
    | false => exact .error _

theorem readTypeRef_widens (ref : NodeRef) :
    Widens knows (Entry.HoldsOnly typeOk) (readTypeRef vocabulary ref)
      (readTypeRef (vocabulary.knowing knows) ref) := by
  unfold readTypeRef
  split
  · exact .error _
  · next name _ =>
    have hknown : Widens knows (Entry.HoldsOnly typeOk) _ _ :=
      knownType_widens h ref name.string ((ref.child? "param").map NodeRef.string)
    refine hknown.bind fun entry hentry => .ok _ ?_
    split
    · exact hentry.of_parts rfl rfl
    · exact hentry

theorem readBackRef_widens (ref : NodeRef) :
    Widens knows (Entry.HoldsOnly typeOk) (readBackRef vocabulary ref)
      (readBackRef (vocabulary.knowing knows) ref) := by
  unfold readBackRef
  split
  · exact .error _
  · exact knownType_widens h ref _ _

theorem readElement_widens (ref : NodeRef) (q : Quantifier) :
    Widens knows (PieceOk typeOk) (readElement vocabulary ref q)
      (readElement (vocabulary.knowing knows) ref q) := by
  have hescape : readEscape (vocabulary.knowing knows) ref = readEscape vocabulary ref := rfl
  have htype : Widens knows (Entry.HoldsOnly typeOk) _ _ := readTypeRef_widens h ref
  have hback : Widens knows (Entry.HoldsOnly typeOk) _ _ := readBackRef_widens h ref
  simp only [readElement, readQuoted_knowing, hescape]
  split
  · exact htype.bind fun entry hentry => .ok _ (hentry.quantified q)
  · exact hback.bind fun entry hentry => .ok _ (hentry.quantified q)
  · refine (Widens.trivially _).bind fun ⟨quote, chars⟩ _ => ?_
    simp only
    split
    · exact .ok _ ((Entry.HoldsOnly.ref _ _).quantified q)
    · exact .ok _ (literalPiece_ok chars q)
  · refine (Widens.trivially _).bind fun escaped _ => ?_
    cases escaped with
    | char c =>
      simp only
      split
      · exact .ok _ trivial
      · exact .ok _ (Entry.HoldsOnly.ofChecker trivial)
    | set set => exact .ok _ (Entry.HoldsOnly.ofChecker trivial)
  · split
    · exact .ok _ (dotEntry_ok q)
    · exact .ok _ (literalPiece_ok _ q)

end

mutual

theorem readBody_widens (h : Wider vocabulary knows) (text : Text) : ∀ node : Node,
    Widens knows (BodyOk typeOk) (readBody vocabulary text node)
      (readBody (vocabulary.knowing knows) text node)
  | ⟨_, _, _, _, _, children⟩ => by
    simp only [readBody]
    exact (readSegments_widens h text children).bind fun ⟨first, others⟩ hsegments =>
      .ok _ (ofSequences_ok hsegments)

theorem readSegments_widens (h : Wider vocabulary knows) (text : Text) : ∀ nodes : List Node,
    Widens knows (fun read : List (List Entry) × List (List (List Entry)) =>
        ∀ sequences ∈ read.1 :: read.2, ∀ entries ∈ sequences, EntriesOk typeOk entries)
      (readSegments vocabulary text nodes) (readSegments (vocabulary.knowing knows) text nodes)
  | [] => by
    simp only [readSegments]
    exact .ok _ (by simp)
  | ⟨name, typeName, _, start, stop, children⟩ :: nodes => by
    simp only [readSegments]
    split
    · refine (readPieces_widens h text children).bind fun pieces hpieces => ?_
      refine (readSegments_widens h text nodes).bind fun ⟨sequences, segments⟩ hsegments => ?_
      obtain ⟨hsequences, hsegments⟩ := List.forall_mem_cons.mp hsegments
      exact .ok _ (List.forall_mem_cons.mpr
        ⟨List.forall_mem_cons.mpr ⟨entriesOf_ok hpieces [], hsequences⟩, hsegments⟩)
    · split
      · refine (readSegments_widens h text nodes).bind fun ⟨sequences, segments⟩ hsegments => ?_
        exact .ok _ (List.forall_mem_cons.mpr ⟨fun _ hmem => (nomatch hmem), hsegments⟩)
      · exact readSegments_widens h text nodes

theorem readPieces_widens (h : Wider vocabulary knows) (text : Text) : ∀ nodes : List Node,
    Widens knows (fun pieces => ∀ piece ∈ pieces, PieceOk typeOk piece)
      (readPieces vocabulary text nodes) (readPieces (vocabulary.knowing knows) text nodes)
  | [] => by
    simp only [readPieces]
    exact .ok _ (by simp)
  | ⟨name, typeName, param, start, stop, children⟩ :: nodes => by
    simp only [readPieces]
    split
    · have hrest (missing : GrammarError) (q : Quantifier) :
          Widens knows (fun pieces => ∀ piece ∈ pieces, PieceOk typeOk piece)
            (do
              let piece ← readItem vocabulary text missing q children
              let pieces ← readPieces vocabulary text nodes
              pure (piece :: pieces))
            (do
              let piece ← readItem (vocabulary.knowing knows) text missing q children
              let pieces ← readPieces (vocabulary.knowing knows) text nodes
              pure (piece :: pieces)) := by
        refine (readItem_widens h text missing q children).bind fun piece hpiece => ?_
        refine (readPieces_widens h text nodes).bind fun pieces hpieces => ?_
        exact .ok _ (List.forall_mem_cons.mpr ⟨hpiece, hpieces⟩)
      split
      · exact (Widens.trivially _).bind fun q _ => hrest _ q
      · exact (Widens.trivially _).bind fun q _ => hrest _ q
    · exact readPieces_widens h text nodes

theorem readItem_widens (h : Wider vocabulary knows) (text : Text) (missing : GrammarError)
    (q : Quantifier) : ∀ nodes : List Node,
    Widens knows (PieceOk typeOk) (readItem vocabulary text missing q nodes)
      (readItem (vocabulary.knowing knows) text missing q nodes)
  | [] => by
    simp only [readItem]
    exact .error _
  | node :: nodes => by
    simp only [readItem, readSet_knowing]
    split
    · exact readItem_widens h text missing q nodes
    · split
      · exact (readGroup_widens h text node).bind fun entry hentry => .ok _ (hentry.quantified q)
      · split
        · exact (Widens.trivially _).bind fun set _ => .ok _ (Entry.HoldsOnly.ofChecker trivial)
        · exact readElement_widens h _ q

theorem readGroup_widens (h : Wider vocabulary knows) (text : Text) : ∀ node : Node,
    Widens knows (Entry.HoldsOnly typeOk) (readGroup vocabulary text node)
      (readGroup (vocabulary.knowing knows) text node)
  | ⟨name, typeName, param, start, stop, children⟩ => by
    simp only [readGroup]
    refine (readInner_widens h text _ children).bind fun body hbody => ?_
    have hentry : Entry.HoldsOnly typeOk
        (if ((inText text ⟨name, typeName, param, start, stop, children⟩).child? "not").isSome then
          Entry.ofChecker (.not body.checker) else body.entry) := by
      split
      · exact .ofChecker hbody.checker
      · exact hbody.entry
    -- what is read last names the entry, which changes nothing about its parts
    have hnamed (entry : Entry) (hentry : Entry.HoldsOnly typeOk entry)
        (kind? name? : Option NodeRef) :
        Widens knows (Entry.HoldsOnly typeOk)
          (match kind?, name? with
            | some kind, some name =>
              pure (if kind.string == "$" then entry.flatNamed name.string
                else entry.named name.string)
            | _, _ => pure entry)
          (match kind?, name? with
            | some kind, some name =>
              pure (if kind.string == "$" then entry.flatNamed name.string
                else entry.named name.string)
            | _, _ => pure entry) := by
      split
      · refine .ok _ ?_
        split
        · exact hentry.of_parts rfl rfl
        · exact hentry.of_parts rfl rfl
      · exact .ok _ hentry
    refine (readSecond_widens h text children).bind fun second hsecond => ?_
    cases second with
    | none => exact Widens.bind (.ok _ hentry) fun entry hentry => hnamed entry hentry _ _
    | some g =>
      exact Widens.bind (.ok _ (hentry.withSecondary (hsecond g rfl))) fun entry hentry =>
        hnamed entry hentry _ _

theorem readInner_widens (h : Wider vocabulary knows) (text : Text) (unclosed : GrammarError) :
    ∀ nodes : List Node, Widens knows (BodyOk typeOk) (readInner vocabulary text unclosed nodes)
      (readInner (vocabulary.knowing knows) text unclosed nodes)
  | [] => by
    simp only [readInner]
    exact .error _
  | node :: nodes => by
    simp only [readInner]
    split
    · exact readBody_widens h text node
    · exact readInner_widens h text unclosed nodes

theorem readSecond_widens (h : Wider vocabulary knows) (text : Text) : ∀ nodes : List Node,
    Widens knows (fun second : Option Grammar => ∀ g, second = some g → Grammar.HoldsOnly typeOk g)
      (readSecond vocabulary text nodes) (readSecond (vocabulary.knowing knows) text nodes)
  | [] => by
    simp only [readSecond]
    exact .ok _ (by simp)
  | node :: nodes => by
    simp only [readSecond]
    split
    · refine (readBody_widens h text node).bind fun body hbody => .ok _ fun g hg => ?_
      exact Option.some.inj hg ▸ hbody.grammar
    · exact readSecond_widens h text nodes

end

theorem readFirst_widens (h : Wider vocabulary knows) (text : Text) (nodes : List Node) :
    Widens knows (BodyOk typeOk) (readFirst vocabulary text nodes)
      (readFirst (vocabulary.knowing knows) text nodes) := by
  induction nodes with
  | nil => exact .ok _ trivial
  | cons node nodes ih =>
    simp only [readFirst]
    split
    · exact readBody_widens h text node
    · exact ih

/-- **A pattern that compiles goes on compiling to the same** when more types are known, and one
that does not ends with the same error unless a type it names has become known. What it compiles to
holds no types. -/
theorem compile_widens (h : Wider vocabulary knows) (pattern : String) :
    Widens knows (Grammar.HoldsOnly typeOk) (Grammar.compile vocabulary pattern)
      (Grammar.compile (vocabulary.knowing knows) pattern) := by
  have hread : Widens knows (BodyOk typeOk) (read vocabulary pattern)
      (read (vocabulary.knowing knows) pattern) :=
    (Widens.trivially (readTree pattern)).bind fun tree _ => readFirst_widens h tree.text tree.nodes
  simp only [Grammar.compile]
  generalize read vocabulary pattern = x at hread ⊢
  generalize read (vocabulary.knowing knows) pattern = y at hread ⊢
  cases hread with
  | ok body hbody => exact .ok _ hbody.grammar
  | error e => exact .error e
  | known name offset y hname hy =>
    refine .known name offset _ hname fun g hg => ?_
    cases y with
    | ok body => exact Except.ok.inj hg ▸ (hy body rfl).grammar
    | error e => cases hg

end Pattern

end TextGrammar
