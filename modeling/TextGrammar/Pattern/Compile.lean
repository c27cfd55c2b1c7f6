/-
From a pattern to a grammar: the pattern is matched by the categories of the
pattern language, errors found on the way are reported, and entries and checkers
are built from the nodes.
-/
import TextGrammar.Grammar.Simplify
import TextGrammar.Pattern.Categories
import TextGrammar.Pattern.Literal
import TextGrammar.Search.Tree
import TextGrammar.Tree.Evaluate

namespace TextGrammar.Pattern

/-! ## Results -/

/-- What an item adds to its sequence. Literals next to each other become one word. -/
inductive Piece where
  | literal (chars : List Char)
  | entry (e : Entry)

/-- A body: one sequence, or a choice between several. -/
inductive Body where
  | sequence (entries : List Entry)
  | choice (checker : Checker)

namespace Body

/-- A body as a grammar of its own. -/
def grammar : Body → Grammar
  | .sequence entries => ⟨entries⟩
  | .choice checker => ⟨[.ofChecker checker]⟩

/-- A sequence as a checker: its only entry's, if there is nothing around that. -/
def sequenceChecker : List Entry → Checker
  | [entry] =>
    match entry.target with
    | .checker checker => if entry.isPlain then checker else .sequence [entry]
    | _ => .sequence [entry]
  | entries => .sequence entries

/-- A body as one of several choices. -/
def checker : Body → Checker
  | .sequence entries => sequenceChecker entries
  | .choice checker => checker

/-- A body as an entry of its own. A sole entry with nothing around its target stays as it is. -/
def entry : Body → Entry
  | .sequence [entry] => if entry.isPlain then entry else .ofChecker (.sequence [entry])
  | .sequence entries => .ofChecker (.sequence entries)
  | .choice checker => .ofChecker checker

/-- The choices of the first segment; where none of them matches those of the next one, and so
on. -/
def ofSegments : List (List Checker) → Option Checker
  | [] => none
  | choices :: segments =>
    match ofSegments segments with
    | some fallback => some (.alternativeOr choices fallback)
    | none =>
      match choices with
      | [c] => some c
      | _ => some (.alternative choices)

/-- A body of segments, each of them sequences to choose from. -/
def ofSequences : List (List (List Entry)) → Body
  | [[entries]] => .sequence entries
  | segments =>
    .choice ((ofSegments (segments.map (·.map sequenceChecker))).getD (.anyOf 0))

end Body

/-- An entry for literal characters, if there are any. -/
def literalEntry (chars : List Char) : List Entry :=
  if chars.isEmpty then [] else [.ofChecker (.literal chars)]

/-- The entries of a sequence, after the literal characters `pending`. -/
def entriesOf (pending : List Char) : List Piece → List Entry
  | [] => literalEntry pending
  | .literal chars :: pieces => entriesOf (pending ++ chars) pieces
  | .entry e :: pieces => literalEntry pending ++ e :: entriesOf [] pieces

/-- Any character, repeated. Where nothing is to be given back, a number of characters or all that
are left are taken in one step. -/
def dotEntry (q : Quantifier) : Entry :=
  if q.greediness == .possessive then
    if q.lower == 0 && q.upper.isNone then .ofChecker .rest
    else if q.isFixed then .ofChecker (.anyOf q.lower)
    else (Entry.ofChecker (.anyOf 1)).quantified q
  else (Entry.ofChecker (.anyOf 1)).quantified q

/-- A literal, which stays open for its neighbours only if it is not repeated. -/
def literalPiece (chars : List Char) (q : Quantifier) : Piece :=
  if q.isOne then .literal chars
  else .entry ((Entry.ofChecker (Checker.literal chars).simplify).quantified q)

/-! ## References -/

/-- The entry for a type, which has to be known. -/
def knownType (vocabulary : Vocabulary) (ref : NodeRef) (name : String)
    (param : Option String) : Except GrammarError Entry :=
  if vocabulary.knows name then .ok (.ref name param)
  else .error (.unknownType name ref.node.start)

/-- A reference to a type. -/
def readTypeRef (vocabulary : Vocabulary) (ref : NodeRef) : Except GrammarError Entry :=
  match ref.child? "name" with
  | none => .error (malformed "Malformed type reference" ref)
  | some name => do
    let param := (ref.child? "param").map NodeRef.string
    let entry ← knownType vocabulary ref name.string param
    pure (if (ref.child? "capture").isSome then entry.named name.string else entry)

/-- A reference to captured text. -/
def readBackRef (vocabulary : Vocabulary) (ref : NodeRef) : Except GrammarError Entry :=
  match ref.child? "name" with
  | none => .error (malformed "Malformed back-reference" ref)
  | some name =>
    let type := if (ref.child? "ci").isSome then "backrefCI" else "backref"
    knownType vocabulary ref type (some name.string)

/-- A character of a set, or a class standing for one. -/
def readSetChar (vocabulary : Vocabulary) (ref : NodeRef) : Except GrammarError Escaped :=
  match ref.typedChild? "escape" with
  | some escape => readEscape vocabulary escape
  | none =>
    match ref.chars[0]? with
    | some c => .ok (.char c)
    | none => .error (malformed "Malformed character set" ref)

/-- A range between two characters of a set. -/
def readRange (vocabulary : Vocabulary) (ref lo hi : NodeRef) : Except GrammarError CharSet := do
  match ← readSetChar vocabulary lo, ← readSetChar vocabulary hi with
  | .char a, .char b => pure (.between a b)
  | _, _ => throw (malformed "Character class used as a range bound" ref)

/-- An item of a set that holds no set itself. -/
def readPlainItem (vocabulary : Vocabulary) (ref : NodeRef) : Except GrammarError CharSet :=
  match ref.child? "from", ref.child? "to" with
  | some lo, some hi => readRange vocabulary ref lo hi
  | _, _ =>
    match ref.typedChild? "setChar" with
    | none => .error (malformed "Malformed character set" ref)
    | some char => do
      match ← readSetChar vocabulary char with
      | .char c => pure (.single c)
      | .set set => pure set

/-! ## Reading nodes -/

/-- A node of a pattern in its text. -/
def inText (text : Text) (node : Node) : NodeRef := ⟨text, node, 0⟩

/-- An element that holds no body and no set. -/
def readElement (vocabulary : Vocabulary) (ref : NodeRef) (q : Quantifier) :
    Except GrammarError Piece :=
  match ref.node.typeName with
  | some "typeRef" => do pure (.entry ((← readTypeRef vocabulary ref).quantified q))
  | some "backRef" => do pure (.entry ((← readBackRef vocabulary ref).quantified q))
  | some "quoted" => do
    let (quote, chars) ← readQuoted vocabulary ref
    if quote == '\x60' then
      pure (.entry ((Entry.ref "textCI" (some (String.ofList chars))).quantified q))
    else pure (literalPiece chars q)
  | some "escape" => do
    match ← readEscape vocabulary ref with
    | .char c =>
      if q.isOne then pure (.literal [c])
      else pure (.entry ((Entry.ofChecker (.single c)).quantified q))
    | .set set => pure (.entry ((Entry.ofChecker (.char set)).quantified q))
  | _ =>
    let chars := ref.chars.toList
    if chars == ['.'] then pure (.entry (dotEntry q)) else pure (literalPiece chars q)

mutual

/-- A character set. -/
def readSet (vocabulary : Vocabulary) (text : Text) : Node → Except GrammarError CharSet
  | ⟨_, _, _, _, _, children⟩ => do
    let parts ← readItems vocabulary text children
    let set := match parts with
      | [part] => part
      | parts => CharSet.interOf parts
    let negated := children.any (·.name == some "negate")
    pure (if negated then .complement set.simplify else set.simplify)

/-- The parts of a set, from the node that holds its items. -/
def readItems (vocabulary : Vocabulary) (text : Text) :
    List Node → Except GrammarError (List CharSet)
  | [] => .ok []
  | ⟨_, typeName, _, _, _, children⟩ :: nodes =>
    if typeName == some "setItems" then readParts vocabulary text children
    else readItems vocabulary text nodes

/-- Parts that are to be intersected. -/
def readParts (vocabulary : Vocabulary) (text : Text) :
    List Node → Except GrammarError (List CharSet)
  | [] => .ok []
  | ⟨name, _, _, _, _, children⟩ :: nodes =>
    if name == some "part" then do
      let members ← readMembers vocabulary text children
      let parts ← readParts vocabulary text nodes
      pure (.unionOf members :: parts)
    else readParts vocabulary text nodes

/-- Items that are to be united. -/
def readMembers (vocabulary : Vocabulary) (text : Text) :
    List Node → Except GrammarError (List CharSet)
  | [] => .ok []
  | ⟨name, typeName, param, start, stop, children⟩ :: nodes =>
    if typeName == some "setItem" then do
      let plain := readPlainItem vocabulary
        (inText text ⟨name, typeName, param, start, stop, children⟩)
      let item ← readNestedSet vocabulary text plain children
      let items ← readMembers vocabulary text nodes
      pure (item :: items)
    else readMembers vocabulary text nodes

/-- The set an item holds, or the item without one. -/
def readNestedSet (vocabulary : Vocabulary) (text : Text)
    (plain : Except GrammarError CharSet) : List Node → Except GrammarError CharSet
  | [] => plain
  | node :: nodes =>
    if node.typeName == some "charSet" then readSet vocabulary text node
    else readNestedSet vocabulary text plain nodes

end

mutual

/-- A body. -/
def readBody (vocabulary : Vocabulary) (text : Text) : Node → Except GrammarError Body
  | ⟨_, _, _, _, _, children⟩ => do
    let (first, others) ← readSegments vocabulary text children
    pure (.ofSequences (first :: others))

/-- The sequences of the current segment, and the segments after it. -/
def readSegments (vocabulary : Vocabulary) (text : Text) :
    List Node → Except GrammarError (List (List Entry) × List (List (List Entry)))
  | [] => .ok ([], [])
  | ⟨name, typeName, _, start, stop, children⟩ :: nodes =>
    if typeName == some "sequence" then do
      let pieces ← readPieces vocabulary text children
      let (sequences, segments) ← readSegments vocabulary text nodes
      pure (entriesOf [] pieces :: sequences, segments)
    else if name == some "sep" && (text.slice start stop).toList == ['|', '|'] then do
      let (sequences, segments) ← readSegments vocabulary text nodes
      pure ([], sequences :: segments)
    else readSegments vocabulary text nodes

/-- The items of a sequence. -/
def readPieces (vocabulary : Vocabulary) (text : Text) :
    List Node → Except GrammarError (List Piece)
  | [] => .ok []
  | ⟨name, typeName, param, start, stop, children⟩ :: nodes =>
    if typeName == some "item" then do
      let ref := inText text ⟨name, typeName, param, start, stop, children⟩
      let q ← match ref.typedChild? "quantifier" with
        | some q => readQuantifier q
        | none => .ok .one
      let piece ← readItem vocabulary text (malformed "Missing element" ref) q children
      let pieces ← readPieces vocabulary text nodes
      pure (piece :: pieces)
    else readPieces vocabulary text nodes

/-- The element of an item, which is the first of its nodes but for the quantifier. -/
def readItem (vocabulary : Vocabulary) (text : Text) (missing : GrammarError) (q : Quantifier) :
    List Node → Except GrammarError Piece
  | [] => .error missing
  | node :: nodes =>
    if node.typeName == some "quantifier" then readItem vocabulary text missing q nodes
    else if node.typeName == some "group" then do
      pure (.entry ((← readGroup vocabulary text node).quantified q))
    else if node.typeName == some "charSet" then do
      pure (.entry ((Entry.ofChecker (.char (← readSet vocabulary text node))).quantified q))
    else readElement vocabulary (inText text node) q

/-- A group. -/
def readGroup (vocabulary : Vocabulary) (text : Text) : Node → Except GrammarError Entry
  | ⟨name, typeName, param, start, stop, children⟩ => do
    let ref := inText text ⟨name, typeName, param, start, stop, children⟩
    let body ← readInner vocabulary text (malformed "Unclosed group" ref) children
    let entry :=
      if (ref.child? "not").isSome then Entry.ofChecker (.not body.checker) else body.entry
    let entry ← do
      match ← readSecond vocabulary text children with
      | some g => pure (entry.withSecondary g)
      | none => pure entry
    match ref.child? "kind", ref.child? "name" with
    | some kind, some name =>
      pure (if kind.string == "$" then entry.flatNamed name.string else entry.named name.string)
    | _, _ => pure entry

/-- The body of a group. -/
def readInner (vocabulary : Vocabulary) (text : Text) (unclosed : GrammarError) :
    List Node → Except GrammarError Body
  | [] => .error unclosed
  | node :: nodes =>
    if node.typeName == some "body" && node.name.isNone then readBody vocabulary text node
    else readInner vocabulary text unclosed nodes

/-- The secondary body of a group. -/
def readSecond (vocabulary : Vocabulary) (text : Text) :
    List Node → Except GrammarError (Option Grammar)
  | [] => .ok none
  | node :: nodes =>
    if node.name == some "second" then do
      pure (some (← readBody vocabulary text node).grammar)
    else readSecond vocabulary text nodes

end

/-! ## Compiling -/

/-- The types patterns are matched with. -/
def patternTypes : TypeEnv := ⟨category?, .standard, fun _ => none⟩

/-- Steps allowed to the match of a pattern of so many characters. -/
def fuelFor (length : Nat) : Nat := Nat.pow (length + 10) 5

/-- The error of a pattern that could not be matched. -/
def unreadable (text : Text) : Stop → GrammarError
  | .refused error => .malformedAt error.message text 0
  | .fault _ => .malformedAt "Pattern too long" text 0

/-- Reports error nodes in the order of the text, until a fatal one ends the run. -/
def reportErrors : List NodeRef → Report → Except GrammarError Unit
  | [], report => report.finish
  | ref :: refs, report =>
    match ref.value category? report with
    | (.error error, _) => .error error
    | (.ok _, report) => reportErrors refs report

/-- Whether a node stands for an error. -/
def isErrorNode (ref : NodeRef) : Bool :=
  ref.node.typeName == some "error" || ref.node.typeName == some "fatalError"

/-- The first body among the nodes of a pattern. -/
def readFirst (vocabulary : Vocabulary) (text : Text) : List Node → Except GrammarError Body
  | [] => .ok (.sequence [])
  | node :: nodes =>
    if node.typeName == some "body" then readBody vocabulary text node
    else readFirst vocabulary text nodes

/-- The tree of a pattern that has no error nodes and is read to its end. -/
def readTree (pattern : String) : Except GrammarError MatchTree :=
  let text := Text.ofString pattern
  match start.parse (fuelFor text.size) patternTypes text with
  | .error stop => .error (unreadable text stop)
  | .ok tree => do
    reportErrors (tree.rootRef.descendants.filter isErrorNode) {}
    match text[tree.root.stop]? with
    | some c =>
      throw (.malformedAt ("Unexpected character '" ++ c.toString ++ "'") text tree.root.stop)
    | none => pure tree

/-- The body of a pattern whose types and classes have to be in the vocabulary. -/
def read (vocabulary : Vocabulary) (pattern : String) : Except GrammarError Body := do
  let tree ← readTree pattern
  readFirst vocabulary tree.text tree.nodes

end TextGrammar.Pattern

namespace TextGrammar

/-- Compiles a pattern whose types and classes have to be in the vocabulary. -/
def Grammar.compile (vocabulary : Vocabulary) (pattern : String) : Except GrammarError Grammar :=
  (Pattern.read vocabulary pattern).map Pattern.Body.grammar

end TextGrammar
