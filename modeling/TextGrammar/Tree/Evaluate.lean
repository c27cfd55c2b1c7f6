/-
Values of nodes. A node with a type has the value its type gives it; one without
has the list of its children's values, or its text if it has no children.
-/
import TextGrammar.Grammar.Basic

namespace TextGrammar

mutual

/-- The value of a node at an index, and the report with all that was reported on the way. -/
def Node.value (find? : String → Option ParserType) (text : Text) (index : Nat) (report : Report) :
    Node → Except GrammarError Value × Report
  | ⟨name, some typeName, param, start, stop, children⟩ =>
    match find? typeName with
    | none => (.error (.unknownType typeName start), report)
    | some type =>
      type.evaluate ⟨text, ⟨name, some typeName, param, start, stop, children⟩, index⟩ report
  | ⟨_, none, _, start, stop, []⟩ => (.ok (.text (text.slice start stop).string), report)
  | ⟨_, none, _, _, _, child :: children⟩ =>
    match Node.value find? text 0 report child with
    | (.error error, report) => (.error error, report)
    | (.ok first, report) =>
      match Node.values find? text 1 report children with
      | (.error error, report) => (.error error, report)
      | (.ok others, report) => (.ok (.list (first :: others)), report)

/-- The values of nodes standing at `index` and after it, up to the first that has none. -/
def Node.values (find? : String → Option ParserType) (text : Text) (index : Nat)
    (report : Report) : List Node → Except GrammarError (List Value) × Report
  | [] => (.ok [], report)
  | node :: nodes =>
    match Node.value find? text index report node with
    | (.error error, report) => (.error error, report)
    | (.ok first, report) =>
      match Node.values find? text (index + 1) report nodes with
      | (.error error, report) => (.error error, report)
      | (.ok others, report) => (.ok (first :: others), report)

end

/-- The value of a node, with the types to be found under their names. -/
def NodeRef.value (ref : NodeRef) (find? : String → Option ParserType) (report : Report) :
    Except GrammarError Value × Report :=
  Node.value find? ref.text ref.index report ref.node

end TextGrammar
