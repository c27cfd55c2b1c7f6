/-
A simpler expression for a set of characters: nested unions and intersections
are merged, repeated items dropped, a sole item takes the place of its union or
intersection, and a union of single characters and listed members is written as
one list.
-/
import TextGrammar.CharSet.Basic

namespace TextGrammar.CharSet

/-- The characters of a set that is given by listing them. -/
def listed? : CharSet → Option (List Char)
  | .single c => some [c]
  | .members cs => some cs
  | _ => none

/-- All characters listed by the items, if every item lists its characters. -/
def allListed? : List CharSet → Option (List Char)
  | [] => some []
  | item :: items => do
    let cs ← item.listed?
    let rest ← allListed? items
    pure (cs ++ rest)

/-- A list of members, or the character itself when there is only one. -/
def ofMembers (cs : List Char) : CharSet :=
  match sortMembers cs with
  | [c] => .single c
  | cs => .members cs

/-- Union of simplified items. -/
def joinSimple (items : List CharSet) : CharSet :=
  match (items.flatMap unionParts).eraseDups with
  | [] => .union []
  | [item] => item
  | items =>
    match allListed? items with
    | some cs => ofMembers cs
    | none => .union items

/-- Intersection of simplified items. -/
def meetSimple (items : List CharSet) : CharSet :=
  match (items.flatMap interParts).eraseDups with
  | [item] => item
  | items => .inter items

mutual

/-- A simpler set with the same structure of complements. -/
def simplify : CharSet → CharSet
  | .members [c] => .single c
  | .union items => joinSimple (simplifyAll items)
  | .inter items => meetSimple (simplifyAll items)
  | .compl item => complement (simplify item)
  | set => set

def simplifyAll : List CharSet → List CharSet
  | [] => []
  | item :: items => simplify item :: simplifyAll items

end

end TextGrammar.CharSet
