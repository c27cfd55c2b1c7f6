/-
Sets of characters as expressions: single characters, ranges, listed members and
named classes, closed under union, intersection and complement.

The functions that build sets keep unions and intersections flat, order the
bounds of a range, sort listed members and cancel double complements, so that
sets built along different ways are often equal as expressions.
-/
import TextGrammar.CharClasses

namespace TextGrammar

/-- A set of characters. -/
inductive CharSet where
  | single (c : Char)
  /-- Both bounds belong to the range. -/
  | range (lo hi : Char)
  /-- The characters in the list. -/
  | members (cs : List Char)
  /-- A class, known by its name. -/
  | named (name : String)
  | union (items : List CharSet)
  | inter (items : List CharSet)
  | compl (item : CharSet)

namespace CharSet

/-! ## Equality -/

mutual

/-- Whether two sets are the same expression. -/
def same : CharSet → CharSet → Bool
  | .single a, .single b => a == b
  | .range a b, .range c d => a == c && b == d
  | .members a, .members b => a == b
  | .named a, .named b => a == b
  | .union a, .union b => sameAll a b
  | .inter a, .inter b => sameAll a b
  | .compl a, .compl b => same a b
  | _, _ => false

def sameAll : List CharSet → List CharSet → Bool
  | [], [] => true
  | a :: as, b :: bs => same a b && sameAll as bs
  | _, _ => false

end

instance : BEq CharSet := ⟨same⟩

mutual

theorem same_iff : ∀ {a b : CharSet}, same a b = true ↔ a = b
  | .single _, b => by cases b <;> simp [same]
  | .range _ _, b => by cases b <;> simp [same]
  | .members _, b => by cases b <;> simp [same]
  | .named _, b => by cases b <;> simp [same]
  | .union _, b => by cases b <;> simp [same, sameAll_iff]
  | .inter _, b => by cases b <;> simp [same, sameAll_iff]
  | .compl _, b => by cases b <;> simp [same, same_iff]

theorem sameAll_iff : ∀ {as bs : List CharSet}, sameAll as bs = true ↔ as = bs
  | [], bs => by cases bs <;> simp [sameAll]
  | _ :: _, bs => by cases bs <;> simp [sameAll, same_iff, sameAll_iff]

end

instance : LawfulBEq CharSet where
  eq_of_beq h := same_iff.1 h
  rfl := same_iff.2 rfl

instance : DecidableEq CharSet := fun a b =>
  decidable_of_iff (same a b = true) same_iff

/-! ## Building sets -/

/-- All characters between two, in either order. -/
def between (a b : Char) : CharSet := if a ≤ b then .range a b else .range b a

/-- Puts a character into an increasing list, unless it is there already. -/
def insertMember (c : Char) : List Char → List Char
  | [] => [c]
  | d :: ds =>
    if c < d then c :: d :: ds
    else if c == d then d :: ds
    else d :: insertMember c ds

/-- The listed characters in increasing order, each once. -/
def sortMembers (cs : List Char) : List Char := cs.foldr insertMember []

/-- The set of the listed characters. -/
def ofList (cs : List Char) : CharSet := .members (sortMembers cs)

def ofString (s : String) : CharSet := ofList s.toList

/-- The members of a union, or the set itself as the only one. -/
def unionParts : CharSet → List CharSet
  | .union items => items
  | set => [set]

/-- The members of an intersection, or the set itself as the only one. -/
def interParts : CharSet → List CharSet
  | .inter items => items
  | set => [set]

/-- Union of sets; a union among them is merged into the new one. -/
def unionOf (items : List CharSet) : CharSet := .union (items.flatMap unionParts)

/-- Intersection of sets; an intersection among them is merged into the new one. -/
def interOf (items : List CharSet) : CharSet := .inter (items.flatMap interParts)

/-- Complement; that of a complement is the set it was made from. -/
def complement : CharSet → CharSet
  | .compl item => item
  | set => .compl set

/-! ## Membership -/

mutual

/-- Whether the set has the character. A class the source does not know is empty, and so is the
intersection of nothing. -/
def contains (classes : CharClasses) (c : Char) : CharSet → Bool
  | .single d => d == c
  | .range lo hi => lo ≤ c && c ≤ hi
  | .members cs => cs.contains c
  | .named name => (classes.contains? name c).getD false
  | .union items => containsAny classes c items
  | .inter items => !items.isEmpty && containsAll classes c items
  | .compl item => !contains classes c item

def containsAny (classes : CharClasses) (c : Char) : List CharSet → Bool
  | [] => false
  | item :: items => contains classes c item || containsAny classes c items

def containsAll (classes : CharClasses) (c : Char) : List CharSet → Bool
  | [] => true
  | item :: items => contains classes c item && containsAll classes c items

end

end CharSet

end TextGrammar
