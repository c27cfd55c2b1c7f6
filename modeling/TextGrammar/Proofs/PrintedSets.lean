/-
Character sets in pattern form. Items are written one after the other without
anything between them, so an item must not begin with a sign that changes what
stands before it; then it is read back to sets with the same members, wherever
it stands between brackets. So the pattern of a set compiles to a set with its
members.
-/
import TextGrammar.Proofs.PatternBrackets
import TextGrammar.Types.Registry

namespace TextGrammar

/-! ## Sets that are built -/

namespace CharSet

/-- A set made with the functions that build sets. -/
inductive Built : CharSet → Prop
  | single (c : Char) : Built (.single c)
  | between (a b : Char) : Built (.between a b)
  | ofString (s : String) : Built (.ofString s)
  | named (name : String) : Built (.named name)
  | unionOf {items : List CharSet} (h : ∀ item ∈ items, Built item) : Built (.unionOf items)
  | interOf {items : List CharSet} (h : ∀ item ∈ items, Built item) : Built (.interOf items)
  | complement {item : CharSet} (h : Built item) : Built item.complement

mutual

/-- The names of the classes in the set. -/
def classNames : CharSet → List String
  | .single _ | .range _ _ | .members _ => []
  | .named name => [name]
  | .union items | .inter items => allClassNames items
  | .compl item => classNames item

def allClassNames : List CharSet → List String
  | [] => []
  | item :: items => classNames item ++ allClassNames items

end

mutual

/-- The bounds of all ranges in the set are in order. -/
def Ordered : CharSet → Prop
  | .single _ | .members _ | .named _ => True
  | .range lo hi => lo ≤ hi
  | .union items | .inter items => OrderedAll items
  | .compl item => Ordered item

def OrderedAll : List CharSet → Prop
  | [] => True
  | item :: items => Ordered item ∧ OrderedAll items

end

theorem orderedAll_iff {items : List CharSet} :
    OrderedAll items ↔ ∀ item ∈ items, item.Ordered := by
  induction items with
  | nil => exact ⟨fun _ _ h => absurd h List.not_mem_nil, fun _ => trivial⟩
  | cons item items ih => rw [OrderedAll, ih, List.forall_mem_cons]

theorem Ordered.unionParts {set : CharSet} (h : set.Ordered) :
    ∀ part ∈ set.unionParts, part.Ordered := by
  cases set with
  | union items => exact orderedAll_iff.mp h
  | _ => exact List.forall_mem_singleton.mpr h

theorem Ordered.interParts {set : CharSet} (h : set.Ordered) :
    ∀ part ∈ set.interParts, part.Ordered := by
  cases set with
  | inter items => exact orderedAll_iff.mp h
  | _ => exact List.forall_mem_singleton.mpr h

/-- The bounds of a range are put in order when it is made. -/
theorem Built.ordered {set : CharSet} (h : set.Built) : set.Ordered := by
  induction h with
  | single | ofString | named => trivial
  | between a b =>
    rw [CharSet.between]
    split
    · next hle => exact hle
    · next hle => exact (Char.le_total a b).resolve_left hle
  | unionOf _ ih =>
    refine orderedAll_iff.mpr fun part hpart => ?_
    obtain ⟨item, hitem, hpart⟩ := List.mem_flatMap.mp hpart
    exact (ih item hitem).unionParts part hpart
  | interOf _ ih =>
    refine orderedAll_iff.mpr fun part hpart => ?_
    obtain ⟨item, hitem, hpart⟩ := List.mem_flatMap.mp hpart
    exact (ih item hitem).interParts part hpart
  | @complement item _ ih => cases item <;> exact ih

end CharSet

namespace Pattern

variable {vocabulary : Vocabulary} {text : Text} {i : Nat} {cs rest : List Char}

/-! ## Characters between brackets -/

/-- Control characters have four digits, which are read back. -/
theorem hex4_control : ∀ n < 160, (PatternChar.hex4 n).toList.length = 4 ∧
    (PatternChar.hex4 n).toList.all CharClasses.isHexDigit = true ∧
    number? 16 (PatternChar.hex4 n).toList = some n := by
  simp only [PatternChar.hex4, String.toList_ofList]
  decide +kernel

section

variable {special : Char → Bool} (hspecial : ∀ c, special c = true →
  c ∉ ['x', 'u', '0', 'p', 'P'] ∧ escapedChar? c = some (.char c))
include hspecial

/-- A character is written as an escape that stands for it, or as itself. -/
theorem escape_cases (c : Char) :
    (∃ x ∉ ['x', 'u', '0', 'p', 'P'], escapedChar? x = some (.char c) ∧
      (PatternChar.escape special c).toList = ['\\', x]) ∨
    (∃ ds : List Char, ds.length = 4 ∧ (∀ d ∈ ds, CharClasses.isHexDigit d = true) ∧
      codedChar? 16 ds = some (.char c) ∧
      (PatternChar.escape special c).toList = '\\' :: 'u' :: ds) ∨
    (special c = false ∧ (PatternChar.escape special c).toList = [c]) := by
  unfold PatternChar.escape
  split
  · next h =>
    obtain rfl := beq_iff_eq.mp h
    exact .inl ⟨'n', by decide, rfl, rfl⟩
  split
  · next h =>
    obtain rfl := beq_iff_eq.mp h
    exact .inl ⟨'t', by decide, rfl, rfl⟩
  split
  · next h =>
    obtain rfl := beq_iff_eq.mp h
    exact .inl ⟨'r', by decide, rfl, rfl⟩
  split
  · next h =>
    obtain ⟨hform, hread⟩ := hspecial c h
    exact .inl ⟨c, hform, hread,
      String.toList_append.trans (congrArg (List.cons '\\') (String.toList_singleton c))⟩
  · next hplain =>
    split
    · next hcontrol =>
      have hlt : c.toNat < 160 := by
        simp only [CharClasses.isControl, Bool.or_eq_true, Bool.and_eq_true, decide_eq_true_eq]
          at hcontrol
        omega
      obtain ⟨hlength, hdigits, hnumber⟩ := hex4_control c.toNat hlt
      refine .inr (.inl ⟨_, hlength, List.all_eq_true.mp hdigits, ?_, String.toList_append⟩)
      rw [codedChar?, hnumber, Option.bind_some, charOf?,
        if_pos (show c.toNat.isValidChar from c.valid), Char.ofNat_toNat]
      rfl
    · exact .inr (.inr ⟨eq_false_of_ne_true hplain, String.toList_singleton c⟩)

/-- A character is found as what it is written as: an escape, or a character of the set. -/
theorem stands_escape (vocabulary : Vocabulary) {set : CharSet} {c : Char}
    (hplain : special c = false → (PatternChar.escape special c).toList = [c] →
      set.contains .standard c = true)
    (hleft : text.LeftAt i ((PatternChar.escape special c).toList ++ rest)) :
    ∃ f, Stands vocabulary text set i f (.char c) ∧
      f.stop = i + (PatternChar.escape special c).toList.length := by
  rcases escape_cases hspecial c with ⟨x, hx, hread, h⟩ | ⟨ds, hlength, hdigits, hread, h⟩ | ⟨hc, h⟩
  · rw [h] at hleft ⊢
    obtain ⟨children, hescape⟩ :
        ∃ children, EscapeAt vocabulary text i children (i + 2) (.char c) :=
      EscapeAt.short hleft hx hread
    exact ⟨_, .escape hescape, rfl⟩
  · rw [h] at hleft ⊢
    obtain ⟨children, hescape⟩ :
        ∃ children, EscapeAt vocabulary text i children (i + 6) (.char c) :=
      EscapeAt.code hleft hlength hdigits hread
    exact ⟨_, .escape hescape, by simp only [List.length_cons, hlength]⟩
  · have hset := hplain hc h
    rw [h] at hleft ⊢
    exact ⟨_, .plain hleft.get hset, rfl⟩

end

/-- The signs between brackets stand for themselves after a backslash. -/
theorem specialInSet_escaped (c : Char) (h : PatternChar.isSpecialInSet c = true) :
    c ∉ ['x', 'u', '0', 'p', 'P'] ∧ escapedChar? c = some (.char c) := by
  simp only [PatternChar.isSpecialInSet, Bool.or_eq_true, beq_iff_eq] at h
  rcases h with ((((rfl | rfl) | rfl) | rfl) | rfl) | rfl
  all_goals exact ⟨by decide, rfl⟩

/-- What begins so neither makes a range of what stands before it nor negates a set. -/
def Opens (cs : List Char) : Prop := ∀ c, cs.head? = some c → c ≠ '-' ∧ c ≠ '^'

namespace Opens

theorem nil : Opens [] := fun _ h => by cases h

theorem cons {c : Char} (h : c ≠ '-' ∧ c ≠ '^') : Opens (c :: cs) := fun d hd => by
  obtain rfl := Option.some.inj hd
  exact h

theorem append (h : Opens cs) (h' : Opens rest) : Opens (cs ++ rest) := by
  cases cs with
  | nil => exact h'
  | cons c cs => exact h

theorem no_hyphen (h : Opens rest) (hleft : text.LeftAt i rest) : text[i]? ≠ some '-' :=
  fun hget => (h _ (hleft.head.symm.trans hget)).1 rfl

end Opens

theorem inSet_opens (c : Char) (rest : List Char) :
    Opens ((PatternChar.inSet c).toList ++ rest) := by
  rcases escape_cases specialInSet_escaped c with ⟨x, -, -, h⟩ | ⟨ds, -, -, -, h⟩ | ⟨hspecial, h⟩
  · exact (show (PatternChar.inSet c).toList = _ from h) ▸ .cons (by decide)
  · exact (show (PatternChar.inSet c).toList = _ from h) ▸ .cons (by decide)
  · refine (show (PatternChar.inSet c).toList = _ from h) ▸ .cons ⟨?_, ?_⟩ <;> rintro rfl <;>
      cases hspecial

/-- A character is found between brackets as what stands for it. -/
theorem stands_inSet (vocabulary : Vocabulary) {c : Char}
    (hleft : text.LeftAt i ((PatternChar.inSet c).toList ++ rest)) :
    ∃ f, Stands vocabulary text plainInSet i f (.char c) ∧
      f.stop = i + (PatternChar.inSet c).toList.length := by
  refine stands_escape specialInSet_escaped vocabulary (fun hspecial _ => ?_) hleft
  simp only [PatternChar.isSpecialInSet, Bool.or_eq_false_iff, beq_eq_false_iff_ne] at hspecial
  obtain ⟨⟨⟨⟨⟨hopen, hclose⟩, hslash⟩, -⟩, -⟩, hand⟩ := hspecial
  rw [show plainInSet = .compl (.members ['&', '[', '\\', ']']) from rfl]
  simp [CharSet.contains, hopen, hclose, hslash, hand]

/-! ## Items -/

theorem toList_displayItem_range (lo hi : Char) : (CharSet.range lo hi).displayItem.toList =
    (PatternChar.inSet lo).toList ++ '-' :: (PatternChar.inSet hi).toList := by
  simp only [CharSet.displayItem, String.toList_append, List.append_assoc]
  rfl

theorem toList_displayItem_members (cs : List Char) : (CharSet.members cs).displayItem.toList =
    cs.flatMap fun c => (PatternChar.inSet c).toList := by
  simp only [CharSet.displayItem, String.toList_join, List.flatMap_map]

theorem toList_displayClass (name : String) : (CharSet.displayClass name).toList =
    '\\' :: 'p' :: '\x7b' :: (name.toList ++ ['\x7d']) := by
  simp only [CharSet.displayClass, String.toList_append]
  rfl

/-- Items with the sign for another part before each. -/
def laterItems (items : List CharSet) : List Char :=
  items.flatMap fun item => '&' :: '&' :: item.displayItem.toList

theorem toList_displayParts (item : CharSet) (items : List CharSet) :
    (CharSet.displayParts (item :: items)).toList =
      item.displayItem.toList ++ laterItems items := by
  induction items generalizing item with
  | nil => exact (List.append_nil _).symm
  | cons next items ih =>
    rw [CharSet.displayParts, String.toList_append, String.toList_append, ih, List.append_assoc]
    · rfl
    · exact List.cons_ne_nil _ _

/-- The sign for a complement, where there is one. -/
def caret (negated : Bool) : List Char := if negated then ['^'] else []

/-- Parts in brackets. -/
def inBrackets (negated : Bool) (parts : List CharSet) : List Char :=
  '[' :: (caret negated ++ ((CharSet.displayParts parts).toList ++ [']']))

theorem toList_displayItem_inter (items : List CharSet) :
    (CharSet.inter items).displayItem.toList = inBrackets false items := by
  simp only [CharSet.displayItem, String.toList_append, List.append_assoc]
  rfl

theorem toList_displayItem_compl (item : CharSet) :
    (CharSet.compl item).displayItem.toList = inBrackets true [item] := by
  simp only [CharSet.displayItem, String.toList_append, List.append_assoc]
  rfl

mutual

theorem displayItem_opens : ∀ set : CharSet, Opens set.displayItem.toList
  | .single c => List.append_nil (PatternChar.inSet c).toList ▸ inSet_opens c []
  | .range lo hi => by
    rw [toList_displayItem_range]
    exact inSet_opens lo _
  | .members [] => .nil
  | .members (c :: cs) => by
    rw [toList_displayItem_members, List.flatMap_cons]
    exact inSet_opens c _
  | .named name => by
    rw [CharSet.displayItem, toList_displayClass]
    exact .cons (by decide)
  | .union items => displayItems_opens items
  | .inter items => by
    rw [toList_displayItem_inter]
    exact .cons (by decide)
  | .compl item => by
    rw [toList_displayItem_compl]
    exact .cons (by decide)

theorem displayItems_opens : ∀ items : List CharSet, Opens (CharSet.displayItems items).toList
  | [] => .nil
  | item :: items => by
    rw [CharSet.displayItems, String.toList_append]
    exact (displayItem_opens item).append (displayItems_opens items)

end

/-! ## Sets between brackets -/

/-- Where the set is written between brackets, it is read to sets that have together what it has,
unless what follows changes it. -/
def ReadsBack (vocabulary : Vocabulary) (set : CharSet) : Prop :=
  ∀ (text : Text) (i : Nat) (rest : List Char),
    text.LeftAt i (set.displayItem.toList ++ rest) → Opens rest →
      ∃ nodes sets, Items vocabulary text i nodes sets (i + set.displayItem.toList.length) ∧
        ∀ c, (CharSet.union sets).contains vocabulary.classes c = set.contains vocabulary.classes c

theorem contains_union_singleton {classes : CharClasses} {c : Char} {set : CharSet} :
    (CharSet.union [set]).contains classes c = set.contains classes c := Bool.or_false _

theorem contains_union_append {classes : CharClasses} {c : Char} {sets others : List CharSet} :
    (CharSet.union (sets ++ others)).contains classes c =
      ((CharSet.union sets).contains classes c || (CharSet.union others).contains classes c) := by
  simp only [CharSet.contains, CharSet.containsAny_eq_any, List.any_append]

theorem contains_unionOf {classes : CharClasses} {c : Char} {sets : List CharSet} :
    (CharSet.unionOf sets).contains classes c = (CharSet.union sets).contains classes c := by
  rw [Bool.eq_iff_iff, CharSet.unionOf, CharSet.contains_union, CharSet.contains_union]
  constructor
  · rintro ⟨part, hpart, hc⟩
    obtain ⟨set, hset, hpart⟩ := List.mem_flatMap.mp hpart
    exact ⟨set, hset, CharSet.contains_unionParts.mpr ⟨part, hpart, hc⟩⟩
  · rintro ⟨set, hset, hc⟩
    obtain ⟨part, hpart, hc⟩ := CharSet.contains_unionParts.mp hc
    exact ⟨part, List.mem_flatMap.mpr ⟨set, hset, hpart⟩, hc⟩

/-- One item that has what the set has. -/
theorem reads_one {classes : CharClasses} {set set' : CharSet} {j : Nat}
    (h : ∃ nodes, Items vocabulary text i nodes [set'] j)
    (hsame : ∀ c, set'.contains classes c = set.contains classes c) :
    ∃ nodes sets, Items vocabulary text i nodes sets j ∧
      ∀ c, (CharSet.union sets).contains classes c = set.contains classes c := by
  obtain ⟨nodes, hitems⟩ := h
  exact ⟨nodes, _, hitems, fun c => contains_union_singleton.trans (hsame c)⟩

namespace ReadsBack

variable {set : CharSet}

/-- A set that is written as nothing. -/
theorem empty (hdisplay : set.displayItem.toList = [])
    (hcontains : ∀ c, set.contains vocabulary.classes c = false) : ReadsBack vocabulary set := by
  intro text i rest _ _
  rw [hdisplay]
  exact ⟨[], [], .nil i, fun c => (hcontains c).symm⟩

/-- A set that is written as two sets one after the other. -/
theorem append {first later : CharSet}
    (hdisplay : set.displayItem.toList = first.displayItem.toList ++ later.displayItem.toList)
    (hcontains : ∀ c, set.contains vocabulary.classes c =
      (first.contains vocabulary.classes c || later.contains vocabulary.classes c))
    (h : ReadsBack vocabulary first) (h' : ReadsBack vocabulary later) :
    ReadsBack vocabulary set := by
  intro text i rest hleft hopens
  rw [hdisplay, List.append_assoc] at hleft
  obtain ⟨nodes, sets, hitems, hsets⟩ := h text i _ hleft ((displayItem_opens later).append hopens)
  obtain ⟨nodes', sets', hitems', hsets'⟩ := h' text _ rest hleft.skip hopens
  rw [hdisplay, List.length_append, ← Nat.add_assoc]
  refine ⟨_, _, hitems.append hitems', fun c => ?_⟩
  rw [contains_union_append, hsets, hsets', hcontains]

theorem single (c : Char) : ReadsBack vocabulary (.single c) := by
  intro text i rest hleft hopens
  obtain ⟨f, hstands, hstop⟩ := stands_inSet vocabulary hleft
  have hnext : text.LeftAt f.stop rest := hstop ▸ hleft.skip
  have hitems := Items.character hstands (hopens.no_hyphen hnext) trivial
  rw [hstop] at hitems
  exact reads_one hitems fun _ => rfl

theorem members : ∀ cs : List Char, ReadsBack vocabulary (.members cs)
  | [] => .empty rfl fun _ => rfl
  | c :: cs => by
    refine .append ?_ (fun d => ?_) (single c) (members cs)
    · rw [toList_displayItem_members, toList_displayItem_members, List.flatMap_cons]
      rfl
    · rw [CharSet.contains, CharSet.contains, CharSet.contains, List.contains_cons, BEq.comm]

theorem union : ∀ {items : List CharSet}, (∀ item ∈ items, ReadsBack vocabulary item) →
    ReadsBack vocabulary (.union items)
  | [], _ => .empty rfl fun _ => rfl
  | item :: items, h => by
    obtain ⟨hitem, hitems⟩ := List.forall_mem_cons.mp h
    refine .append ?_ (fun _ => rfl) hitem (union hitems)
    rw [CharSet.displayItem, CharSet.displayItems, String.toList_append, CharSet.displayItem]

/-- A range whose bounds are in order. -/
theorem range {lo hi : Char} (h : lo ≤ hi) : ReadsBack vocabulary (.range lo hi) := by
  intro text i rest hleft _
  rw [toList_displayItem_range, List.append_assoc, List.cons_append] at hleft
  obtain ⟨f, hlo, hstop⟩ := stands_inSet vocabulary hleft
  have hnext := hleft.skip
  rw [← hstop] at hnext
  obtain ⟨g, hhi, hstop'⟩ := stands_inSet vocabulary hnext.next
  have hend : g.stop = i + (CharSet.range lo hi).displayItem.toList.length := by
    rw [toList_displayItem_range, List.length_append, List.length_cons]
    omega
  rw [← hend]
  refine reads_one (Items.range hlo hnext.get hhi) fun c => ?_
  rw [CharSet.between, if_pos h]

theorem named {name : String} (hname : '\x7d' ∉ name.toList)
    (hclass : vocabulary.classes.has name = true) : ReadsBack vocabulary (.named name) := by
  intro text i rest hleft hopens
  have hlength : (CharSet.named name).displayItem.toList.length = name.toList.length + 4 := by
    simp only [CharSet.displayItem, toList_displayClass, List.length_cons, List.length_append,
      List.length_nil]
  have hnext := hleft.skip
  rw [CharSet.displayItem, toList_displayClass] at hleft
  obtain ⟨children, hescape⟩ := EscapeAt.named hleft hname (by rwa [String.ofList_toList])
  rw [Nat.add_assoc, ← hlength, String.ofList_toList] at hescape
  exact reads_one (Items.character (.escape hescape) (hopens.no_hyphen hnext) trivial) fun _ => rfl

end ReadsBack

/-! ## Sets in brackets -/

theorem laterItems_head (parts : List CharSet) (rest : List Char) :
    ∃ x cs, laterItems parts ++ ']' :: rest = x :: cs ∧ (x = ']' ∨ x = '&') := by
  cases parts with
  | nil => exact ⟨']', rest, rfl, .inl rfl⟩
  | cons part parts => exact ⟨'&', _, rfl, .inr rfl⟩

theorem laterItems_end {parts : List CharSet}
    (hleft : text.LeftAt i (laterItems parts ++ ']' :: rest)) :
    ∀ x, text[i]? = some x → x = ']' ∨ x = '&' := by
  intro x hx
  obtain ⟨y, cs, hcs, hy⟩ := laterItems_head parts rest
  rw [hcs] at hleft
  exact Option.some.inj (hleft.get.symm.trans hx) ▸ hy

theorem laterItems_opens (parts : List CharSet) (rest : List Char) :
    Opens (laterItems parts ++ ']' :: rest) := by
  obtain ⟨x, cs, hcs, hx⟩ := laterItems_head parts rest
  rw [hcs]
  rcases hx with rfl | rfl <;> exact .cons (by decide)

/-- Parts after the first one are read to parts that each have what it has. -/
theorem read_laterItems {parts : List CharSet} (h : ∀ part ∈ parts, ReadsBack vocabulary part)
    (hleft : text.LeftAt i (laterItems parts ++ ']' :: rest)) :
    ∃ nodes sets, Parts vocabulary text i nodes sets (i + (laterItems parts).length) ∧
      ∀ c, sets.all (·.contains vocabulary.classes c) =
        parts.all (·.contains vocabulary.classes c) := by
  induction parts generalizing i with
  | nil => exact ⟨[], [], .nil i, fun _ => rfl⟩
  | cons part parts ih =>
    obtain ⟨hpart, hparts⟩ := List.forall_mem_cons.mp h
    have hsign : text.hasAt i ['&', '&'] = true := Text.hasAt_iff.mpr ⟨_, hleft.symm⟩
    have hlater : text.LeftAt (i + 2)
        (part.displayItem.toList ++ (laterItems parts ++ ']' :: rest)) := by
      rw [← List.append_assoc]
      exact hleft.next.next
    obtain ⟨nodes, sets, hitems, hsets⟩ := hpart text _ _ hlater (laterItems_opens parts rest)
    obtain ⟨nodes', others, hothers, hsame⟩ := ih hparts hlater.skip
    have hlength : i + (laterItems (part :: parts)).length =
        i + 2 + part.displayItem.toList.length + (laterItems parts).length := by
      have hcons : laterItems (part :: parts) =
          '&' :: '&' :: (part.displayItem.toList ++ laterItems parts) := rfl
      rw [hcons, List.length_cons, List.length_cons, List.length_append]
      omega
    rw [hlength]
    refine ⟨_, _, .cons hsign hitems (laterItems_end hlater.skip) hothers, fun c => ?_⟩
    rw [List.all_cons, List.all_cons, contains_unionOf, hsets, hsame]

/-- What the set is written as in brackets: parts that have together what it has. -/
inductive Bracketed (vocabulary : Vocabulary) (set : CharSet) : List Char → Prop
  | parts {negated : Bool} {part : CharSet} {parts : List CharSet}
    (h : ∀ p ∈ part :: parts, ReadsBack vocabulary p)
    (hcontains : ∀ c, (negated ^^ (part :: parts).all (·.contains vocabulary.classes c)) =
      set.contains vocabulary.classes c) :
    Bracketed vocabulary set (inBrackets negated (part :: parts))

namespace Bracketed

variable {set : CharSet}

/-- It is read to a set with the same members. -/
theorem reads (h : Bracketed vocabulary set cs) (hleft : text.LeftAt i (cs ++ rest)) :
    ∃ children set', BracketAt vocabulary text i children (i + cs.length) set' ∧
      ∀ c, set'.contains vocabulary.classes c = set.contains vocabulary.classes c := by
  obtain @⟨negated, part, parts, h, hcontains⟩ := h
  obtain ⟨hpart, hparts⟩ := List.forall_mem_cons.mp h
  have hopens := laterItems_opens parts rest
  have hinside : text.LeftAt (i + 1) (caret negated ++
      (part.displayItem.toList ++ (laterItems parts ++ ']' :: rest))) := by
    simp only [inBrackets, toList_displayParts, List.cons_append, List.append_assoc] at hleft
    exact hleft.next
  have hsign : text[i + 1]? = some '^' ↔ negated = true := by
    cases negated with
    | true => exact iff_of_true hinside.get rfl
    | false =>
      refine iff_of_false (fun hget => ?_) Bool.false_ne_true
      exact ((displayItem_opens part).append hopens _ (hinside.head.symm.trans hget)).2 rfl
  have hitemsLeft : text.LeftAt (negation negated (i + 1)).stop
      (part.displayItem.toList ++ (laterItems parts ++ ']' :: rest)) := by
    cases negated with
    | true => exact hinside.skip
    | false => exact hinside
  obtain ⟨nodes, sets, hitems, hsets⟩ := hpart text _ _ hitemsLeft hopens
  have hpartsLeft := hitemsLeft.skip
  obtain ⟨later, others, hothers, hsame⟩ := read_laterItems hparts hpartsLeft
  obtain ⟨children, hbracket⟩ := BracketAt.of_parts hleft.get hsign hitems
    (laterItems_end hpartsLeft) hothers hpartsLeft.skip.get
  have hlength : i + (inBrackets negated (part :: parts)).length =
      (negation negated (i + 1)).stop + part.displayItem.toList.length +
        (laterItems parts).length + 1 := by
    have hcaret : (negation negated (i + 1)).stop = i + 1 + (caret negated).length := by
      cases negated <;> rfl
    simp only [inBrackets, toList_displayParts, List.length_cons, List.length_append,
      List.length_nil, hcaret]
    omega
  rw [hlength]
  refine ⟨children, _, hbracket, fun c => ?_⟩
  rw [contains_bracketed negated (List.cons_ne_nil _ _) (List.forall_mem_cons.mpr
    ⟨noEmptyInter_unionOf hitems.kept, hothers.kept⟩), List.all_cons, contains_unionOf, hsets,
    hsame, ← hcontains, List.all_cons]

theorem readsBack (h : Bracketed vocabulary set set.displayItem.toList) :
    ReadsBack vocabulary set := by
  intro text i rest hleft _
  obtain ⟨children, set', hbracket, hset'⟩ := h.reads hleft
  exact reads_one (Items.nested hbracket) hset'

/-- Brackets around a set. -/
theorem around (h : ReadsBack vocabulary set) :
    Bracketed vocabulary set (inBrackets false [set]) :=
  .parts (List.forall_mem_singleton.mpr h) fun c => by
    rw [List.all_cons, List.all_nil, Bool.and_true, Bool.false_xor]

theorem compl {item : CharSet} (h : ReadsBack vocabulary item) :
    Bracketed vocabulary (.compl item) (CharSet.compl item).displayItem.toList := by
  rw [toList_displayItem_compl]
  refine .parts (List.forall_mem_singleton.mpr h) fun c => ?_
  rw [List.all_cons, List.all_nil, Bool.and_true, Bool.true_xor, CharSet.contains]

/-- An intersection of nothing is written as brackets around nothing, which is a union. -/
theorem inter : ∀ {items : List CharSet}, (∀ item ∈ items, ReadsBack vocabulary item) →
    Bracketed vocabulary (.inter items) (CharSet.inter items).displayItem.toList
  | [], _ => by
    rw [toList_displayItem_inter]
    have hnothing : ReadsBack vocabulary (.union []) :=
      .union fun _ h => absurd h List.not_mem_nil
    exact .parts (List.forall_mem_singleton.mpr hnothing) fun _ => rfl
  | item :: items, h => by
    rw [toList_displayItem_inter]
    refine .parts h fun c => ?_
    rw [Bool.false_xor, CharSet.contains, CharSet.containsAll_eq_all]
    rfl

end Bracketed

mutual

/-- Sets whose ranges are in order and whose classes are known are read back. -/
theorem readsBack : ∀ {set : CharSet}, set.Ordered → (∀ name ∈ set.classNames,
    '\x7d' ∉ name.toList ∧ vocabulary.classes.has name = true) → ReadsBack vocabulary set
  | .single c, _, _ => .single c
  | .range _ _, hle, _ => .range hle
  | .members cs, _, _ => .members cs
  | .named name, _, hnames =>
    let ⟨hname, hclass⟩ := hnames name List.mem_cons_self
    .named hname hclass
  | .union _, h, hnames => .union (readsBackAll h hnames)
  | .inter _, h, hnames => (Bracketed.inter (readsBackAll h hnames)).readsBack
  | .compl item, h, hnames =>
    have hitem : ReadsBack vocabulary item := readsBack h hnames
    (Bracketed.compl hitem).readsBack

theorem readsBackAll : ∀ {items : List CharSet}, CharSet.OrderedAll items →
    (∀ name ∈ CharSet.allClassNames items,
      '\x7d' ∉ name.toList ∧ vocabulary.classes.has name = true) →
    ∀ item ∈ items, ReadsBack vocabulary item
  | [], _, _ => fun _ h => nomatch h
  | _ :: _, h, hnames => List.forall_mem_cons.mpr
    ⟨readsBack h.1 fun name hname => hnames name (List.mem_append_left _ hname),
      readsBackAll h.2 fun name hname => hnames name (List.mem_append_right _ hname)⟩

end

/-! ## Patterns -/

section

variable {stop : Nat} {children : List Node} {set : CharSet}

/-- A set in brackets as an item of its own. -/
theorem readPieces_charSet
    (h : readSet vocabulary text (categoryNode "charSet" i stop children) = .ok set) :
    readPieces vocabulary text [categoryNode "item" i stop
      [categoryNode "charSet" i stop children]] = .ok [.entry (.ofChecker (.char set))] := by
  have hread : readPieces vocabulary text [categoryNode "item" i stop
      [categoryNode "charSet" i stop children]] =
      ((readSet vocabulary text (categoryNode "charSet" i stop children) >>= fun set =>
        pure (Piece.entry ((Entry.ofChecker (.char set)).quantified .one))) >>=
          fun piece => Except.ok [] >>= fun pieces => pure (piece :: pieces)) := rfl
  rw [hread, h]
  rfl

/-- An escape for a class as an item of its own. -/
theorem readPieces_class
    (h : readEscape vocabulary ⟨text, categoryNode "escape" i stop children, 0⟩ =
      .ok (.set set)) :
    readPieces vocabulary text [categoryNode "item" i stop
      [categoryNode "escape" i stop children]] = .ok [.entry (.ofChecker (.char set))] := by
  have hread : readPieces vocabulary text [categoryNode "item" i stop
      [categoryNode "escape" i stop children]] =
      ((readEscape vocabulary ⟨text, categoryNode "escape" i stop children, 0⟩ >>= _) >>=
        fun piece => Except.ok [] >>= fun pieces => pure (piece :: pieces)) := rfl
  rw [hread, h]
  rfl

end

/-- A pattern that is a set in brackets. -/
theorem Bracketed.compile {pattern : String} {set : CharSet}
    (h : Bracketed vocabulary set pattern.toList) :
    ∃ set', Grammar.compile vocabulary pattern = .ok ⟨[.ofChecker (.char set')]⟩ ∧
      ∀ c, set'.contains vocabulary.classes c = set.contains vocabulary.classes c := by
  have hleft : (Text.ofString pattern).LeftAt 0 (pattern.toList ++ []) := by
    rw [List.append_nil]
    exact .ofString pattern
  obtain ⟨children, set', hbracket, hset'⟩ := h.reads hleft
  have hsize := hleft.size (Nat.zero_le _)
  rw [List.append_nil] at hsize
  refine ⟨set', ?_, hset'⟩
  rw [compile_construct hbracket.opens (by decide) (by rfl) hbracket.step hsize
    (.node hbracket.sound (by decide)), readPieces_charSet hbracket.reads]
  rfl

/-- A pattern that is a class by its name. -/
theorem compile_named {name : String} (hname : '\x7d' ∉ name.toList)
    (hclass : vocabulary.classes.has name = true) :
    Grammar.compile vocabulary (CharSet.displayClass name) =
      .ok ⟨[.ofChecker (.char (.named name))]⟩ := by
  let pattern := CharSet.displayClass name
  have hleft : (Text.ofString pattern).LeftAt 0
      ('\\' :: 'p' :: '\x7b' :: (name.toList ++ ['\x7d']) ++ []) := by
    rw [List.append_nil, ← toList_displayClass]
    exact .ofString pattern
  obtain ⟨children, hescape⟩ := EscapeAt.named hleft hname (by rwa [String.ofList_toList])
  have hsize : 0 + name.toList.length + 4 = (Text.ofString pattern).size := by
    have hlength := hleft.size (Nat.zero_le _)
    simp only [List.length_cons, List.length_append, List.length_nil] at hlength
    omega
  rw [compile_construct hleft.get (by decide) (by rfl) hescape.step hsize
    (.node hescape.leaves.sound (by decide)), readPieces_class (hescape.reads 0),
    String.ofList_toList]
  rfl

/-- The pattern of a set that is no single character is a set with the same members. -/
theorem compile_set_display {set : CharSet} (hordered : set.Ordered)
    (hsingle : ∀ c, set ≠ .single c) (hnames : ∀ name ∈ set.classNames,
      '\x7d' ∉ name.toList ∧ vocabulary.classes.has name = true) :
    ∃ set', Grammar.compile vocabulary set.display = .ok ⟨[.ofChecker (.char set')]⟩ ∧
      ∀ c, set'.contains vocabulary.classes c = set.contains vocabulary.classes c := by
  have haround : Bracketed vocabulary set ("[" ++ set.displayItem ++ "]").toList := by
    rw [String.toList_append, String.toList_append, List.append_assoc]
    exact .around (readsBack hordered hnames)
  cases set with
  | single c => exact absurd rfl (hsingle c)
  | named name =>
    obtain ⟨hname, hclass⟩ := hnames name List.mem_cons_self
    rw [CharSet.display, CharSet.displayItem]
    exact ⟨_, compile_named hname hclass, fun _ => rfl⟩
  | inter items =>
    rw [CharSet.display]
    exact (Bracketed.inter (readsBackAll hordered hnames)).compile
  | compl item =>
    have hitem : ReadsBack vocabulary item := readsBack hordered hnames
    rw [CharSet.display]
    exact (Bracketed.compl hitem).compile
  | range | members | union => exact haround.compile

end Pattern

/-- No name of a standard class ends the escape for the class. -/
theorem CharClasses.standard_names {name : String} (h : CharClasses.standard.has name = true) :
    '\x7d' ∉ name.toList := by
  revert h
  simp only [has, standard]
  unfold standardClass?
  split
  all_goals first | decide | exact fun h => nomatch h

/-- **Character sets survive printing and compiling.** The pattern of a set that is built with the
functions for it, that is no single character and whose classes are standard ones compiles to one
set, without a name and a quantifier, that has the same members. -/
theorem TypeRegistry.compile_display_set {set : CharSet} (hbuilt : set.Built)
    (hsingle : ∀ c, set ≠ .single c)
    (hnames : ∀ name ∈ set.classNames, CharClasses.standard.has name = true) :
    ∃ set', TypeRegistry.standard.compile set.display = .ok ⟨[.ofChecker (.char set')]⟩ ∧
      ∀ c, set'.contains .standard c = set.contains .standard c :=
  Pattern.compile_set_display hbuilt.ordered hsingle fun name hname =>
    ⟨CharClasses.standard_names (hnames name hname), hnames name hname⟩

/-- All but a range the wrong way, the signs of sets, a line break and the digits, together with a
control character or nothing at all. -/
theorem TypeRegistry.signs_compile_set :
    let set := CharSet.interOf [
      .complement (.unionOf [.between 'z' 'a', .ofString "]-^&[\\\n", .named "digit"]),
      .unionOf [.single '\x7f', .interOf [], .complement (.ofString "-")]]
    set.Built ∧ (∀ c, set ≠ .single c) ∧
      (∀ name ∈ set.classNames, CharClasses.standard.has name = true) ∧
      ∃ set', TypeRegistry.standard.compile set.display = .ok ⟨[.ofChecker (.char set')]⟩ ∧
        ∀ c, set'.contains .standard c = set.contains .standard c := by
  intro set
  have hbuilt : set.Built := by
    refine .interOf (List.forall_mem_cons.mpr ⟨.complement (.unionOf ?_),
      List.forall_mem_singleton.mpr (.unionOf ?_)⟩)
    · exact List.forall_mem_cons.mpr ⟨.between _ _, List.forall_mem_cons.mpr
        ⟨.ofString _, List.forall_mem_singleton.mpr (.named _)⟩⟩
    · exact List.forall_mem_cons.mpr ⟨.single _, List.forall_mem_cons.mpr
        ⟨.interOf (List.forall_mem_nil _), List.forall_mem_singleton.mpr
          (.complement (.ofString _))⟩⟩
  have hsingle : ∀ c, set ≠ .single c := fun c heq => CharSet.noConfusion heq
  have hnames : ∀ name ∈ set.classNames, CharClasses.standard.has name = true := by decide
  exact ⟨hbuilt, hsingle, hnames, compile_display_set hbuilt hsingle hnames⟩

end TextGrammar
