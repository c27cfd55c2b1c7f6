/-
A simplified set leaves nothing to simplify. One pass is enough although a
simplified item may open up something more, being a union, a complement or a
list now: items are simplified before the set they stand in, and what they have
become is merged, cancelled or listed there.
-/
import TextGrammar.Proofs.SetMembership

namespace TextGrammar.CharSet

/-! ## What can be simplified -/

/-- The sets a set is directly made of. -/
def items : CharSet → List CharSet
  | .single _ | .range _ _ | .members _ | .named _ => []
  | .union items | .inter items => items
  | .compl item => [item]

/-- The first set is the other one, or stands in it at some depth. -/
inductive Within (part : CharSet) : CharSet → Prop where
  | whole : Within part part
  | inItem {set item : CharSet} (hitem : item ∈ set.items) (h : Within part item) : Within part set

/-- The set names its characters one by one. -/
inductive IsListing : CharSet → Prop where
  | single (c : Char) : IsListing (.single c)
  | members (cs : List Char) : IsListing (.members cs)

/-- The set itself, whatever stands in it, is not written as simply as it could be. -/
inductive Reducible : CharSet → Prop where
  | unionInUnion {items inner : List CharSet} (h : .union inner ∈ items) : Reducible (.union items)
  | interInInter {items inner : List CharSet} (h : .inter inner ∈ items) : Reducible (.inter items)
  | complOfCompl (item : CharSet) : Reducible (.compl (.compl item))
  | unionOfOne (item : CharSet) : Reducible (.union [item])
  | interOfOne (item : CharSet) : Reducible (.inter [item])
  | unionRepeats {items : List CharSet} (h : ¬ items.Nodup) : Reducible (.union items)
  | interRepeats {items : List CharSet} (h : ¬ items.Nodup) : Reducible (.inter items)
  | soleMember (c : Char) : Reducible (.members [c])
  | unionOfListings {items : List CharSet} (hlength : 2 ≤ items.length)
      (h : ∀ item ∈ items, item.IsListing) : Reducible (.union items)

/-- Nothing in the set can be written more simply. -/
def Simplest (set : CharSet) : Prop := ∀ part : CharSet, part.Within set → ¬ part.Reducible

theorem simplest_iff {set : CharSet} :
    set.Simplest ↔ ¬ set.Reducible ∧ ∀ item ∈ set.items, item.Simplest := by
  constructor
  · exact fun h => ⟨h set .whole, fun item hitem part hpart => h part (.inItem hitem hpart)⟩
  · rintro ⟨hset, hitems⟩ part hpart
    cases hpart with
    | whole => exact hset
    | inItem hitem hpart => exact hitems _ hitem part hpart

namespace Simplest

theorem single (c : Char) : Simplest (.single c) :=
  simplest_iff.mpr ⟨(nomatch ·), List.forall_mem_nil _⟩

theorem range (lo hi : Char) : Simplest (.range lo hi) :=
  simplest_iff.mpr ⟨(nomatch ·), List.forall_mem_nil _⟩

theorem named (name : String) : Simplest (.named name) :=
  simplest_iff.mpr ⟨(nomatch ·), List.forall_mem_nil _⟩

theorem members {cs : List Char} (h : ∀ c, cs ≠ [c]) : Simplest (.members cs) := by
  refine simplest_iff.mpr ⟨fun hcs => ?_, List.forall_mem_nil _⟩
  cases hcs with
  | soleMember c => exact h c rfl

theorem ofMembers (cs : List Char) : (CharSet.ofMembers cs).Simplest := by
  rw [CharSet.ofMembers]
  split
  · exact .single _
  · next hcs => exact .members hcs

/-- The parts of such a set, if it is a union, are such sets and no unions. -/
theorem unionParts {set : CharSet} (h : set.Simplest) :
    ∀ part ∈ set.unionParts, part.Simplest ∧ ∀ inner, part ≠ .union inner := by
  obtain ⟨hset, hitems⟩ := simplest_iff.mp h
  cases set with
  | union items =>
    intro part hpart
    refine ⟨hitems part hpart, ?_⟩
    rintro inner rfl
    exact hset (.unionInUnion hpart)
  | _ => exact List.forall_mem_singleton.mpr ⟨h, fun _ heq => nomatch heq⟩

/-- The parts of such a set, if it is an intersection, are such sets and no intersections. -/
theorem interParts {set : CharSet} (h : set.Simplest) :
    ∀ part ∈ set.interParts, part.Simplest ∧ ∀ inner, part ≠ .inter inner := by
  obtain ⟨hset, hitems⟩ := simplest_iff.mp h
  cases set with
  | inter items =>
    intro part hpart
    refine ⟨hitems part hpart, ?_⟩
    rintro inner rfl
    exact hset (.interInInter hpart)
  | _ => exact List.forall_mem_singleton.mpr ⟨h, fun _ heq => nomatch heq⟩

theorem complement {set : CharSet} (h : set.Simplest) : set.complement.Simplest := by
  cases set with
  | compl item => exact (simplest_iff.mp h).2 item (List.mem_singleton.mpr rfl)
  | _ =>
    refine simplest_iff.mpr ⟨fun hset => ?_, List.forall_mem_singleton.mpr h⟩
    cases hset

end Simplest

/-! ## Listings -/

theorem isListing_iff {set : CharSet} : set.IsListing ↔ ∃ cs, set.listed? = some cs := by
  constructor
  · rintro (⟨c⟩ | ⟨cs⟩)
    · exact ⟨[c], rfl⟩
    · exact ⟨cs, rfl⟩
  · rintro ⟨cs, h⟩
    cases set with
    | single c => exact .single c
    | members cs => exact .members cs
    | _ => cases h

/-- The characters of all items are listed where each item is a listing. -/
theorem allListed?_eq_some_iff {items : List CharSet} :
    (∃ cs, allListed? items = some cs) ↔ ∀ item ∈ items, item.IsListing := by
  induction items with
  | nil => exact ⟨fun _ => List.forall_mem_nil _, fun _ => ⟨[], rfl⟩⟩
  | cons item items ih =>
    rw [List.forall_mem_cons, ← ih, isListing_iff]
    simp only [allListed?, Option.bind_eq_bind, Option.bind_eq_some_iff]
    constructor
    · rintro ⟨_, cs, hcs, ds, hds, _⟩
      exact ⟨⟨cs, hcs⟩, ⟨ds, hds⟩⟩
    · rintro ⟨⟨cs, hcs⟩, ⟨ds, hds⟩⟩
      exact ⟨cs ++ ds, cs, hcs, ds, hds, rfl⟩

/-! ## Items, each once -/

theorem nodup_eraseDups (items : List CharSet) : items.eraseDups.Nodup := by
  match items with
  | [] => exact List.nodup_nil
  | item :: items =>
    rw [List.eraseDups_cons, List.nodup_cons]
    refine ⟨fun hmem => ?_, nodup_eraseDups (items.filter fun other => !other == item)⟩
    have hother := (List.mem_filter.mp (List.mem_eraseDups.mp hmem)).2
    rw [beq_self_eq_true] at hother
    cases hother
termination_by items.length
decreasing_by exact Nat.lt_succ_of_le (List.length_filter_le _ _)

theorem eraseDups_of_nodup {items : List CharSet} (h : items.Nodup) : items.eraseDups = items := by
  induction items with
  | nil => rfl
  | cons item items ih =>
    obtain ⟨hitem, hitems⟩ := List.nodup_cons.mp h
    have hothers : items.filter (fun other => !other == item) = items := by
      refine List.filter_eq_self.mpr fun other hother => ?_
      rw [Bool.not_eq_true', beq_eq_false_iff_ne]
      exact ne_of_mem_of_not_mem hother hitem
    rw [List.eraseDups_cons, hothers, ih hitems]

/-- Items that each are their only part stay as they are. -/
theorem parts_eq_self {parts : CharSet → List CharSet} {items : List CharSet}
    (hnodup : items.Nodup) (h : ∀ item ∈ items, parts item = [item]) :
    (items.flatMap parts).eraseDups = items := by
  have hflat : items.flatMap parts = items := by
    rw [List.flatMap_def, List.map_congr_left h, ← List.flatMap_def, List.flatMap_singleton']
  rw [hflat, eraseDups_of_nodup hnodup]

/-! ## Simplification -/

section

variable {items : List CharSet}

/-- A union of simplest sets is one, or what takes its place. -/
theorem joinSimple_simplest (h : ∀ item ∈ items, item.Simplest) : (joinSimple items).Simplest := by
  have hparts : ∀ part ∈ (items.flatMap unionParts).eraseDups,
      part.Simplest ∧ ∀ inner, part ≠ .union inner := by
    intro part hpart
    obtain ⟨item, hitem, hpart⟩ := mem_parts.mp hpart
    exact (h item hitem).unionParts part hpart
  have hnodup := nodup_eraseDups (items.flatMap unionParts)
  rw [joinSimple]
  generalize (items.flatMap unionParts).eraseDups = parts at hparts hnodup
  split
  · refine simplest_iff.mpr ⟨fun hset => ?_, List.forall_mem_nil _⟩
    cases hset with
    | unionInUnion hinner => cases hinner
    | unionRepeats hrepeats => exact hrepeats List.nodup_nil
    | unionOfListings hlength => cases hlength
  · next part => exact (hparts part List.mem_cons_self).1
  · next parts _ hone =>
    split
    · exact .ofMembers _
    · next hnone =>
      refine simplest_iff.mpr ⟨fun hset => ?_, fun part hpart => (hparts part hpart).1⟩
      cases hset with
      | unionInUnion hinner => exact (hparts _ hinner).2 _ rfl
      | unionOfOne item => exact hone item rfl
      | unionRepeats hrepeats => exact hrepeats hnodup
      | unionOfListings _ hlistings =>
        obtain ⟨cs, hcs⟩ := allListed?_eq_some_iff.mpr hlistings
        rw [hcs] at hnone
        cases hnone

/-- An intersection of simplest sets is one, or what takes its place. -/
theorem meetSimple_simplest (h : ∀ item ∈ items, item.Simplest) : (meetSimple items).Simplest := by
  have hparts : ∀ part ∈ (items.flatMap interParts).eraseDups,
      part.Simplest ∧ ∀ inner, part ≠ .inter inner := by
    intro part hpart
    obtain ⟨item, hitem, hpart⟩ := mem_parts.mp hpart
    exact (h item hitem).interParts part hpart
  have hnodup := nodup_eraseDups (items.flatMap interParts)
  rw [meetSimple]
  generalize (items.flatMap interParts).eraseDups = parts at hparts hnodup
  split
  · next part => exact (hparts part List.mem_cons_self).1
  · next parts hone =>
    refine simplest_iff.mpr ⟨fun hset => ?_, fun part hpart => (hparts part hpart).1⟩
    cases hset with
    | interInInter hinner => exact (hparts _ hinner).2 _ rfl
    | interOfOne item => exact hone item rfl
    | interRepeats hrepeats => exact hrepeats hnodup

/-- What is a simplest set as a union of its items is left as that union. -/
theorem joinSimple_eq_self (h : Simplest (.union items)) : joinSimple items = .union items := by
  have hset : ¬ Reducible (.union items) := (simplest_iff.mp h).1
  have hnodup : items.Nodup := Classical.not_not.mp fun hrepeats => hset (.unionRepeats hrepeats)
  have hparts : ∀ item ∈ items, unionParts item = [item] := by
    intro item hitem
    cases item with
    | union inner => exact absurd (.unionInUnion hitem) hset
    | _ => rfl
  rw [joinSimple, parts_eq_self hnodup hparts]
  split
  · rfl
  · exact absurd (.unionOfOne _) hset
  · next hsome hone =>
    split
    · next cs hcs =>
      have hlistings := allListed?_eq_some_iff.mp ⟨cs, hcs⟩
      refine absurd (.unionOfListings ?_ hlistings) hset
      cases items with
      | nil => exact absurd rfl hsome
      | cons item more =>
        cases more with
        | nil => exact absurd rfl (hone item)
        | cons _ _ => exact Nat.le_add_left 2 _
    · rfl

/-- What is a simplest set as an intersection of its items is left as that intersection. -/
theorem meetSimple_eq_self (h : Simplest (.inter items)) : meetSimple items = .inter items := by
  have hset : ¬ Reducible (.inter items) := (simplest_iff.mp h).1
  have hnodup : items.Nodup := Classical.not_not.mp fun hrepeats => hset (.interRepeats hrepeats)
  have hparts : ∀ item ∈ items, interParts item = [item] := by
    intro item hitem
    cases item with
    | inter inner => exact absurd (.interInInter hitem) hset
    | _ => rfl
  rw [meetSimple, parts_eq_self hnodup hparts]
  split
  · exact absurd (.interOfOne _) hset
  · rfl

end

theorem complement_eq_self {item : CharSet} (h : Simplest (.compl item)) :
    complement item = .compl item := by
  cases item with
  | compl inner => exact absurd (.complOfCompl inner) (simplest_iff.mp h).1
  | _ => rfl

mutual

theorem simplify_simplest : ∀ set : CharSet, set.simplify.Simplest
  | .single c => .single c
  | .range lo hi => .range lo hi
  | .named name => .named name
  | .members [] => .members fun _ heq => nomatch heq
  | .members [c] => .single c
  | .members (_ :: _ :: _) => .members fun _ heq => nomatch heq
  | .union items => joinSimple_simplest (simplifyAll_simplest items)
  | .inter items => meetSimple_simplest (simplifyAll_simplest items)
  | .compl item => (simplify_simplest item).complement

theorem simplifyAll_simplest : ∀ items : List CharSet, ∀ simple ∈ simplifyAll items, simple.Simplest
  | [] => List.forall_mem_nil _
  | item :: items => List.forall_mem_cons.mpr ⟨simplify_simplest item, simplifyAll_simplest items⟩

end

mutual

theorem Simplest.simplify_eq : ∀ {set : CharSet}, set.Simplest → set.simplify = set
  | .single _, _ | .range _ _, _ | .named _, _ => rfl
  | .members [], _ | .members (_ :: _ :: _), _ => rfl
  | .members [c], h => absurd (.soleMember c) (simplest_iff.mp h).1
  | .union items, h => by
    have hitems : ∀ item ∈ items, item.Simplest := (simplest_iff.mp h).2
    rw [simplify, Simplest.simplifyAll_eq hitems, joinSimple_eq_self h]
  | .inter items, h => by
    have hitems : ∀ item ∈ items, item.Simplest := (simplest_iff.mp h).2
    rw [simplify, Simplest.simplifyAll_eq hitems, meetSimple_eq_self h]
  | .compl item, h => by
    have hitem : item.Simplest := (simplest_iff.mp h).2 item (List.mem_singleton.mpr rfl)
    rw [simplify, hitem.simplify_eq, complement_eq_self h]

theorem Simplest.simplifyAll_eq : ∀ {items : List CharSet}, (∀ item ∈ items, item.Simplest) →
    simplifyAll items = items
  | [], _ => rfl
  | _ :: _, h => by
    obtain ⟨hitem, hitems⟩ := List.forall_mem_cons.mp h
    rw [simplifyAll, hitem.simplify_eq, Simplest.simplifyAll_eq hitems]

end

/-- **The sets simplification leaves as they are** are those in which nothing can be written more
simply. -/
theorem simplify_eq_self_iff {set : CharSet} : set.simplify = set ↔ set.Simplest :=
  ⟨fun h => h ▸ simplify_simplest set, Simplest.simplify_eq⟩

/-- **Simplification is done after one pass**: a second one changes nothing, and at no depth of a
simplified set is there anything that could be written more simply. -/
theorem simplify_reaches_simplest (set : CharSet) :
    set.simplify.simplify = set.simplify ∧
      ∀ part : CharSet, part.Within set.simplify → ¬ part.Reducible :=
  ⟨simplify_eq_self_iff.mpr (simplify_simplest set), simplify_simplest set⟩

/-- A complement of a complement turns out to be a union, and all there is to be listed. -/
example : simplify (.union [.compl (.compl (.union [.single 'b', .members ['a']])),
    .inter [.members ['c'], .members ['c']]]) = .members ['a', 'b', 'c'] := by
  decide

end TextGrammar.CharSet
