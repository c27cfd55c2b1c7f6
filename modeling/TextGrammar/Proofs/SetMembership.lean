/-
Simplified sets have the same members. What can go wrong is an intersection of
nothing: it has no members, but is lost when it is merged into another
intersection. Nothing changes where all items are lost in this way or none.
-/
import TextGrammar.CharSet.Simplify

namespace TextGrammar.CharSet

variable {classes : CharClasses} {c : Char}

/-! ## Unions and intersections as lists -/

theorem containsAny_eq_any (items : List CharSet) :
    containsAny classes c items = items.any (contains classes c) := by
  induction items with
  | nil => rfl
  | cons item items ih => rw [containsAny, List.any_cons, ih]

theorem containsAll_eq_all (items : List CharSet) :
    containsAll classes c items = items.all (contains classes c) := by
  induction items with
  | nil => rfl
  | cons item items ih => rw [containsAll, List.all_cons, ih]

/-- A union has what one of its items has. -/
theorem contains_union {items : List CharSet} :
    contains classes c (.union items) = true ↔ ∃ item ∈ items, contains classes c item = true := by
  rw [contains, containsAny_eq_any, List.any_eq_true]

/-- An intersection has what all of its items have, if there are any. -/
theorem contains_inter {items : List CharSet} :
    contains classes c (.inter items) = true ↔
      items ≠ [] ∧ ∀ item ∈ items, contains classes c item = true := by
  rw [contains, containsAll_eq_all, Bool.and_eq_true, List.all_eq_true, Bool.not_eq_true',
    List.isEmpty_eq_false_iff]

/-- A set has what one of its parts as a union has. -/
theorem contains_unionParts {set : CharSet} :
    contains classes c set = true ↔ ∃ item ∈ unionParts set, contains classes c item = true := by
  cases set with
  | union items => exact contains_union
  | _ => simp only [unionParts, List.mem_singleton, exists_eq_left]

/-- A set that is no intersection of nothing has parts as an intersection. -/
theorem interParts_ne_nil {set : CharSet} (h : set ≠ .inter []) : interParts set ≠ [] := by
  cases set with
  | inter items => exact fun hnil => h (congrArg CharSet.inter hnil)
  | _ => exact List.cons_ne_nil _ _

/-- Such a set has what all of these parts have. -/
theorem contains_interParts {set : CharSet} (h : set ≠ .inter []) :
    contains classes c set = true ↔ ∀ item ∈ interParts set, contains classes c item = true := by
  cases set with
  | inter items =>
    have hitems : items ≠ [] := interParts_ne_nil h
    rw [contains_inter]
    exact ⟨And.right, fun hall => ⟨hitems, hall⟩⟩
  | _ => simp only [interParts, List.mem_singleton, forall_eq]

/-! ## Listed members -/

theorem mem_insertMember {d : Char} {cs : List Char} :
    d ∈ insertMember c cs ↔ d = c ∨ d ∈ cs := by
  induction cs with
  | nil => rw [insertMember, List.mem_cons]
  | cons e es ih =>
    simp only [insertMember]
    split
    · exact List.mem_cons
    · split
      · next heq =>
        rw [beq_iff_eq.mp heq, List.mem_cons]
        exact ⟨.inr, fun h => h.elim .inl id⟩
      · rw [List.mem_cons, List.mem_cons, ih]
        exact or_left_comm

theorem mem_sortMembers {d : Char} {cs : List Char} : d ∈ sortMembers cs ↔ d ∈ cs := by
  induction cs with
  | nil => rfl
  | cons e es ih =>
    rw [show sortMembers (e :: es) = insertMember e (sortMembers es) from rfl, mem_insertMember, ih,
      List.mem_cons]

theorem contains_members {cs : List Char} :
    contains classes c (.members cs) = true ↔ c ∈ cs := by
  rw [contains, List.contains_iff_mem]

theorem contains_single {d : Char} : contains classes c (.single d) = true ↔ d = c := by
  rw [contains, beq_iff_eq]

theorem contains_ofMembers {cs : List Char} :
    contains classes c (ofMembers cs) = true ↔ c ∈ cs := by
  rw [← @mem_sortMembers c cs, ofMembers]
  split
  · next d hd => rw [contains_single, hd, List.mem_singleton, eq_comm]
  · exact contains_members

theorem contains_listed {set : CharSet} {cs : List Char} (h : set.listed? = some cs) :
    contains classes c set = true ↔ c ∈ cs := by
  cases set with
  | single d =>
    obtain rfl := Option.some.inj h
    rw [contains_single, List.mem_singleton, eq_comm]
  | members ds =>
    obtain rfl := Option.some.inj h
    exact contains_members
  | _ => cases h

theorem contains_allListed {items : List CharSet} {cs : List Char}
    (h : allListed? items = some cs) :
    (∃ item ∈ items, contains classes c item = true) ↔ c ∈ cs := by
  induction items generalizing cs with
  | nil =>
    obtain rfl := Option.some.inj h
    simp only [List.not_mem_nil, false_and, exists_false]
  | cons item items ih =>
    simp only [allListed?, Option.bind_eq_bind, Option.bind_eq_some_iff] at h
    obtain ⟨ds, hds, es, hes, heq⟩ := h
    obtain rfl := Option.some.inj heq
    simp only [List.mem_cons, exists_eq_or_imp]
    rw [contains_listed hds, ih hes, List.mem_append]

/-! ## Simplification -/

mutual

/-- No intersection of nothing in the set, however deep. -/
def NoEmptyInter : CharSet → Prop
  | .single _ | .range _ _ | .members _ | .named _ => True
  | .union items => NoEmptyInterAll items
  | .inter items => items ≠ [] ∧ NoEmptyInterAll items
  | .compl item => NoEmptyInter item

def NoEmptyInterAll : List CharSet → Prop
  | [] => True
  | item :: items => NoEmptyInter item ∧ NoEmptyInterAll items

end

theorem noEmptyInterAll_iff {items : List CharSet} :
    NoEmptyInterAll items ↔ ∀ item ∈ items, item.NoEmptyInter := by
  induction items with
  | nil => exact ⟨fun _ _ h => (nomatch h), fun _ => trivial⟩
  | cons item items ih => rw [NoEmptyInterAll, ih, List.forall_mem_cons]

namespace NoEmptyInter

theorem ne_inter {set : CharSet} (h : set.NoEmptyInter) : set ≠ .inter [] := by
  rintro rfl
  exact h.1 rfl

theorem unionParts {set : CharSet} (h : set.NoEmptyInter) :
    ∀ part ∈ set.unionParts, part.NoEmptyInter := by
  cases set with
  | union items => exact noEmptyInterAll_iff.mp h
  | _ => exact fun part hpart => List.mem_singleton.mp hpart ▸ h

theorem interParts {set : CharSet} (h : set.NoEmptyInter) :
    ∀ part ∈ set.interParts, part.NoEmptyInter := by
  cases set with
  | inter items => exact noEmptyInterAll_iff.mp h.2
  | _ => exact fun part hpart => List.mem_singleton.mp hpart ▸ h

theorem complement {set : CharSet} (h : set.NoEmptyInter) : set.complement.NoEmptyInter := by
  cases set <;> exact h

theorem ofMembers (cs : List Char) : (CharSet.ofMembers cs).NoEmptyInter := by
  rw [CharSet.ofMembers]
  split <;> trivial

end NoEmptyInter

/-- The parts of all items, each once. -/
theorem mem_parts {parts : CharSet → List CharSet} {items : List CharSet} {part : CharSet} :
    part ∈ (items.flatMap parts).eraseDups ↔ ∃ item ∈ items, part ∈ parts item := by
  rw [List.mem_eraseDups, List.mem_flatMap]

section

variable {items : List CharSet}

theorem joinSimple_noEmptyInter (h : ∀ item ∈ items, item.NoEmptyInter) :
    (joinSimple items).NoEmptyInter := by
  have hparts : ∀ part ∈ (items.flatMap unionParts).eraseDups, part.NoEmptyInter := by
    intro part hpart
    obtain ⟨item, hitem, hpart⟩ := mem_parts.mp hpart
    exact (h item hitem).unionParts part hpart
  rw [joinSimple]
  split
  · trivial
  · next part heq => exact hparts part (heq ▸ List.mem_cons_self)
  · split
    · exact .ofMembers _
    · exact noEmptyInterAll_iff.mpr hparts

/-- Merging, dropping repeated items and listing members change no union. -/
theorem contains_joinSimple : contains classes c (joinSimple items) = true ↔
    ∃ item ∈ items, contains classes c item = true := by
  have hparts : (∃ part ∈ (items.flatMap unionParts).eraseDups, contains classes c part = true) ↔
      ∃ item ∈ items, contains classes c item = true := by
    constructor
    · rintro ⟨part, hpart, hc⟩
      obtain ⟨item, hitem, hpart⟩ := mem_parts.mp hpart
      exact ⟨item, hitem, contains_unionParts.mpr ⟨part, hpart, hc⟩⟩
    · rintro ⟨item, hitem, hc⟩
      obtain ⟨part, hpart, hc⟩ := contains_unionParts.mp hc
      exact ⟨part, mem_parts.mpr ⟨item, hitem, hpart⟩, hc⟩
  rw [← hparts, joinSimple]
  split
  · next heq => rw [heq, contains_union]
  · next part heq => simp only [heq, List.mem_singleton, exists_eq_left]
  · split
    · next cs hcs => rw [contains_ofMembers, contains_allListed hcs]
    · exact contains_union

/-- Something is left to intersect, unless every item is an intersection of nothing. -/
theorem interParts_eraseDups_ne_nil_iff :
    (items.flatMap interParts).eraseDups ≠ [] ↔ ∃ item ∈ items, item ≠ .inter [] := by
  constructor
  · intro hne
    obtain ⟨part, hpart⟩ := List.exists_mem_of_ne_nil _ hne
    obtain ⟨item, hitem, hpart⟩ := mem_parts.mp hpart
    refine ⟨item, hitem, fun hnil => ?_⟩
    rw [hnil] at hpart
    cases hpart
  · rintro ⟨item, hitem, hne⟩
    obtain ⟨part, hpart⟩ := List.exists_mem_of_ne_nil _ (interParts_ne_nil hne)
    exact List.ne_nil_of_mem (mem_parts.mpr ⟨item, hitem, hpart⟩)

theorem meetSimple_noEmptyInter (hne : items ≠ []) (h : ∀ item ∈ items, item.NoEmptyInter) :
    (meetSimple items).NoEmptyInter := by
  have hparts : ∀ part ∈ (items.flatMap interParts).eraseDups, part.NoEmptyInter := by
    intro part hpart
    obtain ⟨item, hitem, hpart⟩ := mem_parts.mp hpart
    exact (h item hitem).interParts part hpart
  obtain ⟨item, hitem⟩ := List.exists_mem_of_ne_nil items hne
  rw [meetSimple]
  split
  · next part heq => exact hparts part (heq ▸ List.mem_cons_self)
  · exact ⟨interParts_eraseDups_ne_nil_iff.mpr ⟨item, hitem, (h item hitem).ne_inter⟩,
      noEmptyInterAll_iff.mpr hparts⟩

/-- Merging and dropping repeated items change no intersection, except that it loses the
intersections of nothing among its items. -/
theorem contains_meetSimple : contains classes c (meetSimple items) = true ↔
    (∃ item ∈ items, item ≠ .inter []) ∧
      ∀ item ∈ items, item ≠ .inter [] → contains classes c item = true := by
  have hparts : (∀ part ∈ (items.flatMap interParts).eraseDups, contains classes c part = true) ↔
      ∀ item ∈ items, item ≠ .inter [] → contains classes c item = true := by
    constructor
    · intro hall item hitem hne
      refine (contains_interParts hne).mpr fun part hpart => ?_
      exact hall part (mem_parts.mpr ⟨item, hitem, hpart⟩)
    · intro hall part hpart
      obtain ⟨item, hitem, hpart⟩ := mem_parts.mp hpart
      have hne : item ≠ .inter [] := by
        intro hnil
        rw [hnil] at hpart
        cases hpart
      exact (contains_interParts hne).mp (hall item hitem hne) part hpart
  rw [← interParts_eraseDups_ne_nil_iff, ← hparts, meetSimple]
  split
  · next part heq =>
    rw [heq, List.forall_mem_singleton]
    exact ⟨fun hc => ⟨List.cons_ne_nil _ _, hc⟩, And.right⟩
  · exact contains_inter

end

theorem contains_complement {set : CharSet} :
    contains classes c set.complement = !contains classes c set := by
  cases set with
  | compl item => rw [complement, contains, Bool.not_not]
  | _ => rfl

mutual

theorem simplify_noEmptyInter : ∀ {set : CharSet}, set.NoEmptyInter → set.simplify.NoEmptyInter
  | .single _, _ | .range _ _, _ | .named _, _ => trivial
  | .members [], _ | .members [_], _ | .members (_ :: _ :: _), _ => trivial
  | .union _, h => joinSimple_noEmptyInter (simplifyAll_noEmptyInter h)
  | .inter (_ :: _), h =>
    meetSimple_noEmptyInter (List.cons_ne_nil _ _) (simplifyAll_noEmptyInter h.2)
  | .inter [], h => absurd rfl h.1
  | .compl _, h => NoEmptyInter.complement (simplify_noEmptyInter h)

theorem simplifyAll_noEmptyInter : ∀ {items : List CharSet}, NoEmptyInterAll items →
    ∀ simple ∈ simplifyAll items, simple.NoEmptyInter
  | [], _ => fun _ hmem => nomatch hmem
  | _ :: _, h =>
    List.forall_mem_cons.mpr ⟨simplify_noEmptyInter h.1, simplifyAll_noEmptyInter h.2⟩

end

/-! ## Intersections that lose nothing -/

mutual

/-- No intersection in the set loses some of its items when the set is simplified: its items all
come to the intersection of nothing, or none of them does. -/
def LosesNothing : CharSet → Prop
  | .single _ | .range _ _ | .members _ | .named _ => True
  | .union items => LosesNothingAll items
  | .inter items =>
    ((∀ item ∈ items, simplify item = .inter []) ∨ ∀ item ∈ items, simplify item ≠ .inter []) ∧
      LosesNothingAll items
  | .compl item => LosesNothing item

def LosesNothingAll : List CharSet → Prop
  | [] => True
  | item :: items => LosesNothing item ∧ LosesNothingAll items

end

mutual

def decideLosesNothing : (set : CharSet) → Decidable set.LosesNothing
  | .single _ | .range _ _ | .members _ | .named _ => .isTrue trivial
  | .union items => decideLosesNothingAll items
  | .inter items =>
    let _ := decideLosesNothingAll items
    inferInstanceAs (Decidable (_ ∧ LosesNothingAll items))
  | .compl item => decideLosesNothing item

def decideLosesNothingAll : (items : List CharSet) → Decidable (LosesNothingAll items)
  | [] => .isTrue trivial
  | item :: items =>
    let _ := decideLosesNothing item
    let _ := decideLosesNothingAll items
    inferInstanceAs (Decidable (item.LosesNothing ∧ LosesNothingAll items))

end

instance : DecidablePred LosesNothing := decideLosesNothing

mutual

/-- Where no intersection of nothing is, none is lost. -/
theorem NoEmptyInter.losesNothing : ∀ {set : CharSet}, set.NoEmptyInter → set.LosesNothing
  | .single _, _ | .range _ _, _ | .members _, _ | .named _, _ => trivial
  | .union _, h => noEmptyInterAll_losesNothing h
  | .inter _, h =>
    ⟨.inr fun item hitem =>
        (simplify_noEmptyInter (noEmptyInterAll_iff.mp h.2 item hitem)).ne_inter,
      noEmptyInterAll_losesNothing h.2⟩
  | .compl item, h => @NoEmptyInter.losesNothing item h

theorem noEmptyInterAll_losesNothing : ∀ {items : List CharSet}, NoEmptyInterAll items →
    LosesNothingAll items
  | [], _ => trivial
  | _ :: _, h => ⟨NoEmptyInter.losesNothing h.1, noEmptyInterAll_losesNothing h.2⟩

end

theorem mem_simplifyAll {items : List CharSet} {simple : CharSet} :
    simple ∈ simplifyAll items ↔ ∃ item ∈ items, simplify item = simple := by
  have hmap : simplifyAll items = items.map simplify := by
    induction items with
    | nil => rfl
    | cons item items ih => rw [simplifyAll, ih, List.map_cons]
  rw [hmap, List.mem_map]

/-- An intersection that loses all of its items or none has the same members. -/
theorem contains_meetSimple_simplifyAll {items : List CharSet}
    (hsame : ∀ item ∈ items, contains classes c (simplify item) = contains classes c item)
    (h : (∀ item ∈ items, simplify item = .inter []) ∨ ∀ item ∈ items, simplify item ≠ .inter []) :
    contains classes c (meetSimple (simplifyAll items)) = contains classes c (.inter items) := by
  rw [Bool.eq_iff_iff, contains_meetSimple, contains_inter]
  constructor
  · rintro ⟨⟨simple, hsimple, hkept⟩, hall⟩
    obtain ⟨kept, hmem, rfl⟩ := mem_simplifyAll.mp hsimple
    refine ⟨List.ne_nil_of_mem hmem, fun item hitem => ?_⟩
    have hnone : ∀ item ∈ items, simplify item ≠ .inter [] :=
      h.resolve_left fun hlost => hkept (hlost kept hmem)
    rw [← hsame item hitem]
    exact hall _ (mem_simplifyAll.mpr ⟨item, hitem, rfl⟩) (hnone item hitem)
  · rintro ⟨hne, hall⟩
    obtain ⟨first, hfirst⟩ := List.exists_mem_of_ne_nil items hne
    -- What has a member does not come to the intersection of nothing, which has none.
    have hkept : simplify first ≠ .inter [] := by
      intro hlost
      have hc := hsame first hfirst
      rw [hlost, hall first hfirst] at hc
      cases hc
    refine ⟨⟨_, mem_simplifyAll.mpr ⟨first, hfirst, rfl⟩, hkept⟩, fun simple hsimple _ => ?_⟩
    obtain ⟨item, hitem, rfl⟩ := mem_simplifyAll.mp hsimple
    rw [hsame item hitem]
    exact hall item hitem

mutual

/-- What loses nothing has the same members once it is simplified. -/
theorem LosesNothing.contains_simplify : ∀ {set : CharSet}, set.LosesNothing →
    contains classes c set.simplify = contains classes c set
  | .single _, _ | .range _ _, _ | .named _, _ => rfl
  | .members [], _ | .members (_ :: _ :: _), _ => rfl
  | .members [d], _ => by
    rw [Bool.eq_iff_iff, simplify, contains_single, contains_members, List.mem_singleton, eq_comm]
  | .union items, h => by
    have hsame := LosesNothing.contains_simplifyAll h
    rw [Bool.eq_iff_iff, simplify, contains_joinSimple, contains_union]
    constructor
    · rintro ⟨simple, hsimple, hc⟩
      obtain ⟨item, hitem, rfl⟩ := mem_simplifyAll.mp hsimple
      exact ⟨item, hitem, hsame item hitem ▸ hc⟩
    · rintro ⟨item, hitem, hc⟩
      exact ⟨_, mem_simplifyAll.mpr ⟨item, hitem, rfl⟩, (hsame item hitem).trans hc⟩
  | .inter items, h => by
    rw [simplify]
    exact contains_meetSimple_simplifyAll (LosesNothing.contains_simplifyAll h.2) h.1
  | .compl item, h => by
    have hitem : contains classes c (simplify item) = _ := LosesNothing.contains_simplify h
    rw [simplify, contains_complement, hitem, contains]

theorem LosesNothing.contains_simplifyAll : ∀ {items : List CharSet}, LosesNothingAll items →
    ∀ item ∈ items, contains classes c item.simplify = contains classes c item
  | [], _ => fun _ hmem => nomatch hmem
  | _ :: _, h => List.forall_mem_cons.mpr
      ⟨LosesNothing.contains_simplify h.1, LosesNothing.contains_simplifyAll h.2⟩

end

/-- **A simplified set has the same members**, if no intersection of nothing is in it. -/
theorem contains_simplify {set : CharSet} (h : set.NoEmptyInter) :
    contains classes c set.simplify = contains classes c set :=
  h.losesNothing.contains_simplify

/-- **A simplified set has the same members**, whatever in it is empty, if no intersection loses
only some of its items. -/
theorem simplify_keeps_members (set : CharSet) (h : set.LosesNothing) (classes : CharClasses)
    (c : Char) : set.simplify.contains classes c = set.contains classes c :=
  h.contains_simplify

/-- Letters that are no vowels, or nothing: an empty union, an empty list and an intersection of
intersections of nothing are on the way. -/
theorem consonants_simplify :
    let set := unionOf
      [interOf [.range 'a' 'z', complement (ofString "aeiou"), complement (unionOf [])],
        ofString "", .inter [.inter [], unionOf [interOf []]]]
    set.LosesNothing ∧ ∀ classes c, set.simplify.contains classes c = set.contains classes c := by
  intro set
  have h : set.LosesNothing := by decide
  exact ⟨h, simplify_keeps_members set h⟩

/-- **An intersection loses an item that comes to an intersection of nothing**, and with it the
bound it set. -/
theorem not_forall_simplify_keeps_members :
    ¬ ∀ (items : List CharSet) (classes : CharClasses) (c : Char),
      (interOf items).simplify.contains classes c = (interOf items).contains classes c := by
  intro hall
  have h := hall [unionOf [interOf []], .single 'a'] .standard 'a'
  revert h
  decide

end TextGrammar.CharSet
