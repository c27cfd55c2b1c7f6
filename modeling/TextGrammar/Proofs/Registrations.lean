/-
What a registry holds after any registrations.

Types are kept in a list and their places in an index, and both only ever grow, by a type whose name
is new. So the two stay inverse to each other (`Indexed`), the list is the first type offered under
each name (`ParserType.firsts`), and a place given out leads to the same type from then on.
-/
import TextGrammar.Types.Registry

namespace TextGrammar

/-! ## Types offered -/

/-- The first type of each name. -/
def ParserType.firsts : List ParserType → List ParserType
  | [] => []
  | type :: types => type :: (firsts types).filter (·.name != type.name)

namespace ParserType

theorem mem_names_firsts {name : String} {types : List ParserType} :
    name ∈ (firsts types).map ParserType.name ↔ name ∈ types.map ParserType.name := by
  induction types with
  | nil => rfl
  | cons type types ih =>
    by_cases hname : name = type.name
    · simp [firsts, hname]
    · have hfilter : name ∈ ((firsts types).filter (·.name != type.name)).map ParserType.name ↔
          name ∈ (firsts types).map ParserType.name := by
        simp only [List.mem_map, List.mem_filter, bne_iff_ne]
        constructor
        · rintro ⟨t, ⟨ht, _⟩, heq⟩
          exact ⟨t, ht, heq⟩
        · rintro ⟨t, ht, heq⟩
          exact ⟨t, ⟨ht, heq ▸ hname⟩, heq⟩
      simp only [firsts, List.map_cons, List.mem_cons, hfilter, ih]

theorem firsts_nodup (types : List ParserType) : ((firsts types).map ParserType.name).Nodup := by
  induction types with
  | nil => exact List.nodup_nil
  | cons type types ih =>
    have hsub := (List.filter_sublist (p := (·.name != type.name)) (l := firsts types)).map
      ParserType.name
    simp only [firsts, List.map_cons, List.nodup_cons, List.mem_map, List.mem_filter, bne_iff_ne]
    refine ⟨?_, ih.sublist hsub⟩
    rintro ⟨t, ⟨_, hne⟩, heq⟩
    exact hne heq

theorem find?_firsts (types : List ParserType) (name : String) :
    (firsts types).find? (·.name == name) = types.find? (·.name == name) := by
  induction types with
  | nil => rfl
  | cons type types ih =>
    by_cases hname : type.name = name
    · simp [firsts, hname]
    · have hfilter : ((firsts types).filter (·.name != type.name)).find? (·.name == name) =
          (firsts types).find? (·.name == name) := by
        rw [List.find?_filter]
        congr 1
        funext t
        by_cases ht : t.name = name
        · simp [ht, Ne.symm hname]
        · simp [ht]
      simp only [firsts, List.find?_cons, beq_eq_false_iff_ne.2 hname, hfilter, ih]

theorem firsts_concat (types : List ParserType) (type : ParserType) :
    firsts (types ++ [type]) =
      if type.name ∈ types.map ParserType.name then firsts types else firsts types ++ [type] := by
  induction types with
  | nil => rfl
  | cons first types ih =>
    by_cases hmem : type.name ∈ types.map ParserType.name
    · simp [firsts, ih, hmem]
    · rw [if_neg hmem] at ih
      by_cases hfirst : type.name = first.name
      · simp [firsts, ih, hfirst]
      · simp [firsts, ih, hmem, hfirst]

end ParserType

namespace TypeRegistry

variable {registry : TypeRegistry} {type : ParserType} {offered : List ParserType} {name : String}
  {id : TypeId}

/-! ## List and index -/

/-- The index leads to a place exactly where a type of the name stands. -/
def Indexed (registry : TypeRegistry) : Prop :=
  ∀ name id, registry.id? name = some id ↔ ∃ type, registry.get? id = some type ∧ type.name = name

theorem withClasses_indexed (classes : CharClasses) : (withClasses classes).Indexed := by
  intro name id
  simp [withClasses, id?, get?]

theorem Indexed.contains_iff (h : registry.Indexed) :
    registry.contains name = true ↔ name ∈ registry.names := by
  rw [contains, Option.isSome_iff_exists, names, List.mem_map]
  constructor
  · intro ⟨id, hid⟩
    obtain ⟨type, hget, hname⟩ := (h name id).1 hid
    exact ⟨type, List.mem_of_getElem? hget, hname⟩
  · intro ⟨type, hmem, hname⟩
    obtain ⟨i, hget⟩ := List.mem_iff_getElem?.1 hmem
    exact ⟨⟨i⟩, (h name ⟨i⟩).2 ⟨type, hget, hname⟩⟩

/-- What the index leads to is the first type of the name in the list. -/
theorem Indexed.find?_eq (h : registry.Indexed) :
    registry.find? name = registry.types.find? (·.name == name) := by
  cases hfind : registry.types.find? (·.name == name) with
  | none =>
    have hid : registry.id? name = none := by
      cases hid : registry.id? name with
      | none => rfl
      | some id =>
        obtain ⟨type, hget, hname⟩ := (h name id).1 hid
        have hne := List.find?_eq_none.1 hfind type (List.mem_of_getElem? hget)
        exact absurd (beq_iff_eq.2 hname) hne
    simp [find?, hid]
  | some type =>
    obtain ⟨i, hget⟩ := List.mem_iff_getElem?.1 (List.mem_of_find?_eq_some hfind)
    have hname : type.name = name := by simpa using List.find?_some hfind
    have hid : registry.id? name = some ⟨i⟩ := (h name ⟨i⟩).2 ⟨type, hget, hname⟩
    simp only [find?, hid, Option.bind_some]
    exact hget

theorem mem_of_find? (h : registry.find? name = some type) : type ∈ registry.types := by
  obtain ⟨id, _, hget⟩ := Option.bind_eq_some_iff.mp h
  exact List.mem_of_getElem? hget

theorem Indexed.contains_find? (h : registry.Indexed) :
    (registry.find? name).isSome = registry.contains name := by
  rw [Bool.eq_iff_iff, h.contains_iff, h.find?_eq, List.find?_isSome, names, List.mem_map]
  simp only [beq_iff_eq]

/-! ## One registration -/

theorem register_taken (h : registry.contains type.name = true) :
    registry.register type = .error (.duplicateType type.name) := by
  simp [register, h]

/-- The registry with a type of a new name. -/
def extended (registry : TypeRegistry) (type : ParserType) : TypeRegistry :=
  { registry with
    types := registry.types ++ [type]
    index := (type.name, ⟨registry.types.length⟩) :: registry.index }

theorem register_free (h : registry.contains type.name = false) :
    registry.register type = .ok (registry.extended type, ⟨registry.types.length⟩) := by
  simp [register, h, extended]

theorem extended_get? :
    (registry.extended type).get? id =
      if id.index = registry.types.length then some type else registry.get? id := by
  simp only [extended, get?]
  rcases Nat.lt_trichotomy id.index registry.types.length with hlt | heq | hgt
  · rw [List.getElem?_append_left hlt, if_neg (Nat.ne_of_lt hlt)]
  · simp [heq]
  · have hnone : registry.types[id.index]? = none := List.getElem?_eq_none (Nat.le_of_lt hgt)
    have hnone' : (registry.types ++ [type])[id.index]? = none :=
      List.getElem?_eq_none (by simp only [List.length_append, List.length_singleton]; omega)
    rw [hnone, hnone', if_neg (Nat.ne_of_gt hgt)]

theorem extended_id? :
    (registry.extended type).id? name =
      if name = type.name then some ⟨registry.types.length⟩ else registry.id? name := by
  by_cases h : name = type.name
  · simp [extended, id?, h]
  · simp [extended, id?, h, List.lookup_cons, beq_eq_false_iff_ne.2 h]

theorem Indexed.extended (h : registry.Indexed) (hfree : registry.contains type.name = false) :
    (registry.extended type).Indexed := by
  have hbound {id t} (hget : registry.get? id = some t) : id.index ≠ registry.types.length :=
    Nat.ne_of_lt (List.getElem?_eq_some_iff.1 hget).1
  intro name id
  rw [extended_id?, extended_get?]
  by_cases hname : name = type.name
  · subst hname
    rw [if_pos rfl]
    by_cases hid : id.index = registry.types.length
    · rw [if_pos hid, ← hid]
      exact ⟨fun _ => ⟨type, rfl, rfl⟩, fun _ => rfl⟩
    · -- the name stands nowhere else
      have hnot : ¬ ∃ t, registry.get? id = some t ∧ t.name = type.name := by
        intro hex
        have hsome := (h type.name id).2 hex
        simp [contains, hsome] at hfree
      rw [if_neg hid]
      refine ⟨fun heq => ?_, fun hex => absurd hex hnot⟩
      exact absurd (congrArg TypeId.index (Option.some.inj heq)).symm hid
  · rw [if_neg hname, h name id]
    by_cases hid : id.index = registry.types.length
    · rw [if_pos hid]
      refine ⟨fun ⟨t, hget, _⟩ => absurd hid (hbound hget), fun ⟨t, ht, heq⟩ => ?_⟩
      exact absurd (Option.some.inj ht ▸ heq.symm) hname
    · rw [if_neg hid]

/-- List and index agree, and the list is what remains of the types offered. -/
structure Keeps (registry : TypeRegistry) (offered : List ParserType) : Prop where
  indexed : registry.Indexed
  types : registry.types = ParserType.firsts offered

theorem Keeps.contains_iff (h : registry.Keeps offered) :
    registry.contains name = true ↔ name ∈ offered.map ParserType.name := by
  rw [h.indexed.contains_iff, names, h.types, ParserType.mem_names_firsts]

theorem Keeps.find?_eq (h : registry.Keeps offered) :
    registry.find? name = offered.find? (·.name == name) := by
  rw [h.indexed.find?_eq, h.types, ParserType.find?_firsts]

theorem Keeps.registerIfFree (h : registry.Keeps offered) (type : ParserType) :
    (registry.registerIfFree type).Keeps (offered ++ [type]) := by
  cases hcontains : registry.contains type.name with
  | true =>
    have hmem := h.contains_iff.1 hcontains
    rw [TypeRegistry.registerIfFree, register_taken hcontains]
    exact ⟨h.indexed, by rw [ParserType.firsts_concat, if_pos hmem, h.types]⟩
  | false =>
    have hmem : type.name ∉ offered.map ParserType.name := by
      intro hmem
      simp [h.contains_iff.2 hmem] at hcontains
    rw [TypeRegistry.registerIfFree, register_free hcontains]
    refine ⟨h.indexed.extended hcontains, ?_⟩
    rw [ParserType.firsts_concat, if_neg hmem, ← h.types, TypeRegistry.extended]

theorem registerIfFree_get? (h : registry.get? id = some type) (other : ParserType) :
    (registry.registerIfFree other).get? id = some type := by
  cases hcontains : registry.contains other.name with
  | true => rw [registerIfFree, register_taken hcontains]; exact h
  | false =>
    have hlt : id.index < registry.types.length := (List.getElem?_eq_some_iff.1 h).1
    rw [registerIfFree, register_free hcontains]
    show (registry.extended other).get? id = some type
    rw [extended_get?, if_neg (Nat.ne_of_lt hlt), h]

theorem registerIfFree_classes : (registry.registerIfFree type).classes = registry.classes := by
  cases hcontains : registry.contains type.name with
  | true => rw [registerIfFree, register_taken hcontains]
  | false => rw [registerIfFree, register_free hcontains, extended]

/-! ## Any registrations -/

/-- Offers types one after the other; one whose name is taken changes nothing. -/
def offer (registry : TypeRegistry) (types : List ParserType) : TypeRegistry :=
  types.foldl TypeRegistry.registerIfFree registry

theorem Keeps.offer (h : registry.Keeps offered) (types : List ParserType) :
    (registry.offer types).Keeps (offered ++ types) := by
  induction types generalizing registry offered with
  | nil => simpa [TypeRegistry.offer] using h
  | cons type types ih =>
    have hrest := ih (h.registerIfFree type)
    rwa [List.append_assoc] at hrest

theorem offer_get? (h : registry.get? id = some type) (types : List ParserType) :
    (registry.offer types).get? id = some type := by
  induction types generalizing registry with
  | nil => exact h
  | cons other types ih => exact ih (registerIfFree_get? h other)

theorem offer_classes (types : List ParserType) :
    (registry.offer types).classes = registry.classes := by
  induction types generalizing registry with
  | nil => rfl
  | cons type types ih => exact ih.trans registerIfFree_classes

theorem withClasses_keeps (classes : CharClasses) : (withClasses classes).Keeps [] :=
  ⟨withClasses_indexed classes, rfl⟩

end TypeRegistry

/-- A call that registers types. -/
inductive Registration where
  | given (type : ParserType)
  | pattern (name text : String) (cell : Nat)
  | builtins

namespace Registration

/-- The types a call offers, the first one first. -/
def offers : Registration → List ParserType
  | .given type => [type]
  | .pattern name text cell => [.pattern name text cell]
  | .builtins => Builtin.all

/-- What a call returns, and the registry after it. -/
def run (registry : TypeRegistry) (call : Registration) :
    Except GrammarError (Option TypeId) × TypeRegistry :=
  let ended : Except GrammarError (TypeRegistry × TypeId) →
      Except GrammarError (Option TypeId) × TypeRegistry
    | .ok (next, id) => (.ok (some id), next)
    | .error error => (.error error, registry)
  match call with
  | .given type => ended (registry.register type)
  | .pattern name text cell => ended (registry.registerPattern name text cell)
  | .builtins => (.ok none, registry.registerBuiltins)

theorem run_single {registry : TypeRegistry} {call : Registration} {type : ParserType}
    (h : call.offers = [type]) :
    call.run registry =
      if registry.contains type.name then (.error (.duplicateType type.name), registry)
      else (.ok (some ⟨registry.types.length⟩), registry.extended type) := by
  have hrun : call.run registry = (given type).run registry := by
    cases call with
    | given _ => cases h; rfl
    | pattern _ _ _ => cases h; rfl
    | builtins => cases h
  rw [hrun, run]
  cases hcontains : registry.contains type.name with
  | true => rw [TypeRegistry.register_taken hcontains]; rfl
  | false => rw [TypeRegistry.register_free hcontains]; rfl

theorem run_registry (registry : TypeRegistry) (call : Registration) :
    (call.run registry).2 = registry.offer call.offers := by
  have hsingle (type : ParserType) (h : call.offers = [type]) :
      (call.run registry).2 = registry.offer call.offers := by
    rw [h, run_single h, TypeRegistry.offer, List.foldl_cons, List.foldl_nil,
      TypeRegistry.registerIfFree]
    cases hcontains : registry.contains type.name with
    | true => rw [TypeRegistry.register_taken hcontains]; rfl
    | false => rw [TypeRegistry.register_free hcontains]; rfl
  cases call with
  | given type => exact hsingle type rfl
  | pattern name text cell => exact hsingle _ rfl
  | builtins => rfl

end Registration

namespace TypeRegistry

/-- The registry after some calls. -/
def after (registry : TypeRegistry) (calls : List Registration) : TypeRegistry :=
  calls.foldl (fun registry call => (call.run registry).2) registry

theorem after_eq_offer (registry : TypeRegistry) (calls : List Registration) :
    registry.after calls = registry.offer (calls.flatMap Registration.offers) := by
  induction calls generalizing registry with
  | nil => rfl
  | cons call calls ih =>
    have hfirst : registry.after (call :: calls) = (call.run registry).2.after calls := rfl
    rw [hfirst, ih, Registration.run_registry, List.flatMap_cons, offer, offer, offer,
      List.foldl_append]

/-- A registry holds what calls have registered: each name once, with the first type offered under
it, at a place that no later call changes. -/
structure Consistent (registry : TypeRegistry) (classes : CharClasses)
    (calls : List Registration) : Prop where
  names_nodup : registry.names.Nodup
  /-- Accepted is what first came with its name. -/
  types_eq : registry.types = ParserType.firsts (calls.flatMap Registration.offers)
  contains_iff : ∀ name, registry.contains name = true ↔ name ∈ registry.names
  id_iff : ∀ name, (∃ id, registry.id? name = some id) ↔ name ∈ registry.names
  lookup_iff : ∀ name, (∃ type, registry.lookup name = .ok type) ↔ name ∈ registry.names
  /-- The place of a name holds the first type offered under it. -/
  get_id : ∀ name id, registry.id? name = some id →
    registry.get? id = (calls.flatMap Registration.offers).find? (·.name == name)
  lookup_eq : ∀ name, registry.lookup name =
    match (calls.flatMap Registration.offers).find? (·.name == name) with
    | some type => .ok type
    | none => .error (.unknownType name 0)
  /-- A call with one type changes nothing where the name is taken, and else returns the place of
  the type, which was free. -/
  single : ∀ (call : Registration) (type : ParserType), call.offers = [type] →
    if type.name ∈ registry.names then
      call.run registry = (.error (.duplicateType type.name), registry)
    else ∃ id next, call.run registry = (.ok (some id), next) ∧
      registry.get? id = none ∧ next.get? id = some type ∧ next.id? type.name = some id
  lasting : ∀ id type, registry.get? id = some type →
    ∀ later, (registry.after later).get? id = some type
  /-- The built-in types come under the names that are free. -/
  builtins : ∀ name, registry.registerBuiltins.find? name =
    (registry.find? name).or (Builtin.all.find? (·.name == name))
  classes_eq : registry.classes = classes

/-- However types are registered, accepted or not, list and index stay inverse to each other. -/
theorem consistent_after (classes : CharClasses) (calls : List Registration) :
    ((withClasses classes).after calls).Consistent classes calls := by
  have hkeeps := (withClasses_keeps classes).offer (calls.flatMap Registration.offers)
  rw [← after_eq_offer, List.nil_append] at hkeeps
  have hclasses : ((withClasses classes).after calls).classes = classes := by
    rw [after_eq_offer]
    exact offer_classes _
  generalize (withClasses classes).after calls = registry at hkeeps hclasses
  have hcontains (name : String) : registry.contains name = true ↔ name ∈ registry.names :=
    hkeeps.indexed.contains_iff
  exact {
    names_nodup := by
      rw [names, hkeeps.types]
      exact ParserType.firsts_nodup _
    types_eq := hkeeps.types
    contains_iff := hcontains
    id_iff := fun name => by rw [← hcontains, contains, Option.isSome_iff_exists]
    lookup_iff := fun name => by
      rw [← hcontains, ← hkeeps.indexed.contains_find?, lookup]
      cases registry.find? name <;> simp
    get_id := fun name id hid => by rw [← hkeeps.find?_eq, find?, hid, Option.bind_some]
    lookup_eq := fun name => by
      rw [← hkeeps.find?_eq]
      rfl
    single := fun call type hoffers => by
      rw [Registration.run_single hoffers]
      by_cases htaken : type.name ∈ registry.names
      · rw [if_pos htaken, if_pos ((hcontains _).2 htaken)]
      · rw [if_neg htaken, if_neg fun h => htaken ((hcontains _).1 h)]
        refine ⟨_, _, rfl, List.getElem?_eq_none (Nat.le_refl _), ?_, ?_⟩
        · rw [extended_get?, if_pos rfl]
        · rw [extended_id?, if_pos rfl]
    lasting := fun id type hget later => by
      rw [after_eq_offer]
      exact offer_get? hget _
    builtins := fun name => by
      have hall : registry.registerBuiltins.find? name = _ := (hkeeps.offer Builtin.all).find?_eq
      rw [hall, List.find?_append, ← hkeeps.find?_eq]
    classes_eq := hclasses }

example : (empty.after [.pattern "textCI" "a" 0, .builtins, .pattern "textCI" "b" 1]).names =
    ["textCI", "identifier", "stringLiteral", "identifierCI", "backref", "backrefCI", "error",
      "fatalError"] := by
  decide

end TypeRegistry

end TextGrammar
