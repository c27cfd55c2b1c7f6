/-
A registry: parser types by name, the character classes their checkers consult,
and the pattern types compiled so far.

A pattern type is compiled when a search first asks for its checker, against the
registry as it is then, and what came of it is kept. A search itself changes
nothing: when it needs a type that is not compiled it ends, and is made again
after the type has been compiled.
-/
import TextGrammar.Pattern.Compile
import TextGrammar.Types.Builtin

namespace TextGrammar

/-- Place of a type in a registry. -/
structure TypeId where
  index : Nat
  deriving DecidableEq

/-- Types, and where to find them by their names. -/
structure TypeRegistry where
  /-- In the order of their registration. -/
  types : List ParserType
  /-- The place of each name, the newest first. -/
  index : List (String × TypeId)
  classes : CharClasses
  compiled : List (Nat × Except GrammarError Checker)

namespace TypeRegistry

/-- No types, and the given classes. -/
def withClasses (classes : CharClasses) : TypeRegistry := ⟨[], [], classes, []⟩

/-- No types, and the standard classes. -/
def empty : TypeRegistry := withClasses .standard

/-! ## Types by name -/

/-- The number of the type of this name. -/
def id? (registry : TypeRegistry) (name : String) : Option TypeId := registry.index.lookup name

/-- The type of this number. -/
def get? (registry : TypeRegistry) (id : TypeId) : Option ParserType := registry.types[id.index]?

/-- The type of this name. -/
def find? (registry : TypeRegistry) (name : String) : Option ParserType :=
  (registry.id? name).bind registry.get?

/-- The name is taken. -/
def contains (registry : TypeRegistry) (name : String) : Bool := (registry.id? name).isSome

/-- Names in the order of registration. -/
def names (registry : TypeRegistry) : List String := registry.types.map ParserType.name

/-- The type of a name, or an error that points nowhere. -/
def lookup (registry : TypeRegistry) (name : String) : Except GrammarError ParserType :=
  match registry.find? name with
  | some type => .ok type
  | none => .error (.unknownType name 0)

/-! ## Registration -/

/-- Adds a type, unless its name is taken. -/
def register (registry : TypeRegistry) (type : ParserType) :
    Except GrammarError (TypeRegistry × TypeId) :=
  if registry.contains type.name then .error (.duplicateType type.name)
  else
    let id : TypeId := ⟨registry.types.length⟩
    .ok ({ registry with
      types := registry.types ++ [type], index := (type.name, id) :: registry.index }, id)

/-- Adds a type given by a pattern. -/
def registerPattern (registry : TypeRegistry) (name pattern : String) (cell : Nat) :
    Except GrammarError (TypeRegistry × TypeId) :=
  registry.register (.pattern name pattern cell)

/-- Adds a type whose name is free; without that, nothing changes. -/
def registerIfFree (registry : TypeRegistry) (type : ParserType) : TypeRegistry :=
  match registry.register type with
  | .ok (registry, _) => registry
  | .error _ => registry

/-- Adds the built-in types whose names are free. -/
def registerBuiltins (registry : TypeRegistry) : TypeRegistry :=
  Builtin.all.foldl registerIfFree registry

/-- The built-in types and the standard classes. -/
def standard : TypeRegistry := empty.registerBuiltins

/-! ## Searches -/

/-- What a search looks types up in. -/
def env (registry : TypeRegistry) : TypeEnv :=
  ⟨registry.find?, registry.classes, (registry.compiled.lookup ·)⟩

/-- What patterns can refer to. -/
def vocabulary (registry : TypeRegistry) : Vocabulary := registry.env.vocabulary

/-- Compiles a pattern against the registry. -/
def compile (registry : TypeRegistry) (pattern : String) : Except GrammarError Grammar :=
  Grammar.compile registry.vocabulary pattern

/-- Compiles the pattern of a type and keeps the result. -/
def compileCell (registry : TypeRegistry) (cell : Nat) (pattern : String) : TypeRegistry :=
  let result := (registry.compile pattern).map Checker.grammar
  { registry with compiled := (cell, result) :: registry.compiled }

/-- Asks a question about types, compiling pattern types, at most `rounds` of them, as they are
needed. Gives the registry with what has been compiled. -/
def supplying {α : Type} (query : TypeEnv → Except Stop α) :
    (rounds : Nat) → TypeRegistry → Except Stop α × TypeRegistry
  | 0, registry => (.error (.fault .outOfFuel), registry)
  | rounds + 1, registry =>
    match query registry.env with
    | .error (.fault (.uncompiled cell pattern)) =>
      supplying query rounds (registry.compileCell cell pattern)
    | answer => (answer, registry)

/-- Matches a beginning of the text. -/
def parse (registry : TypeRegistry) (g : Grammar) (text : Text) :
    Except Stop MatchTree × TypeRegistry :=
  registry.supplying (fun types => g.parse searchFuel types text) searchFuel

/-- Matches the whole text. -/
def matchWhole (registry : TypeRegistry) (g : Grammar) (text : Text) :
    Except Stop MatchTree × TypeRegistry :=
  registry.supplying (fun types => g.matchWhole searchFuel types text) searchFuel

/-- The match at the first place that has one. -/
def find (registry : TypeRegistry) (g : Grammar) (text : Text) :
    Except Stop MatchTree × TypeRegistry :=
  registry.supplying (fun types => g.find searchFuel types text) searchFuel

/-- The length of what a checker matches exactly at the offset. -/
def matchAt (registry : TypeRegistry) (checker : Checker) (text : Text) (offset : Nat) :
    Except Stop (Option Nat) × TypeRegistry :=
  registry.supplying (fun types =>
    (checker.matchAt searchFuel types text offset).mapError Stop.fault) searchFuel

/-- The checker a type gives to a match in progress. -/
def checkerOf (registry : TypeRegistry) (type : ParserType) (host : Host)
    (param : Option String) : Except Stop (Except GrammarError Checker) × TypeRegistry :=
  registry.supplying (fun types => (types.supply host param type).mapError Stop.fault) searchFuel

end TypeRegistry

end TextGrammar
