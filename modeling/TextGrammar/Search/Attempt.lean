/-
One attempt at an entry: matching its checker with the nodes that come of it,
and shaping those nodes once the match is complete.
-/
import TextGrammar.Search.Length

namespace TextGrammar

variable {L : Type} [FailureLog L]

/-- Of two matches from the same start the longer one; of equally long ones the first. -/
def longer : Option Found → Option Found → Option Found := further Found.stop

/-- The result of a run as a match of a checker. -/
def Match.found (m : Match) : Found := ⟨m.stop, m.nodes, true⟩

mutual

/-- Matches a checker that stands as a choice, or an alternative. Grammars give their nodes and
their errors; everything else gives a length only. -/
def Checker.choiceAt (run : Runner L) (setting : Setting) (start : Nat) :
    Checker → Except Stop (Seen L (Option Found))
  | .grammar g => do
    let seen ← run setting .beginning g start
    pure ⟨seen.value.map Match.found, seen.failures⟩
  | .oneOf choices fallback => do
    let chosen ← Checker.choicesAt run setting start choices
    match chosen.value with
    | some _ => pure chosen
    | none =>
      let other ← Checker.fallbackAt run setting start fallback
      pure ⟨other.value, FailureLog.merge chosen.failures other.failures⟩
  | checker =>
    match checker.lengthAt run setting start with
    | .ok length => .ok (.of (length.map fun n => ⟨start + n, [], false⟩))
    | .error f => .error (.fault f)

/-- The longest match among the choices. They are tried from the last to the first, and an earlier
one has to be longer to take the place of a later one. -/
def Checker.choicesAt (run : Runner L) (setting : Setting) (start : Nat) :
    List Checker → Except Stop (Seen L (Option Found))
  | [] => .ok (.of none)
  | c :: cs => do
    let later ← Checker.choicesAt run setting start cs
    let here ← Checker.choiceAt run setting start c
    pure ⟨longer later.value here.value, FailureLog.merge later.failures here.failures⟩

def Checker.fallbackAt (run : Runner L) (setting : Setting) (start : Nat) :
    Option Checker → Except Stop (Seen L (Option Found))
  | none => .ok (.of none)
  | some c => Checker.choiceAt run setting start c

end

/-- The last choice is tried first. -/
theorem Checker.choicesAt_eq_foldrM (run : Runner L) (setting : Setting) (start : Nat)
    (cs : List Checker) : Checker.choicesAt run setting start cs =
      cs.foldrM (fun c later => do
        let here ← c.choiceAt run setting start
        pure ⟨longer later.value here.value, FailureLog.merge later.failures here.failures⟩)
        (.of none) := by
  induction cs with
  | nil => rfl
  | cons c cs ih => rw [Checker.choicesAt, ih, List.foldrM_cons]

theorem Checker.fallbackAt_eq_elim (run : Runner L) (setting : Setting) (start : Nat)
    (fallback : Option Checker) : Checker.fallbackAt run setting start fallback =
      fallback.elim (.ok (.of none)) fun c => c.choiceAt run setting start := by
  cases fallback <;> rfl

/-- Nodes of the regions of a record. -/
def Region.nodes (regions : List Region) (spans : List (Nat × Nat)) : List Node :=
  List.zipWith (fun region span =>
    { name := some region.name, start := span.1, stop := span.2 }) regions spans

/-- Matches the checker of an entry. A record gives a node for each of its regions. -/
def Checker.foundAt (run : Runner L) (setting : Setting) (start : Nat) :
    Checker → Except Stop (Seen L (Option Found))
  | .fixed regions =>
    match Region.spansAt run setting start regions with
    | .ok spans? =>
      .ok (.of (spans?.map fun spans =>
        ⟨lastStop start spans, Region.nodes regions spans, false⟩))
    | .error f => .error (.fault f)
  | checker => checker.choiceAt run setting start

/-! ## Completing a match -/

/-- A type in use by an entry. -/
structure TypeUse where
  type : ParserType
  param : Option String

/-- The match re-read by the secondary grammar of its entry, which has to match all of the span and
whose nodes take the place of the others. -/
def Entry.reread (run : Runner L) (setting : Setting) (start : Nat) (found : Found) (entry : Entry) :
    Except Stop (Seen L (Option Found)) :=
  match entry.secondary with
  | none => .ok (.of (some found))
  | some g =>
    if found.stop ≤ setting.text.size then do
      let part := { setting with text := setting.text.slice 0 found.stop }
      let seen ← run part .whole g start
      pure ⟨seen.value.map fun m => ⟨found.stop, m.nodes, true⟩, seen.failures⟩
    else .error (.fault .outOfRange)

/-- The nodes of a match of an entry without a type. -/
def Entry.untypedNodes (entry : Entry) (start : Nat) (found : Found) : List Node :=
  match entry.capture with
  | some capture =>
    [{ name := some capture.name, start, stop := found.stop,
       children := if capture.flat then [] else found.nodes }]
  | none =>
    if found.built then found.nodes else [{ start, stop := found.stop, children := found.nodes }]

/-- The node of a match of an entry with a type, with all that lies below it. -/
def Entry.typedNode (entry : Entry) (start : Nat) (found : Found) (use : TypeUse) : Node :=
  { name := entry.name?, typeName := some use.type.name, param := use.param, start,
    stop := found.stop, children := found.nodes }

/-- The nodes of a complete match of an entry, or nothing when the secondary grammar or the type
rejects it. -/
def Entry.complete (run : Runner L) (setting : Setting) (start : Nat) (found : Found)
    (use : Option TypeUse) (entry : Entry) : Except Stop (Seen L (Option (List Node))) := do
  let seen ← entry.reread run setting start found
  match seen.value, use with
  | none, _ => pure ⟨none, seen.failures⟩
  | some found, none => pure ⟨some (entry.untypedNodes start found), seen.failures⟩
  | some found, some use =>
    let node := entry.typedNode start found use
    let host : Host := ⟨setting.text, start, setting.outer⟩
    if use.type.accepts host ⟨setting.text, node, 0⟩ then
      let kept := if entry.isFlat then { node with children := [] } else node
      pure ⟨some [kept], seen.failures⟩
    else pure ⟨none, seen.failures⟩

end TextGrammar
