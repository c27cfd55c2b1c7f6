/-
The state of a backtracking search and how it moves.

The search keeps a session for every grammar it is inside of, the innermost
first. Before a choice it may want to revisit it saves a snapshot of all
sessions; a failure takes up the newest snapshot that still leaves something to
try.
-/
import TextGrammar.Search.Attempt

namespace TextGrammar

variable {L : Type}

/-- A grammar being walked. -/
structure Session where
  /-- The current entry and all after it. -/
  rest : List Entry
  /-- Repeats of the current entry so far. -/
  repeats : Nat
  /-- Offset at which the session was opened. -/
  start : Nat
  nodes : Trail
  /-- Place of the snapshot saved when the session was opened inside another one. -/
  barrier : Option Nat
  /-- Type whose checker opened the session. -/
  use : Option TypeUse

/-- What is left to try at a snapshot. -/
inductive Action where
  /-- To go on as if the attempt made here had failed. -/
  | passOver
  /-- To ask for one repeat more of an entry that takes as few as possible. -/
  | oneMore
  | exhausted
  deriving DecidableEq

/-- A saved state of the search. -/
structure Snapshot where
  sessions : List Session
  offset : Nat
  forced : Bool
  action : Action

/-- The state of a search. -/
structure Machine (L : Type) where
  /-- The innermost session first. -/
  sessions : List Session
  /-- The newest snapshot last. -/
  snapshots : Array Snapshot
  offset : Nat
  /-- The current entry has to match once more. -/
  forced : Bool
  failures : L
  /-- Checkers of types, by the name of the type and its parameter. -/
  checkers : List ((String × Option String) × Checker)

namespace Machine

/-- Before the first entry of a grammar. -/
def start [FailureLog L] (g : Grammar) (offset : Nat) : Machine L where
  sessions := [⟨g.entries, 0, offset, .empty, none, none⟩]
  snapshots := #[]
  offset
  forced := false
  failures := FailureLog.empty
  checkers := []

/-- Nodes completed so far in all sessions, the innermost first. -/
def scopes (m : Machine L) : List Trail := m.sessions.map Session.nodes

/-- The setting as the current entry sees it. -/
def inner (m : Machine L) (setting : Setting) : Setting :=
  { setting with outer := m.scopes ++ setting.outer }

/-! ## Moves -/

/-- On to the next entry. -/
def advance (m : Machine L) : Machine L :=
  match m.sessions with
  | [] => { m with forced := false }
  | top :: below =>
    { m with sessions := { top with rest := top.rest.tail, repeats := 0 } :: below, forced := false }

/-- One repeat of the current entry is matched. After one that takes no characters another would
change nothing, so the entry ends. -/
def accept (m : Machine L) (start stop : Nat) (nodes : List Node) : Machine L :=
  let m := { m with offset := stop, forced := false }
  let m := match m.sessions with
    | [] => m
    | top :: below =>
      let top := { top with nodes := top.nodes.pushAll nodes, repeats := top.repeats + 1 }
      { m with sessions := top :: below }
  if start == stop then m.advance else m

def save (m : Machine L) (action : Action) : Machine L :=
  { m with snapshots := m.snapshots.push ⟨m.sessions, m.offset, m.forced, action⟩ }

/-- Into a nested grammar. -/
def enter (m : Machine L) (g : Grammar) (use : Option TypeUse) : Machine L :=
  let barrier := m.snapshots.size
  let m := m.save .passOver
  let session : Session := ⟨g.entries, 0, m.offset, .empty, some barrier, use⟩
  { m with sessions := session :: m.sessions, forced := false }

/-- Records what was seen to fail. -/
def record [FailureLog L] (m : Machine L) (failures : L) : Machine L :=
  { m with failures := FailureLog.merge m.failures failures }

/-- Records a failure to find what was expected. -/
def fail [FailureLog L] (m : Machine L) (offset : Nat) (expected : Expectation) (repeats : Nat) :
    Machine L :=
  m.record (FailureLog.of ⟨offset, expected, repeats⟩)

/-- The state a snapshot leads to, with the snapshots before it. -/
def resume (m : Machine L) (snapshot : Snapshot) : Option (Machine L) :=
  let back := { m with
    sessions := snapshot.sessions, offset := snapshot.offset, forced := snapshot.forced }
  match snapshot.action with
  | .exhausted => none
  | .oneMore => some { back with forced := true }
  | .passOver =>
    match snapshot.sessions with
    | ⟨entry :: _, repeats, _, _, _, _⟩ :: _ =>
      if snapshot.forced || repeats < entry.quantifier.lower then none else some back.advance
    | _ => none

/-- Takes up the newest of the last `count` snapshots that leaves something to try. -/
def backtrackIn : (count : Nat) → Machine L → Option (Machine L)
  | 0, _ => none
  | count + 1, m =>
    match m.snapshots.back? with
    | none => none
    | some snapshot =>
      let m := { m with snapshots := m.snapshots.pop }
      match m.resume snapshot with
      | some next => some next
      | none => backtrackIn count m

/-- Takes up the newest snapshot that leaves something to try. -/
def backtrack (m : Machine L) : Option (Machine L) := backtrackIn m.snapshots.size m

/-- Nothing is left to try at the snapshot saved when the session was opened. -/
def close (m : Machine L) (barrier : Option Nat) : Machine L :=
  match barrier with
  | none => m
  | some place =>
    { m with snapshots := m.snapshots.modify place ({ · with action := .exhausted }) }

end Machine

/-! ## Steps -/

/-- The result of a step: another state, or the end of the search. -/
inductive Step (L : Type) where
  | next (m : Machine L)
  | done (result : Option Match) (failures : L)

/-- What an attempt at an entry comes to. -/
inductive Attempt where
  | matched (stop : Nat) (nodes : List Node)
  /-- A grammar has to be walked first. -/
  | opens (g : Grammar) (use : Option TypeUse)
  | failed

namespace Machine

/-- Back to the newest choice left, or the end of the search. -/
def giveUp (m : Machine L) : Step L :=
  match m.backtrack with
  | some next => .next next
  | none => .done none m.failures

/-- Asks a type for its checker, or takes the one it gave before. -/
def checkerOf (setting : Setting) (m : Machine L) (use : TypeUse) :
    Except Stop (Machine L × Checker) :=
  let key := (use.type.name, use.param)
  let keeps := setting.strategy.keepsCheckers && !use.type.hostDependent
  match if keeps then m.checkers.lookup key else none with
  | some checker => .ok (m, checker)
  | none =>
    let inner := m.inner setting
    match setting.types.supply ⟨setting.text, m.offset, inner.outer⟩ use.param use.type with
    | .error f => .error (.fault f)
    | .ok (.error error) => .error (.refused (.ofGrammarError error))
    | .ok (.ok checker) =>
      .ok (if keeps then { m with checkers := (key, checker) :: m.checkers } else m, checker)

variable [FailureLog L]

/-- Matches a checker for an entry at once. -/
def matchChecker (run : Runner L) (setting : Setting) (m : Machine L) (entry : Entry)
    (checker : Checker) (use : Option TypeUse) : Except Stop (Machine L × Attempt) := do
  let inner := m.inner setting
  let seen ← checker.foundAt run inner m.offset
  let m := m.record seen.failures
  match seen.value with
  | none => pure (m, .failed)
  | some found =>
    let completed ← entry.complete run inner m.offset found use
    let m := m.record completed.failures
    match completed.value with
    | some nodes => pure (m, .matched found.stop nodes)
    | none => pure (m, .failed)

/-- Matches a checker for an entry, or finds that a grammar has to be walked. -/
def attemptChecker (run : Runner L) (setting : Setting) (m : Machine L) (entry : Entry)
    (checker : Checker) (use : Option TypeUse) : Except Stop (Machine L × Attempt) :=
  match checker with
  | .grammar g =>
    if setting.strategy.opens g then .ok (m, .opens g use)
    else m.matchChecker run setting entry checker use
  | _ => m.matchChecker run setting entry checker use

/-- Tries an entry whose target is a type. -/
def attemptType (run : Runner L) (setting : Setting) (m : Machine L) (entry : Entry)
    (use : TypeUse) : Except Stop (Machine L × Attempt) := do
  let (m, checker) ← m.checkerOf setting use
  m.attemptChecker run setting entry checker (some use)

/-- Tries the current entry once at the current offset. -/
def attempt (run : Runner L) (setting : Setting) (m : Machine L) (entry : Entry) :
    Except Stop (Machine L × Attempt) :=
  match entry.target with
  | .checker checker => m.attemptChecker run setting entry checker none
  | .ref r =>
    match setting.types.find? r.name with
    | some type => m.attemptType run setting entry ⟨type, r.param⟩
    | none => .error (.refused (.unknownType r.name m.offset))
  | .type type => m.attemptType run setting entry ⟨type, none⟩

/-- A step at an entry that is not at its end. -/
def stepEntry (run : Runner L) (setting : Setting) (m : Machine L) (entry : Entry)
    (repeats : Nat) : Except Stop (Step L) :=
  let q := entry.quantifier
  if q.isZero then .ok (.next m.advance)
  else if !m.forced && q.isFull repeats then .ok (.next m.advance)
  else if !m.forced && q.greediness == .minimum && q.lower ≤ repeats then
    .ok (.next (m.save .oneMore).advance)
  else do
    let (m, result) ← m.attempt run setting entry
    match result with
    | .matched stop nodes =>
      let m :=
        if q.greediness == .maximum && q.lower ≤ repeats && !m.forced then m.save .passOver else m
      pure (.next (m.accept m.offset stop nodes))
    | .opens g use => pure (.next (m.enter g use))
    | .failed =>
      if m.forced || repeats < q.lower then
        pure (m.fail m.offset (.target entry.target) repeats).giveUp
      else pure (.next m.advance)

/-- A step at the end of a nested grammar: what it matched becomes one repeat of the entry it was
opened for, unless that entry rejects it. -/
def stepOut (run : Runner L) (setting : Setting) (m : Machine L) (finished parent : Session)
    (below : List Session) : Except Stop (Step L) :=
  match parent.rest with
  | [] => .ok m.giveUp
  | entry :: _ => do
    let m := { m with sessions := parent :: below }
    let m := if entry.quantifier.greediness == .possessive then m.close finished.barrier else m
    let found : Found := ⟨m.offset, finished.nodes.toList, true⟩
    let seen ← entry.complete run (m.inner setting) finished.start found finished.use
    let m := m.record seen.failures
    match seen.value with
    | some nodes => pure (.next (m.accept finished.start found.stop nodes))
    | none => pure (m.fail finished.start (.entry entry) parent.repeats).giveUp

/-- One step of a search. -/
def step (run : Runner L) (setting : Setting) (mode : Mode) (m : Machine L) :
    Except Stop (Step L) :=
  match m.sessions with
  | [] => .ok (.done none m.failures)
  | top :: below =>
    match top.rest, below with
    | entry :: _, _ => m.stepEntry run setting entry top.repeats
    | [], parent :: below => m.stepOut run setting top parent below
    | [], [] =>
      if mode == .whole && m.offset != setting.text.size then
        .ok (m.fail m.offset .endOfInput 0).giveUp
      else .ok (.done (some ⟨m.offset, top.nodes.toList⟩) m.failures)

/-- Steps until the search ends. Searches made within a step have one step less to end in. -/
def run : (fuel : Nat) → Setting → Mode → Machine L → Except Stop (Seen L (Option Match))
  | 0, _, _, _ => .error (.fault .outOfFuel)
  | fuel + 1, setting, mode, m =>
    match m.step (fun s md g offset => run fuel s md (.start g offset)) setting mode with
    | .error stop => .error stop
    | .ok (.done result failures) => .ok ⟨result, failures⟩
    | .ok (.next m) => run fuel setting mode m

end Machine

/-- Matches grammars by searches of at most so many steps. -/
def runWithin [FailureLog L] (fuel : Nat) : Runner L :=
  fun setting mode g offset => Machine.run fuel setting mode (.start g offset)

end TextGrammar
