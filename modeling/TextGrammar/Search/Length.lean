/-
How many characters a checker matches at an offset. Grammars inside it are
matched by the given runner, as searches of their own that see no captures.
-/
import TextGrammar.Search.Outcome

namespace TextGrammar

variable {L : Type}

/-- The text has these characters from the offset on. -/
def Text.hasAt (text : Text) (offset : Nat) : List Char → Bool
  | [] => true
  | c :: cs => text[offset]? == some c && hasAt text (offset + 1) cs

def Word.lengthAt (word : Word) (text : Text) (offset : Nat) : Option Nat :=
  if text.hasAt offset word.chars then some word.length else none

/-- No characters match at any offset, even past the end; all that are left only up to the end. -/
def Checker.anyLengthAt (width : Option Nat) (text : Text) (offset : Nat) : Option Nat :=
  match width with
  | some 0 => some 0
  | some n => if offset + n ≤ text.size then some n else none
  | none => if offset ≤ text.size then some (text.size - offset) else none

/-- The longer of two lengths. -/
def longerLength : Option Nat → Option Nat → Option Nat
  | some a, some b => some (max a b)
  | some a, none => some a
  | none, b => b

/-- The length of the first match of a grammar. An error of a type counts as no match. -/
def Grammar.lengthAt (run : Runner L) (setting : Setting) (offset : Nat) (g : Grammar) :
    Except Fault (Option Nat) :=
  match run setting.alone .beginning g offset with
  | .ok seen => .ok (seen.value.map (·.stop - offset))
  | .error (.refused _) => .ok none
  | .error (.fault f) => .error f

/-- Whether a grammar matches all of a text. -/
def Grammar.matchesAll (run : Runner L) (setting : Setting) (text : Text) (g : Grammar) :
    Except Fault Bool :=
  match run { setting.alone with text } .whole g 0 with
  | .ok seen => .ok seen.value.isSome
  | .error (.refused _) => .ok false
  | .error (.fault f) => .error f

/-- Spans of the regions from `start` on, if the grammars of all of them match. -/
def Region.spansFrom (run : Runner L) (setting : Setting) :
    (start : Nat) → List Region → Except Fault (Option (List (Nat × Nat)))
  | _, [] => .ok (some [])
  | start, region :: regions => do
    let stop := match region.width with
      | some width => start + width
      | none => setting.text.size
    let fits ← match region.grammar with
      | some g => g.matchesAll run setting (setting.text.slice start stop)
      | none => .ok true
    if fits then
      pure ((← spansFrom run setting stop regions).map ((start, stop) :: ·))
    else pure none

/-- Spans of all regions when they fit into the text and their grammars match. -/
def Region.spansAt (run : Runner L) (setting : Setting) (offset : Nat) (regions : List Region) :
    Except Fault (Option (List (Nat × Nat))) :=
  if offset + Region.declaredWidth regions ≤ setting.text.size then
    Region.spansFrom run setting offset regions
  else .ok none

/-- Where the last of some spans ends, or `offset` if there is none. -/
def lastStop (offset : Nat) (spans : List (Nat × Nat)) : Nat :=
  match spans.getLast? with
  | some (_, stop) => stop
  | none => offset

mutual

/-- The length of what the checker matches exactly at the offset. -/
def Checker.lengthAt (run : Runner L) (setting : Setting) (offset : Nat) :
    Checker → Except Fault (Option Nat)
  | .char set =>
    .ok (match setting.text[offset]? with
      | some c => if set.contains setting.types.classes c then some 1 else none
      | none => none)
  | .word w => .ok (w.lengthAt setting.text offset)
  | .oneOf choices fallback => do
    match ← Checker.longestAt run setting offset choices with
    | some n => pure (some n)
    | none => Checker.fallbackLengthAt run setting offset fallback
  | .any width => .ok (Checker.anyLengthAt width setting.text offset)
  | .not item =>
    if setting.text.size ≤ offset then .ok (some 0)
    else do
      match ← Checker.lengthAt run setting offset item with
      | some _ => pure none
      | none => pure (some 1)
  | .fixed regions => do
    pure ((← Region.spansAt run setting offset regions).map (lastStop offset · - offset))
  | .grammar g => g.lengthAt run setting offset

/-- The greatest length among the choices. -/
def Checker.longestAt (run : Runner L) (setting : Setting) (offset : Nat) :
    List Checker → Except Fault (Option Nat)
  | [] => .ok none
  | c :: cs => do
    let later ← Checker.longestAt run setting offset cs
    let here ← Checker.lengthAt run setting offset c
    pure (longerLength later here)

def Checker.fallbackLengthAt (run : Runner L) (setting : Setting) (offset : Nat) :
    Option Checker → Except Fault (Option Nat)
  | none => .ok none
  | some c => Checker.lengthAt run setting offset c

end

/-- The last choice is asked first. -/
theorem Checker.longestAt_eq_foldrM (run : Runner L) (setting : Setting) (offset : Nat)
    (cs : List Checker) : Checker.longestAt run setting offset cs =
      cs.foldrM (fun c later => do pure (longerLength later (← c.lengthAt run setting offset)))
        none := by
  induction cs with
  | nil => rfl
  | cons c cs ih => rw [Checker.longestAt, ih, List.foldrM_cons]

theorem Checker.fallbackLengthAt_eq_elim (run : Runner L) (setting : Setting) (offset : Nat)
    (fallback : Option Checker) : Checker.fallbackLengthAt run setting offset fallback =
      fallback.elim (.ok none) fun c => c.lengthAt run setting offset := by
  cases fallback <;> rfl

end TextGrammar
