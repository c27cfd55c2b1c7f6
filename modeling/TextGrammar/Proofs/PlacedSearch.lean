/-
What can be said of a node and of all that stands to its left, for every node
of a match. While a search is under way the nodes it has completed may still be
dropped, and those that stay find their place later: they are passed on by an
entry without a name, put below a named node, or kept for the longest of several
choices. What is to the left of a node is the same before and after, so it is
enough to know what holds of the nodes of types when they are made.
-/
import TextGrammar.Proofs.LeftContext
import TextGrammar.Proofs.States
import TextGrammar.Proofs.TiledSearch

namespace TextGrammar

variable {L : Type} [FailureLog L]

/-! ## What is asked of types -/

/-- The entry matches with a checker of its own, or refers to a type as it may. -/
def Entry.Refers (refOk : TypeRef → Prop) (entry : Entry) : Prop :=
  match entry.target with
  | .checker _ => True
  | .ref r => refOk r
  | .type _ => False

theorem Entry.Refers.mono {refOk refOk' : TypeRef → Prop} {entry : Entry}
    (h : entry.Refers refOk) (hmono : ∀ r, refOk r → refOk' r) : entry.Refers refOk' := by
  simp only [Entry.Refers] at h ⊢
  split
  · trivial
  · next r ht =>
    rw [ht] at h
    exact hmono r h
  · next type ht =>
    rw [ht] at h
    exact h

theorem Entry.HasChecker.refers {entry : Entry} (h : entry.HasChecker)
    (refOk : TypeRef → Prop) : entry.Refers refOk := by
  obtain ⟨c, hc⟩ := h
  simp only [Entry.Refers, hc]

/-- A type in use by an entry that refers to it. -/
def TypeEnv.Uses (types : TypeEnv) (refOk : TypeRef → Prop) (use : TypeUse) : Prop :=
  ∃ name, refOk ⟨name, use.param⟩ ∧ types.find? name = some use.type

/-- The checker may match from the offset up to `stop`. A grammar is walked, which may end
anywhere. -/
def Checker.Reaches (L : Type) [FailureLog L] (setting : Setting) (offset stop : Nat) :
    Checker → Prop
  | .grammar _ => True
  | c => ∃ (run : Runner L) (found : Found) (failures : L),
    c.foundAt run setting offset = .ok ⟨some found, failures⟩ ∧ found.stop = stop

/-- A search with these types that can be made from this offset, in a beginning of the text. -/
structure Setting.Within (env : TypeEnv) (whole : Text) (setting : Setting) (offset : Nat) : Prop
    extends setting.Fits offset where
  sameTypes : setting.types = env
  beginning : setting.text = whole.slice 0 setting.text.size

/-- Nodes are as they should be as soon as they have no type, and types that may be referred to make
only such nodes, whatever comes to lie below them. -/
structure TypeEnv.Places (L : Type) [FailureLog L] (types : TypeEnv) (text : Text)
    (refOk : TypeRef → Prop) (holds : List Node → Node → Prop) : Prop where
  untyped : ∀ left node, node.typeName = none → holds left node
  named : ∀ name type, types.find? name = some type → type.name = name
  supplied : ∀ use, types.Uses refOk use → ∀ host c,
    types.supply host use.param use.type = .ok (.ok c) →
      c.Every (Entry.Refers refOk) Region.AreColumns
  typed : ∀ use, types.Uses refOk use → ∀ host c,
    types.supply host use.param use.type = .ok (.ok c) →
      ∀ setting offset, setting.Within types text offset →
        (use.type.hostDependent = true → host = ⟨setting.text, offset, setting.outer⟩) →
          ∀ stop, c.Reaches L setting offset stop → ∀ name children,
            holds (Trail.leftOf setting.outer)
              ⟨name, some use.type.name, use.param, offset, stop, children⟩

variable {types : TypeEnv} {text : Text} {refOk : TypeRef → Prop}
  {holds : List Node → Node → Prop}

/-- The nodes of a search are as they should be, next to those around the search. -/
def Runner.Places (types : TypeEnv) (text : Text) (refOk : TypeRef → Prop)
    (holds : List Node → Node → Prop) (run : Runner L) : Prop :=
  ∀ (setting : Setting) (mode : Mode) (g : Grammar) (offset : Nat),
    setting.Within types text offset → g.Every (Entry.Refers refOk) Region.AreColumns →
      Gives (fun seen => ∀ m, seen.value = some m →
        Node.AllPlaced holds (Trail.leftOf setting.outer) m.nodes) (run setting mode g offset)

/-- What is found has nodes that are as they should be, next to those around the attempt. -/
def Found.Placed (holds : List Node → Node → Prop) (setting : Setting)
    (seen : Seen L (Option Found)) : Prop :=
  ∀ found, seen.value = some found →
    Node.AllPlaced holds (Trail.leftOf setting.outer) found.nodes

variable {run run' : Runner L} {setting : Setting} {offset : Nat}

/-! ## Attempts -/

theorem Checker.choiceAt_placed_leaf {c : Checker} (hg : ∀ g, c ≠ .grammar g)
    (hc : ∀ cs fb, c ≠ .oneOf cs fb) :
    Gives (Found.Placed holds setting) (c.choiceAt run setting offset) := by
  rw [Checker.choiceAt_of_lengthAt hg hc]
  split
  · refine .ok fun found hfound => ?_
    obtain ⟨n, _, rfl⟩ := Option.map_eq_some_iff.mp hfound
    trivial
  · exact .error

mutual

theorem Checker.choiceAt_placed (hrun : run.Places types text refOk holds)
    (within : setting.Within types text offset) : ∀ {c : Checker},
    c.Every (Entry.Refers refOk) Region.AreColumns →
      Gives (Found.Placed holds setting) (c.choiceAt run setting offset)
  | .char _, _ | .word _, _ | .any _, _ | .not _, _ | .fixed _, _ =>
    Checker.choiceAt_placed_leaf (by simp) (by simp)
  | .grammar g, hg => by
    refine (hrun setting .beginning g offset within hg).bind fun seen hseen => .ok ?_
    intro found hfound
    obtain ⟨m, hm, rfl⟩ := Option.map_eq_some_iff.mp hfound
    exact hseen m hm
  | .oneOf choices fallback, hc => by
    simp only [Checker.choiceAt]
    refine (Checker.choicesAt_placed hrun within hc.1).bind fun chosen hchosen => ?_
    cases hvalue : chosen.value with
    | some found =>
      simp only
      exact .ok hchosen
    | none =>
      simp only
      exact (Checker.fallbackAt_placed hrun within hc.2).bind fun other hother => .ok hother

theorem Checker.choicesAt_placed (hrun : run.Places types text refOk holds)
    (within : setting.Within types text offset) : ∀ {cs : List Checker},
    Checker.EveryOf (Entry.Refers refOk) Region.AreColumns cs →
      Gives (Found.Placed holds setting) (Checker.choicesAt run setting offset cs)
  | [], _ => .ok fun _ hfound => nomatch hfound
  | c :: cs, hcs => by
    refine (Checker.choicesAt_placed hrun within hcs.2).bind fun later hlater => ?_
    refine (Checker.choiceAt_placed hrun within hcs.1).bind fun here hhere => ?_
    exact .ok fun found hfound =>
      (eq_or_eq_of_further hfound).elim (hlater found) (hhere found)

theorem Checker.fallbackAt_placed (hrun : run.Places types text refOk holds)
    (within : setting.Within types text offset) : ∀ {fallback : Option Checker},
    Checker.EveryIn (Entry.Refers refOk) Region.AreColumns fallback →
      Gives (Found.Placed holds setting) (Checker.fallbackAt run setting offset fallback)
  | none, _ => .ok fun _ hfound => nomatch hfound
  | some c, hc => Checker.choiceAt_placed hrun within (c := c) hc

end

/-- Columns have no type. -/
theorem Region.nodes_placed {left : List Node}
    (untyped : ∀ left node, node.typeName = none → holds left node) (regions : List Region)
    (spans : List (Nat × Nat)) : Node.AllPlaced holds left (Region.nodes regions spans) := by
  refine .leaves fun node hnode => ?_
  obtain ⟨i, hi, rfl⟩ := List.mem_iff_getElem.mp hnode
  simp only [Region.nodes, List.getElem_zipWith, true_and]
  exact fun left => untyped left _ rfl

theorem Checker.foundAt_placed (law : types.Places L text refOk holds)
    (hrun : run.Places types text refOk holds) (within : setting.Within types text offset)
    {c : Checker} (hc : c.Every (Entry.Refers refOk) Region.AreColumns) :
    Gives (Found.Placed holds setting) (c.foundAt run setting offset) := by
  cases c with
  | fixed regions =>
    simp only [Checker.foundAt]
    split
    · refine .ok fun found hfound => ?_
      obtain ⟨spans, _, rfl⟩ := Option.map_eq_some_iff.mp hfound
      exact Region.nodes_placed law.untyped regions spans
    · exact .error
  | _ => exact Checker.choiceAt_placed hrun within hc

/-! ## Completing a match -/

theorem Entry.reread_placed (hrun : run.Places types text refOk holds)
    (within : setting.Within types text offset) {entry : Entry}
    (hentry : entry.Every (Entry.Refers refOk) Region.AreColumns) {found : Found}
    (hle : offset ≤ found.stop)
    (hfound : Node.AllPlaced holds (Trail.leftOf setting.outer) found.nodes) :
    Gives (fun seen => ∀ kept, seen.value = some kept → kept.stop = found.stop ∧
        Node.AllPlaced holds (Trail.leftOf setting.outer) kept.nodes)
      (entry.reread run setting offset found) := by
  obtain ⟨capture, target, q, second⟩ := entry
  cases second with
  | none =>
    refine .ok fun kept hkept => ?_
    obtain rfl := Option.some.inj hkept
    exact ⟨rfl, hfound⟩
  | some g =>
    simp only [Entry.reread]
    split
    · next hstop =>
      have hsize := Text.size_slice_zero hstop
      -- The text is cut at the end of the match, and what is around the search stays.
      have hpart : ({ setting with text := setting.text.slice 0 found.stop } : Setting).Within
          types text offset :=
        ⟨⟨within.types, Nat.lt_of_le_of_lt (Text.size_slice_le _ _ _) within.size,
            by simpa only [hsize] using hle, within.outer⟩, within.sameTypes, by
          simp only [hsize]
          rw [within.beginning]
          simp only [Text.slice, Array.extract_extract, Nat.zero_add, Nat.min_eq_left hstop]⟩
      refine (hrun _ .whole g offset hpart hentry.2.2).bind fun seen hseen => .ok ?_
      intro kept hkept
      obtain ⟨m, hm, rfl⟩ := Option.map_eq_some_iff.mp hkept
      exact ⟨rfl, hseen m hm⟩
    · exact .error

/-- The nodes of an entry without a type, around those of its match. -/
theorem Entry.untypedNodes_placed {left : List Node}
    (untyped : ∀ left node, node.typeName = none → holds left node) (entry : Entry) {found : Found}
    (hfound : Node.AllPlaced holds left found.nodes) :
    Node.AllPlaced holds left (entry.untypedNodes offset found) := by
  simp only [Entry.untypedNodes]
  cases entry.capture with
  | some capture =>
    refine .single (untyped _ _ rfl) ?_
    split
    · trivial
    · exact hfound
  | none =>
    simp only
    split
    · exact hfound
    · exact .single (untyped _ _ rfl) hfound

/-- A complete match has nodes that are as they should be, if a node of its type may end there. -/
theorem Entry.complete_placed (law : types.Places L text refOk holds)
    (hrun : run.Places types text refOk holds) (within : setting.Within types text offset)
    {entry : Entry} (hentry : entry.Every (Entry.Refers refOk) Region.AreColumns) {found : Found}
    (hle : offset ≤ found.stop)
    (hfound : Node.AllPlaced holds (Trail.leftOf setting.outer) found.nodes) {use : Option TypeUse}
    (huse : ∀ u, use = some u → ∀ name children, holds (Trail.leftOf setting.outer)
      ⟨name, some u.type.name, u.param, offset, found.stop, children⟩) :
    Gives (fun seen => ∀ nodes, seen.value = some nodes →
      Node.AllPlaced holds (Trail.leftOf setting.outer) nodes)
      (entry.complete run setting offset found use) := by
  simp only [Entry.complete]
  refine (Entry.reread_placed hrun within hentry hle hfound).bind fun seen hseen => ?_
  obtain ⟨_ | kept, failures⟩ := seen
  · exact .ok fun nodes hnodes => by cases hnodes
  obtain ⟨hstop, hkept⟩ := hseen kept rfl
  cases use with
  | none =>
    refine .ok fun nodes hnodes => ?_
    obtain rfl := Option.some.inj hnodes
    exact Entry.untypedNodes_placed law.untyped entry hkept
  | some u =>
    have hnode := huse u rfl entry.name?
    rw [← hstop] at hnode
    simp only
    split
    · refine .ok fun nodes hnodes => ?_
      obtain rfl := Option.some.inj hnodes
      split
      · exact .single (hnode []) trivial
      · exact .single (hnode kept.nodes) hkept
    · exact .ok fun nodes hnodes => by cases hnodes

/-! ## States -/

/-- The nodes of each session are as they should be, next to those of the sessions around it, and
so will be the node of the type that has opened the session, wherever it ends. -/
def Session.Placed (refOk : TypeRef → Prop) (holds : List Node → Node → Prop)
    (outer : List Trail) : List Session → Prop
  | [] => True
  | session :: below =>
    let left := Trail.leftOf (below.map Session.nodes ++ outer)
    Entry.EveryOf (Entry.Refers refOk) Region.AreColumns session.rest ∧
      Node.AllPlaced holds left session.nodes.toList ∧
      (∀ use, session.use = some use → ∀ stop name children,
        holds left ⟨name, some use.type.name, use.param, session.start, stop, children⟩) ∧
      Session.Placed refOk holds outer below

/-- Each checker that is kept was given by the type it is kept for, which gives it whatever is
around it. -/
def TypeEnv.Gave (types : TypeEnv) (refOk : TypeRef → Prop)
    (checkers : List ((String × Option String) × Checker)) : Prop :=
  ∀ kept ∈ checkers, ∀ use, types.Uses refOk use → kept.1 = (use.type.name, use.param) →
    use.type.hostDependent = false ∧
      ∃ host, types.supply host use.param use.type = .ok (.ok kept.2)

namespace Session.Placed

variable {outer : List Trail} {top : Session} {below : List Session}

theorem closed : Session.Closed fun _ => Session.Placed refOk holds outer := by
  intro _ top below h
  obtain ⟨hrest, h⟩ := h
  refine ⟨?_, h⟩
  obtain ⟨rest, _, _, _, _, _⟩ := top
  cases rest with
  | nil => trivial
  | cons entry rest => exact hrest.2

theorem push {nodes : List Node} {repeats : Nat}
    (h : Session.Placed refOk holds outer (top :: below))
    (hnodes : Node.AllPlaced holds
      (Trail.leftOf ((top :: below).map Session.nodes ++ outer)) nodes) :
    Session.Placed refOk holds outer
      ({ top with nodes := top.nodes.pushAll nodes, repeats } :: below) := by
  obtain ⟨hrest, hplaced, h⟩ := h
  refine ⟨hrest, ?_, h⟩
  rw [Trail.toList_pushAll]
  exact hplaced.append hnodes

end Session.Placed

/-- A state all of whose nodes are as they should be. -/
abbrev Machine.Placed (types : TypeEnv) (refOk : TypeRef → Prop)
    (holds : List Node → Node → Prop) (outer : List Trail) (m : Machine L) : Prop :=
  m.Holds (fun _ => Session.Placed refOk holds outer) (types.Gave refOk)

variable {m : Machine L} {start : Nat} {outer : List Trail}

/-- A state like another one but for the failures met and the checkers kept. -/
structure Machine.Follows (types : TypeEnv) (refOk : TypeRef → Prop)
    (holds : List Node → Node → Prop) (outer : List Trail) (m m' : Machine L) : Prop where
  placed : m'.Placed types refOk holds outer
  sessions : m'.sessions = m.sessions
  offset : m'.offset = m.offset

omit [FailureLog L] in
theorem Machine.Holds.follows (h : m.Placed types refOk holds outer) :
    m.Follows types refOk holds outer m :=
  ⟨h, rfl, rfl⟩

theorem Machine.Follows.record {m' : Machine L} (h : m.Follows types refOk holds outer m')
    (failures : L) : m.Follows types refOk holds outer (m'.record failures) :=
  ⟨⟨h.placed.toStores.record failures, h.placed.sessions⟩, h.sessions, h.offset⟩

/-- What a checker that a type gave at a state can be relied on for. -/
def TypeUse.Given (types : TypeEnv) (refOk : TypeRef → Prop) (setting : Setting) (offset : Nat)
    (use : TypeUse) (c : Checker) : Prop :=
  types.Uses refOk use ∧ ∃ host, types.supply host use.param use.type = .ok (.ok c) ∧
    (use.type.hostDependent = true → host = ⟨setting.text, offset, setting.outer⟩)

omit [FailureLog L] in
theorem Machine.checkerOf_placed
    (named : ∀ name type, types.find? name = some type → type.name = name)
    (htypes : setting.types = types) (h : m.Placed types refOk holds outer) {use : TypeUse}
    (huse : types.Uses refOk use) :
    Gives (fun r => m.Follows types refOk holds outer r.1 ∧
        use.Given types refOk (m.inner setting) m.offset r.2)
      (m.checkerOf setting use) := by
  simp only [Machine.checkerOf, htypes]
  split
  · next checker hlookup =>
    split at hlookup
    · obtain ⟨l₁, l₂, hl, _⟩ := List.lookup_eq_some_iff.mp hlookup
      have hmem : ((use.type.name, use.param), checker) ∈ m.checkers :=
        hl ▸ List.mem_append_right l₁ List.mem_cons_self
      obtain ⟨hindependent, host, hsupply⟩ := h.checkers _ hmem use huse rfl
      refine .ok ⟨h.follows, huse, host, hsupply, fun hdependent => ?_⟩
      rw [hindependent] at hdependent
      cases hdependent
    · cases hlookup
  · split
    · exact .error
    · exact .error
    · next checker hsupply =>
      refine .ok ⟨?_, huse, _, hsupply, fun _ => rfl⟩
      split
      · next hkeeps =>
        refine ⟨⟨⟨h.saved, List.forall_mem_cons.mpr ⟨fun other hother hkey => ?_, h.checkers⟩⟩,
          h.sessions⟩, rfl, rfl⟩
        -- A type that is found has the name it is found by, so this is the same type.
        obtain ⟨name, _, hfind⟩ := huse
        obtain ⟨name', _, hfind'⟩ := hother
        obtain ⟨hname, hparam⟩ := Prod.mk.inj hkey
        have hnames : name = name' := by
          rw [← named name use.type hfind, ← named name' other.type hfind', hname]
        have htype : use.type = other.type := by
          rw [hnames, hfind'] at hfind
          exact (Option.some.inj hfind).symm
        simp only [Bool.and_eq_true, Bool.not_eq_true'] at hkeeps
        rw [← htype, ← hparam]
        exact ⟨hkeeps.2, _, hsupply⟩
      · exact h.follows

/-- What an attempt comes to: nodes that are as they should be, or a grammar to walk. -/
def Attempt.Placed (refOk : TypeRef → Prop) (holds : List Node → Node → Prop)
    (left : List Node) (offset : Nat) : Attempt → Prop
  | .matched _ nodes => Node.AllPlaced holds left nodes
  | .opens g use => g.Every (Entry.Refers refOk) Region.AreColumns ∧
    ∀ u, use = some u → ∀ stop name children,
      holds left ⟨name, some u.type.name, u.param, offset, stop, children⟩
  | .failed => True

/-- An attempt made at a state, with the state after it. -/
def Machine.Attempts (types : TypeEnv) (refOk : TypeRef → Prop) (holds : List Node → Node → Prop)
    (setting : Setting) (m : Machine L) (r : Machine L × Attempt) : Prop :=
  m.Follows types refOk holds setting.outer r.1 ∧
    r.2.Placed refOk holds (Trail.leftOf (m.inner setting).outer) m.offset

section

variable (law : types.Places L text refOk holds) (halike : run.Alike run')
  (hrun : run.Places types text refOk holds)
include law halike hrun

theorem Machine.matchChecker_placed (within : (m.inner setting).Within types text m.offset)
    (h : m.Placed types refOk holds setting.outer) {entry : Entry}
    (hentry : entry.Every (Entry.Refers refOk) Region.AreColumns) {checker : Checker}
    (hchecker : checker.Every (Entry.Refers refOk) Region.AreColumns) {use : Option TypeUse}
    (huse : ∀ u, use = some u → ∀ stop, checker.Reaches L (m.inner setting) m.offset stop →
      ∀ name children, holds (Trail.leftOf (m.inner setting).outer)
        ⟨name, some u.type.name, u.param, m.offset, stop, children⟩) :
    Gives (m.Attempts types refOk holds setting) (m.matchChecker run setting entry checker use) := by
  simp only [Machine.matchChecker]
  have htiles := (Checker.foundAt_alike halike within.toFits hchecker.built).gives
  have hplaced := Checker.foundAt_placed law hrun within hchecker
  have hself : Gives (fun seen => ∀ found, seen.value = some found →
      checker.Reaches L (m.inner setting) m.offset found.stop)
      (checker.foundAt run (m.inner setting) m.offset) := by
    intro seen hseen found hfound
    obtain ⟨value, failures⟩ := seen
    obtain rfl : value = some found := hfound
    cases checker with
    | grammar g => trivial
    | _ => exact ⟨run, found, failures, hseen, rfl⟩
  refine ((htiles.both hplaced).both hself).bind fun seen hseen => ?_
  obtain ⟨⟨htiles, hplaced⟩, hself⟩ := hseen
  obtain ⟨_ | found, failures⟩ := seen
  · exact .ok ⟨h.follows.record failures, trivial⟩
  have hcomplete := Entry.complete_placed law hrun within hentry (htiles found rfl).start
    (hplaced found rfl) fun u hu => huse u hu found.stop (hself found rfl)
  refine hcomplete.bind fun completed hcompleted => ?_
  obtain ⟨_ | nodes, later⟩ := completed
  · exact .ok ⟨(h.follows.record failures).record later, trivial⟩
  · exact .ok ⟨(h.follows.record failures).record later, hcompleted nodes rfl⟩

theorem Machine.attemptChecker_placed (within : (m.inner setting).Within types text m.offset)
    (h : m.Placed types refOk holds setting.outer) {entry : Entry}
    (hentry : entry.Every (Entry.Refers refOk) Region.AreColumns) {checker : Checker}
    (hchecker : checker.Every (Entry.Refers refOk) Region.AreColumns) {use : Option TypeUse}
    (huse : ∀ u, use = some u → ∀ stop, checker.Reaches L (m.inner setting) m.offset stop →
      ∀ name children, holds (Trail.leftOf (m.inner setting).outer)
        ⟨name, some u.type.name, u.param, m.offset, stop, children⟩) :
    Gives (m.Attempts types refOk holds setting)
      (m.attemptChecker run setting entry checker use) := by
  have hmatch := Machine.matchChecker_placed law halike hrun within h hentry hchecker huse
  cases checker with
  | grammar g =>
    simp only [Machine.attemptChecker]
    split
    · exact .ok ⟨h.follows, hchecker, fun u hu stop => huse u hu stop trivial⟩
    · exact hmatch
  | _ => exact hmatch

/-- **An attempt at an entry** comes to nodes that are as they should be next to all that is
complete, if to any. -/
theorem Machine.attempt_placed (within : (m.inner setting).Within types text m.offset)
    (h : m.Placed types refOk holds setting.outer) {entry : Entry}
    (hentry : entry.Every (Entry.Refers refOk) Region.AreColumns) :
    Gives (m.Attempts types refOk holds setting) (m.attempt run setting entry) := by
  have htypes : setting.types = types := within.sameTypes
  have hrefers := hentry.entry
  have htarget := hentry.target
  simp only [Machine.attempt]
  cases ht : entry.target with
  | checker c =>
    rw [ht] at htarget
    exact Machine.attemptChecker_placed law halike hrun within h hentry htarget fun _ hu => by
      cases hu
  | type t =>
    simp only [Entry.Refers, ht] at hrefers
  | ref r =>
    simp only [htypes]
    split
    · next type hfind =>
      have hrefOk : refOk r := by simpa only [Entry.Refers, ht] using hrefers
      have huse : types.Uses refOk ⟨type, r.param⟩ := ⟨r.name, hrefOk, hfind⟩
      refine (Machine.checkerOf_placed law.named htypes h huse).bind fun r hr => ?_
      obtain ⟨m', c⟩ := r
      have hm' := hr
      obtain ⟨hfollows, _, host, hsupply, hhost⟩ := hm'
      obtain ⟨hplaced, hsessions, hoffset⟩ := hfollows
      simp only at hplaced hsessions hoffset
      have hsame : m'.inner setting = m.inner setting := by
        simp only [Machine.inner, Machine.scopes, hsessions]
      have within' : (m'.inner setting).Within types text m'.offset := by
        rw [hsame, hoffset]
        exact within
      refine (Machine.attemptChecker_placed law halike hrun within' hplaced hentry
        (law.supplied _ huse host c hsupply) fun u hu => ?_).mono fun r hr => ?_
      · obtain rfl := Option.some.inj hu
        rw [hsame, hoffset]
        exact law.typed _ huse host c hsupply _ _ within hhost
      · obtain ⟨hr, hattempt⟩ := hr
        rw [hsame, hoffset] at hattempt
        exact ⟨⟨hr.placed, hr.sessions.trans hsessions, hr.offset.trans hoffset⟩, hattempt⟩
    · exact .error

/-! ## Steps -/

theorem Machine.stepEntry_placed (within : (m.inner setting).Within types text m.offset)
    (h : m.Placed types refOk holds setting.outer) {top : Session} {below : List Session}
    (hm : m.sessions = top :: below) {entry : Entry}
    (hentry : entry.Every (Entry.Refers refOk) Region.AreColumns) (repeats : Nat) :
    Gives (Step.Holds (fun _ => Session.Placed refOk holds setting.outer) (types.Gave refOk)
        fun found => Node.AllPlaced holds (Trail.leftOf setting.outer) found.nodes)
      (m.stepEntry run setting entry repeats) := by
  simp only [Machine.stepEntry]
  split
  · exact .ok (h.advance Session.Placed.closed)
  split
  · exact .ok (h.advance Session.Placed.closed)
  split
  · exact .ok ((h.save .oneMore).advance Session.Placed.closed)
  refine (Machine.attempt_placed law halike hrun within h hentry).bind fun r hr => ?_
  obtain ⟨m', result⟩ := r
  obtain ⟨hfollows, hresult⟩ := hr
  obtain ⟨hplaced, hsessions, hoffset⟩ := hfollows
  simp only at hplaced hsessions hoffset hresult
  have hm' : m'.sessions = top :: below := hsessions.trans hm
  cases result with
  | matched stop nodes =>
    have hleft : (m.inner setting).outer = m'.sessions.map Session.nodes ++ setting.outer := by
      rw [hsessions]
      rfl
    have hpush : Session.Placed refOk holds setting.outer
        ({ top with nodes := top.nodes.pushAll nodes, repeats := top.repeats + 1 } :: below) := by
      refine Session.Placed.push (hm' ▸ hplaced.sessions) ?_
      rw [← hm', ← hleft]
      exact hresult
    refine .ok ?_
    split
    · exact (hplaced.save .passOver).toStores.accept Session.Placed.closed hm' hpush
    · exact hplaced.toStores.accept Session.Placed.closed hm' hpush
  | opens g use =>
    obtain ⟨hg, huse⟩ := hresult
    refine .ok (hplaced.enter ?_)
    refine ⟨?_, trivial, fun u hu stop => ?_, hplaced.sessions⟩
    · cases g
      exact hg
    · simp only [hsessions, hoffset]
      exact huse u hu stop
  | failed =>
    simp only
    split
    · exact .ok ((hplaced.toStores.record _).giveUp Session.Placed.closed)
    · exact .ok (hplaced.advance Session.Placed.closed)

omit halike in
theorem Machine.stepOut_placed {finished parent : Session} {below : List Session}
    (hm : m.sessions = finished :: parent :: below) (hstop : finished.start ≤ m.offset)
    (within : Setting.Within types text
      { setting with outer := (parent :: below).map Session.nodes ++ setting.outer } finished.start)
    (h : m.Placed types refOk holds setting.outer) :
    Gives (Step.Holds (fun _ => Session.Placed refOk holds setting.outer) (types.Gave refOk)
        fun found => Node.AllPlaced holds (Trail.leftOf setting.outer) found.nodes)
      (m.stepOut run setting finished parent below) := by
  obtain ⟨stores, hsessions⟩ := h
  rw [hm] at hsessions
  obtain ⟨_, hnodes, huse, hparent⟩ := hsessions
  simp only [Machine.stepOut]
  split
  · exact .ok (stores.giveUp Session.Placed.closed)
  · next entry rest hrest =>
    have hentry : entry.Every (Entry.Refers refOk) Region.AreColumns := hparent.1.first hrest
    have stores' : Machine.Stores (fun _ => Session.Placed refOk holds setting.outer)
        (types.Gave refOk) { m with sessions := parent :: below } :=
      ⟨stores.saved, stores.checkers⟩
    obtain ⟨out, heq, hout, hsessions, hoffset⟩ :=
      stores'.closing (entry.quantifier.greediness == .possessive) finished.barrier
    simp only at hsessions hoffset
    have hinner : out.inner setting =
        { setting with outer := (parent :: below).map Session.nodes ++ setting.outer } := by
      simp only [Machine.inner, Machine.scopes, hsessions]
    rw [heq, hoffset, hinner]
    refine (Entry.complete_placed law hrun within hentry hstop hnodes fun u hu =>
      huse u hu m.offset).bind fun seen hseen => ?_
    obtain ⟨_ | nodes, failures⟩ := seen
    · exact .ok (((hout.record failures).record _).giveUp Session.Placed.closed)
    · exact .ok ((hout.record failures).accept Session.Placed.closed hsessions
        (hparent.push (hseen nodes rfl)))

/-- **A step keeps all nodes as they should be** with what is to their left. -/
theorem Machine.step_placed (within : setting.Within types text start) (mode : Mode)
    (tidy : m.Tidy setting.text.size start) (h : m.Placed types refOk holds setting.outer) :
    Gives (Step.Holds (fun _ => Session.Placed refOk holds setting.outer) (types.Gave refOk)
        fun found => Node.AllPlaced holds (Trail.leftOf setting.outer) found.nodes)
      (m.step run setting mode) := by
  have within' {stop : Nat} {sessions : List Session} (hstop : stop ≤ setting.text.size)
      (htile : Session.Tile start stop sessions) : Setting.Within types text
        { setting with outer := sessions.map Session.nodes ++ setting.outer } stop :=
    ⟨Machine.inner_fits (m := { m with sessions }) within.toFits hstop htile, within.sameTypes,
      within.beginning⟩
  have hsessions := h.sessions
  have htile := tidy.tile
  simp only [Machine.step]
  split
  · exact .ok fun _ heq => by cases heq
  · next top below hm =>
    rw [hm] at hsessions htile
    split
    · next _ entry rest hrest =>
      have hentry := hsessions.1.first hrest
      exact Machine.stepEntry_placed law halike hrun (within' tidy.within tidy.tile) h hm hentry
        top.repeats
    · next parent below _ =>
      have hle : top.start ≤ m.offset := htile.2.1.le
      exact Machine.stepOut_placed law hrun hm hle
        (within' (Nat.le_trans hle tidy.within) htile.2.2) h
    · split
      · exact .ok ((h.toStores.record _).giveUp Session.Placed.closed)
      · refine .ok fun found hfound => ?_
        obtain rfl := Option.some.inj hfound
        exact hsessions.2.1

end

/-! ## Runs -/

theorem Machine.placed_start {g : Grammar} (hg : g.Every (Entry.Refers refOk) Region.AreColumns) :
    (Machine.start g offset : Machine L).Placed types refOk holds outer where
  saved _ hmem := absurd hmem (Array.not_mem_empty _)
  checkers _ hmem := nomatch hmem
  sessions := by
    cases g
    exact ⟨hg, trivial, fun _ hu => (nomatch hu), trivial⟩

/-- **A run ends with nodes that are as they should be**, each with what is to its left. -/
theorem Machine.run_placed (law : types.Places L text refOk holds) (fuel : Nat)
    (within : setting.Within types text start) (mode : Mode)
    (tidy : m.Tidy setting.text.size start) (h : m.Placed types refOk holds setting.outer) :
    Gives (fun seen => ∀ found, seen.value = some found →
        Node.AllPlaced holds (Trail.leftOf setting.outer) found.nodes)
      (Machine.run fuel setting mode m) := by
  induction fuel generalizing setting mode start m with
  | zero => exact .error
  | succ fuel ih =>
    have halike : Runner.Alike (L := L)
        (fun s md g offset => Machine.run fuel s md (.start g offset))
        (fun s md g offset => Machine.runChecked fuel s md (.start g offset)) :=
      fun s md g offset fits built =>
        Machine.run_alike fuel fits md (Machine.tidy_start built fits.start)
    have hrun : Runner.Places (L := L) types text refOk holds
        (fun s md g offset => Machine.run fuel s md (.start g offset)) := by
      intro s md g offset hwithin hg
      have built : g.Built := Checker.Every.built (c := .grammar g) hg
      exact ih hwithin md (Machine.tidy_start built hwithin.start) (Machine.placed_start hg)
    have htidy := (Machine.step_alike halike within.toFits mode tidy).gives
    have hplaced := Machine.step_placed law halike hrun within mode tidy h
    simp only [Machine.run]
    split
    · exact .error
    · next result failures hstep =>
      exact .ok (hplaced _ hstep)
    · next next hstep =>
      exact ih within mode (htidy _ hstep) (hplaced _ hstep)

end TextGrammar
