/-
Searches that read nothing outside the text. A step keeps the nodes of a search
side by side, so every state of a run has them so, and so has the match it ends
with. What a type is shown at a state — the nodes completed so far, and the
match it is to judge — therefore lies in the text, in the searches within the
search as well. This is said by a second search, which looks at all of that
before each step and ends with a fault if some of it does not: the two come to
the same, and never to that fault.
-/
import TextGrammar.Proofs.TiledStates

namespace TextGrammar

variable {L : Type}

/-! ## Searches that check what they read -/

/-- The match ends where a slice of the text can, and all nodes in it can be read. -/
def Found.inText (size offset : Nat) (found : Found) : Bool :=
  decide (offset ≤ found.stop) && decide (found.stop ≤ size) && Node.allInText size found.nodes

mutual

/-- The slices that the records in the checker take of the text end in it. -/
def Checker.slicesText (size offset : Nat) : Checker → Bool
  | .fixed regions =>
    decide (size < offset + Region.declaredWidth regions) ||
      (Region.layout size offset regions).all fun span =>
        decide (span.1 ≤ span.2) && decide (span.2 ≤ size)
  | .oneOf choices fallback =>
    Checker.eachSlicesText size offset choices && Checker.slicesTextIn size offset fallback
  | .not item => Checker.slicesText size offset item
  | .char _ | .word _ | .any _ | .grammar _ => true

def Checker.eachSlicesText (size offset : Nat) : List Checker → Bool
  | [] => true
  | c :: cs => Checker.slicesText size offset c && Checker.eachSlicesText size offset cs

def Checker.slicesTextIn (size offset : Nat) : Option Checker → Bool
  | none => true
  | some c => Checker.slicesText size offset c

end

namespace Machine

/-- The checker that the current entry is matched with, as far as one is found. -/
def checkerFor? (setting : Setting) (m : Machine L) (entry : Entry) : Option Checker :=
  match entry.target with
  | .checker c => some c
  | .ref r =>
    match setting.types.find? r.name with
    | some type => (m.checkerOf setting ⟨type, r.param⟩).toOption.map Prod.snd
    | none => none
  | .type type => (m.checkerOf setting ⟨type, none⟩).toOption.map Prod.snd

/-- All nodes that can be seen at the current state, and the matches that are open there, can be
read. -/
def seesText (setting : Setting) (m : Machine L) : Bool :=
  decide (m.offset ≤ setting.text.size) &&
    m.sessions.all (fun session => decide (session.start ≤ m.offset)) &&
      (m.inner setting).outer.all fun trail => Node.allInText setting.text.size trail.toList

variable [FailureLog L]

/-- What is looked at for the current entry, and what is found for it and shown to its type, can be
read. -/
def findsText (run : Runner L) (setting : Setting) (m : Machine L) : Bool :=
  match m.sessions with
  | ⟨entry :: _, _, _, _, _, _⟩ :: _ =>
    match m.checkerFor? setting entry with
    | some c =>
      c.slicesText setting.text.size m.offset &&
        match c.foundAt run (m.inner setting) m.offset with
        | .ok ⟨some found, _⟩ => found.inText setting.text.size m.offset
        | _ => true
    | none => true
  | _ => true

/-- Steps as `Machine.run` does, but looks at what there is to read before each of them. -/
def runChecked : (fuel : Nat) → Setting → Mode → Machine L → Except Stop (Seen L (Option Match))
  | 0, _, _, _ => .error (.fault .outOfFuel)
  | fuel + 1, setting, mode, m =>
    let search : Runner L := fun s md g offset => runChecked fuel s md (.start g offset)
    if m.seesText setting && m.findsText search setting then
      match m.step search setting mode with
      | .error stop => .error stop
      | .ok (.done result failures) => .ok ⟨result, failures⟩
      | .ok (.next m) => runChecked fuel setting mode m
    else .error (.fault .outOfRange)

end Machine

/-- Searches of at most so many steps that check what they read. -/
def searchChecked (fuel : Nat) : Runner (Option Failure) :=
  fun setting mode g offset => Machine.runChecked fuel setting mode (.start g offset)

/-! ## Attempts -/

variable {setting : Setting} {start : Nat} {m : Machine L}

/-- What an attempt comes to: nodes that tile a part of the text, or a grammar to walk. -/
def Attempt.Tidy (size offset : Nat) : Attempt → Prop
  | .matched stop nodes => stop ≤ size ∧ Node.Tile offset stop nodes
  | .opens g _ => g.Built
  | .failed => True

/-- A state that stays as it is but for the failures met and the checkers kept. -/
structure Machine.Stays (setting : Setting) (start : Nat) (m m' : Machine L) : Prop where
  tidy : m'.Tidy setting.text.size start
  sessions : m'.sessions = m.sessions
  offset : m'.offset = m.offset

theorem Machine.Tidy.stays (h : m.Tidy setting.text.size start) : m.Stays setting start m :=
  ⟨h, rfl, rfl⟩

/-- A supply goes wrong in one way only: a pattern is not compiled yet. -/
theorem TypeEnv.Built.supply {types : TypeEnv} (h : types.Built) {type : ParserType}
    (built : type.Every (fun _ => True) Region.AreColumns) (host : Host) (param : Option String) :
    Alike .outOfRange (Checker.EveryGiven (fun _ => True) Region.AreColumns)
      (types.supply host param type) (types.supply host param type) := by
  cases type with
  | computed name hostDependent supply accepts evaluate =>
    exact .ok (built types.vocabulary host param)
  | pattern name text cell =>
    simp only [TypeEnv.supply]
    split
    · next given hcompiled =>
      refine .ok ?_
      cases given with
      | ok checker => exact h.compiled cell checker hcompiled
      | error error => trivial
    · refine .error fun hf => ?_
      cases hf

theorem Machine.checkerOf_alike (fits : setting.Fits start) (h : m.Tidy setting.text.size start)
    {use : TypeUse} (built : use.type.Every (fun _ => True) Region.AreColumns) :
    Alike (.fault .outOfRange)
      (fun r => m.Stays setting start r.1 ∧ r.2.Every (fun _ => True) Region.AreColumns)
      (m.checkerOf setting use) (m.checkerOf setting use) := by
  simp only [Machine.checkerOf]
  split
  · next checker hlookup =>
    refine .ok ⟨h.stays, ?_⟩
    split at hlookup
    · obtain ⟨l₁, l₂, hl, _⟩ := List.lookup_eq_some_iff.mp hlookup
      exact h.checkers _ (hl ▸ List.mem_append_right l₁ List.mem_cons_self)
    · cases hlookup
  · obtain ⟨_, hsupply⟩ := fits.types.supply built
      ⟨setting.text, m.offset, (m.inner setting).outer⟩ use.param
    split
    · next f heq =>
      rw [heq] at hsupply
      exact .error fun hf => hsupply (Stop.fault.inj hf)
    · refine .error fun hf => ?_
      cases hf
    · next checker heq =>
      rw [heq] at hsupply
      refine .ok ⟨?_, hsupply⟩
      split
      · exact ⟨⟨⟨h.saved, List.forall_mem_cons.mpr ⟨hsupply, h.checkers⟩⟩, h.sessions⟩, rfl, rfl⟩
      · exact h.stays

variable [FailureLog L] {run run' : Runner L}

theorem Machine.Stays.record {m' : Machine L} (h : m.Stays setting start m') (failures : L) :
    m.Stays setting start (m'.record failures) :=
  ⟨⟨h.tidy.toStores.record failures, h.tidy.sessions⟩, h.sessions, h.offset⟩

/-- What an attempt made at a state comes to, with the state after it. -/
def Machine.Attempted (setting : Setting) (start : Nat) (m : Machine L)
    (r : Machine L × Attempt) : Prop :=
  m.Stays setting start r.1 ∧ r.2.Tidy setting.text.size m.offset

theorem Machine.matchChecker_alike (hrun : run.Alike run') (fits : setting.Fits start)
    (h : m.Tidy setting.text.size start) {entry : Entry}
    (hentry : entry.Every (fun _ => True) Region.AreColumns) {checker : Checker}
    (hchecker : checker.Every (fun _ => True) Region.AreColumns) (use : Option TypeUse) :
    Alike (.fault .outOfRange) (m.Attempted setting start)
      (m.matchChecker run setting entry checker use)
      (m.matchChecker run' setting entry checker use) := by
  have hinner : (m.inner setting).Fits m.offset := Machine.inner_fits fits h.within h.tile
  simp only [Machine.matchChecker]
  refine (Checker.foundAt_alike hrun hinner hchecker).bind fun seen hseen => ?_
  obtain ⟨_ | found, failures⟩ := seen
  · exact .ok ⟨h.stays.record failures, trivial⟩
  have tiles := hseen found rfl
  refine (Entry.complete_alike hrun hentry hinner tiles use).bind fun completed hcompleted => ?_
  obtain ⟨_ | nodes, later⟩ := completed
  · exact .ok ⟨(h.stays.record failures).record later, trivial⟩
  · exact .ok ⟨(h.stays.record failures).record later, tiles.within, hcompleted nodes rfl⟩

theorem Machine.attemptChecker_alike (hrun : run.Alike run') (fits : setting.Fits start)
    (h : m.Tidy setting.text.size start) {entry : Entry}
    (hentry : entry.Every (fun _ => True) Region.AreColumns) {checker : Checker}
    (hchecker : checker.Every (fun _ => True) Region.AreColumns) (use : Option TypeUse) :
    Alike (.fault .outOfRange) (m.Attempted setting start)
      (m.attemptChecker run setting entry checker use)
      (m.attemptChecker run' setting entry checker use) := by
  have hmatch := Machine.matchChecker_alike hrun fits h hentry hchecker use
  cases checker with
  | grammar g =>
    simp only [Machine.attemptChecker]
    split
    · exact .ok ⟨h.stays, hchecker⟩
    · exact hmatch
  | _ => exact hmatch

theorem Machine.attemptType_alike (hrun : run.Alike run') (fits : setting.Fits start)
    (h : m.Tidy setting.text.size start) {entry : Entry}
    (hentry : entry.Every (fun _ => True) Region.AreColumns) {use : TypeUse}
    (built : use.type.Every (fun _ => True) Region.AreColumns) :
    Alike (.fault .outOfRange) (m.Attempted setting start) (m.attemptType run setting entry use)
      (m.attemptType run' setting entry use) := by
  refine (Machine.checkerOf_alike fits h built).bind fun ⟨m', checker⟩ ⟨hstays, hchecker⟩ => ?_
  refine (Machine.attemptChecker_alike hrun fits hstays.tidy hentry hchecker (some use)).mono ?_
  intro r ⟨hr, hattempt⟩
  exact ⟨⟨hr.tidy, hr.sessions.trans hstays.sessions, hr.offset.trans hstays.offset⟩,
    hstays.offset ▸ hattempt⟩

/-- **An attempt at an entry** leaves the state as it is, and comes to nodes that tile a part of the
text if to any. -/
theorem Machine.attempt_alike (hrun : run.Alike run') (fits : setting.Fits start)
    (h : m.Tidy setting.text.size start) {entry : Entry}
    (hentry : entry.Every (fun _ => True) Region.AreColumns) :
    Alike (.fault .outOfRange) (m.Attempted setting start) (m.attempt run setting entry)
      (m.attempt run' setting entry) := by
  have htarget := hentry.target
  simp only [Machine.attempt]
  cases ht : entry.target with
  | checker c =>
    have hc : c.Every (fun _ => True) Region.AreColumns := by rwa [ht] at htarget
    exact Machine.attemptChecker_alike hrun fits h hentry hc none
  | ref r =>
    simp only
    split
    · next type hfind =>
      exact Machine.attemptType_alike hrun fits h hentry (fits.types.found r.name type hfind)
    · exact .error fun hf => nomatch hf
  | type type =>
    have htype : type.Every (fun _ => True) Region.AreColumns := by rwa [ht] at htarget
    exact Machine.attemptType_alike hrun fits h hentry htype

/-! ## Steps -/

theorem Machine.stepEntry_alike (hrun : run.Alike run') (fits : setting.Fits start)
    (h : m.Tidy setting.text.size start) {mode : Mode} {top : Session} {below : List Session}
    (hm : m.sessions = top :: below) {entry : Entry}
    (hentry : entry.Every (fun _ => True) Region.AreColumns) (repeats : Nat) :
    Alike (.fault .outOfRange) (Step.Tidy setting.text.size mode start)
      (m.stepEntry run setting entry repeats) (m.stepEntry run' setting entry repeats) := by
  simp only [Machine.stepEntry]
  split
  · exact .ok (h.advance Session.tileWithin_closed)
  split
  · exact .ok (h.advance Session.tileWithin_closed)
  split
  · exact .ok ((h.save .oneMore).advance Session.tileWithin_closed)
  refine (Machine.attempt_alike hrun fits h hentry).bind fun ⟨m', result⟩ ⟨hstays, hresult⟩ => ?_
  have hm' : m'.sessions = top :: below := hstays.sessions.trans hm
  cases result with
  | matched stop nodes =>
    obtain ⟨hstop, hnodes⟩ := hresult
    rw [← hstays.offset] at hnodes
    have htile := hstays.tidy.tile
    rw [hm'] at htile
    refine .ok ?_
    split
    · exact (hstays.tidy.save .passOver).toStores.accept Session.tileWithin_closed hm'
        ⟨hstop, htile.push hnodes⟩
    · exact hstays.tidy.toStores.accept Session.tileWithin_closed hm' ⟨hstop, htile.push hnodes⟩
  | opens g use =>
    cases g
    exact .ok (hstays.tidy.enter ⟨hstays.tidy.within, hresult, rfl, hstays.tidy.tile⟩)
  | failed =>
    simp only
    split
    · exact .ok ((hstays.tidy.toStores.record _).giveUp Session.tileWithin_closed)
    · exact .ok (hstays.tidy.advance Session.tileWithin_closed)

theorem Machine.stepOut_alike (hrun : run.Alike run') (fits : setting.Fits start)
    (h : m.Tidy setting.text.size start) {mode : Mode} {finished parent : Session}
    {below : List Session} (hm : m.sessions = finished :: parent :: below) :
    Alike (.fault .outOfRange) (Step.Tidy setting.text.size mode start)
      (m.stepOut run setting finished parent below)
      (m.stepOut run' setting finished parent below) := by
  obtain ⟨stores, hwithin, hsessions⟩ := h
  rw [hm] at hsessions
  obtain ⟨_, hnodes, hparent⟩ := hsessions
  have hstart : finished.start ≤ setting.text.size := Nat.le_trans hnodes.le hwithin
  simp only [Machine.stepOut]
  split
  · exact .ok (stores.giveUp Session.tileWithin_closed)
  · next entry rest hrest =>
    have hentry : entry.Every (fun _ => True) Region.AreColumns := hparent.1.first hrest
    have tiles : Found.Tiles setting.text.size finished.start
        ⟨m.offset, finished.nodes.toList, true⟩ :=
      hnodes.found hwithin
    have stores' : Machine.Stores (Session.TileWithin setting.text.size start)
        Checker.GivenBuilt { m with sessions := parent :: below } :=
      ⟨stores.saved, stores.checkers⟩
    obtain ⟨out, heq, hout, hsessions, hoffset⟩ :=
      stores'.closing (entry.quantifier.greediness == .possessive) finished.barrier
    simp only at hsessions hoffset
    rw [heq, hoffset]
    -- The nodes of the parent end where the finished session was opened, not at the offset.
    have hinner := Machine.inner_fits (m := out) fits hstart (hsessions ▸ hparent)
    refine (Entry.complete_alike hrun hentry hinner tiles finished.use).bind fun seen hseen => ?_
    obtain ⟨_ | nodes, failures⟩ := seen
    · exact .ok (((hout.record failures).record _).giveUp Session.tileWithin_closed)
    · exact .ok ((hout.record failures).accept Session.tileWithin_closed hsessions
        ⟨hwithin, hparent.push (hseen nodes rfl)⟩)

/-- **A step keeps the nodes of a search side by side.** -/
theorem Machine.step_alike (hrun : run.Alike run') (fits : setting.Fits start) (mode : Mode)
    (h : m.Tidy setting.text.size start) :
    Alike (.fault .outOfRange) (Step.Tidy setting.text.size mode start)
      (m.step run setting mode) (m.step run' setting mode) := by
  simp only [Machine.step]
  split
  · exact .ok fun _ heq => nomatch heq
  · next top below hm =>
    split
    · next _ entry rest hrest =>
      have hsessions := h.tile
      rw [hm] at hsessions
      exact Machine.stepEntry_alike hrun fits h hm (hsessions.1.first hrest) top.repeats
    · exact Machine.stepOut_alike hrun fits h hm
    · split
      · exact .ok ((h.toStores.record _).giveUp Session.tileWithin_closed)
      · next hmode =>
        have hsessions := h.tile
        rw [hm] at hsessions
        obtain ⟨_, hnodes, hstart⟩ := hsessions
        refine .ok fun found hfound => ?_
        obtain rfl := Option.some.inj hfound
        refine ⟨h.within, (show top.start = start from hstart) ▸ hnodes, fun hwhole => ?_⟩
        simpa [hwhole] using hmode

/-! ## Runs -/

theorem Node.allInText_of_each {size offset : Nat} {nodes : List Node} (hoffset : offset ≤ size)
    (h : ∀ node ∈ nodes, node.Tiled ∧ node.stop ≤ offset) : Node.allInText size nodes = true := by
  induction nodes with
  | nil => rfl
  | cons node nodes ih =>
    obtain ⟨⟨htiled, hstop⟩, hnodes⟩ := List.forall_mem_cons.mp h
    simp only [Node.allInText, htiled.inText (Nat.le_trans hstop hoffset), ih hnodes, Bool.and_true]

theorem Found.Tiles.inText {size offset : Nat} {found : Found} (h : found.Tiles size offset) :
    found.inText size offset = true := by
  have hnodes : Node.allInText size found.nodes = true := by
    rcases h.nodes with ⟨hnil, _⟩ | htile
    · rw [hnil]
      rfl
    · exact htile.allInText h.within
  simp only [Found.inText, h.start, h.within, hnodes, decide_true, Bool.and_true]

mutual

theorem Checker.Every.slicesText {size offset : Nat} (fits : size < maxCount) : ∀ {c : Checker},
    c.Every (fun _ => True) Region.AreColumns → c.slicesText size offset = true
  | .char _, _ | .word _, _ | .any _, _ | .grammar _, _ => rfl
  | .oneOf _ _, built => by
    simp only [Checker.slicesText, Checker.EveryOf.slicesText fits built.1,
      Checker.EveryIn.slicesText fits built.2, Bool.and_self]
  | .not item, built => Checker.Every.slicesText (c := item) fits built
  | .fixed regions, built => by
    simp only [Checker.slicesText, Bool.or_eq_true, decide_eq_true_eq, List.all_eq_true,
      Bool.and_eq_true]
    rcases Nat.lt_or_ge size (offset + Region.declaredWidth regions) with hlt | hfit
    · exact .inl hlt
    · exact .inr fun span hspan => (built.1.layout_each fits hfit span hspan).2

theorem Checker.EveryOf.slicesText {size offset : Nat} (fits : size < maxCount) :
    ∀ {cs : List Checker}, Checker.EveryOf (fun _ => True) Region.AreColumns cs →
      Checker.eachSlicesText size offset cs = true
  | [], _ => rfl
  | _ :: _, built => by
    simp only [Checker.eachSlicesText, Checker.Every.slicesText fits built.1,
      Checker.EveryOf.slicesText fits built.2, Bool.and_self]

theorem Checker.EveryIn.slicesText {size offset : Nat} (fits : size < maxCount) :
    ∀ {c : Option Checker}, Checker.EveryIn (fun _ => True) Region.AreColumns c →
      Checker.slicesTextIn size offset c = true
  | none, _ => rfl
  | some c, built => Checker.Every.slicesText (c := c) fits built

end

omit [FailureLog L] in
theorem Machine.Tidy.seesText (fits : setting.Fits start) (h : m.Tidy setting.text.size start) :
    m.seesText setting = true := by
  have hinner : (m.inner setting).Fits m.offset := Machine.inner_fits fits h.within h.tile
  simp only [Machine.seesText, Bool.and_eq_true, decide_eq_true_eq, List.all_eq_true]
  refine ⟨⟨h.within, fun session hsession => (h.tile.each session hsession).1⟩, ?_⟩
  exact fun trail htrail => Node.allInText_of_each h.within (hinner.outer trail htrail)

omit [FailureLog L] in
theorem Machine.checkerFor?_built (fits : setting.Fits start) (h : m.Tidy setting.text.size start)
    {entry : Entry} (hentry : entry.Every (fun _ => True) Region.AreColumns) {c : Checker}
    (hc : m.checkerFor? setting entry = some c) : c.Every (fun _ => True) Region.AreColumns := by
  have htarget := hentry.target
  have htype (use : TypeUse) (built : use.type.Every (fun _ => True) Region.AreColumns)
      (huse : (m.checkerOf setting use).toOption.map Prod.snd = some c) :
      c.Every (fun _ => True) Region.AreColumns := by
    obtain ⟨_, hchecker⟩ := Machine.checkerOf_alike fits h built
    cases hof : m.checkerOf setting use with
    | error stop =>
      rw [hof] at huse
      cases huse
    | ok r =>
      rw [hof] at hchecker huse
      obtain rfl : r.2 = c := Option.some.inj huse
      exact hchecker.2
  simp only [Machine.checkerFor?] at hc
  split at hc
  · next checker ht =>
    obtain rfl := Option.some.inj hc
    rwa [ht] at htarget
  · split at hc
    · next type hfind => exact htype _ (fits.types.found _ type hfind) hc
    · cases hc
  · next type ht =>
    rw [ht] at htarget
    exact htype ⟨type, none⟩ htarget hc

theorem Machine.Tidy.findsText (hrun : run.Alike run') (fits : setting.Fits start)
    (h : m.Tidy setting.text.size start) : m.findsText run' setting = true := by
  have hinner : (m.inner setting).Fits m.offset := Machine.inner_fits fits h.within h.tile
  simp only [Machine.findsText]
  split
  · next entry rest _ _ _ _ _ below hm =>
    have hsessions := h.tile
    rw [hm] at hsessions
    split
    · next c hc =>
      have hchecker := Machine.checkerFor?_built fits h hsessions.1.1 hc
      obtain ⟨heq, hfound⟩ := Checker.foundAt_alike hrun hinner hchecker
      rw [heq] at hfound
      simp only [hchecker.slicesText fits.size, Bool.true_and]
      split
      · next found failures hok =>
        rw [hok] at hfound
        exact (hfound found rfl).inText
      · rfl
    · rfl
  · rfl

/-- **A run reads nothing outside the text**: one that looks at what there is to read before each of
its steps, and before those of the searches within it, comes to the same. -/
theorem Machine.run_alike (fuel : Nat) (fits : setting.Fits start) (mode : Mode)
    (h : m.Tidy setting.text.size start) :
    Alike (.fault .outOfRange)
      (fun seen => ∀ m, seen.value = some m → m.Tiles setting.text.size mode start)
      (Machine.run fuel setting mode m) (Machine.runChecked fuel setting mode m) := by
  induction fuel generalizing setting mode start m with
  | zero => exact .error fun hf => nomatch hf
  | succ fuel ih =>
    have hrun : Runner.Alike (L := L)
        (fun s md g offset => Machine.run fuel s md (.start g offset))
        (fun s md g offset => Machine.runChecked fuel s md (.start g offset)) :=
      fun s md g offset hfits built => ih hfits md (Machine.tidy_start built hfits.start)
    simp only [Machine.run, Machine.runChecked, h.seesText fits, h.findsText hrun fits,
      Bool.and_self, if_true]
    obtain ⟨heq, hstep⟩ := Machine.step_alike hrun fits mode h
    rw [← heq]
    split at hstep
    · next step hok =>
      simp only [hok]
      cases step with
      | next m => exact ih fits mode hstep
      | done result failures => exact .ok hstep
    · next stop herror =>
      simp only [herror]
      exact .error hstep

/-! ## The nodes of a match -/

theorem TypeEnv.Built.setting_fits {types : TypeEnv} (h : types.Built) {text : Text} {start : Nat}
    (fits : text.size < maxCount) (hstart : start ≤ text.size) : (types.setting text).Fits start :=
  ⟨h, fits, hstart, fun _ htrail => nomatch htrail⟩

/-- **The nodes of a match tile it.** A match ends in the text, and its nodes lie side by side from
where it starts to where it ends, as the children of each node do within that node. On the way to it
the search reads nothing outside the text: it comes to the same as one that checks what it reads,
and not to the fault of reading too far. -/
theorem Grammar.search_tiles {types : TypeEnv} (htypes : types.Built) {g : Grammar}
    (built : g.Built) {text : Text} (fits : text.size < maxCount) {start : Nat}
    (hstart : start ≤ text.size) (fuel : Nat) (mode : Mode) :
    (∀ m failures, searchWithin fuel (types.setting text) mode g start = .ok ⟨some m, failures⟩ →
      start ≤ m.stop ∧ m.stop ≤ text.size ∧ Node.Tile start m.stop m.nodes) ∧
    searchWithin fuel (types.setting text) mode g start =
      searchChecked fuel (types.setting text) mode g start ∧
    searchWithin fuel (types.setting text) mode g start ≠ .error (.fault .outOfRange) := by
  have hfits := htypes.setting_fits fits hstart
  obtain ⟨heq, hseen⟩ := Machine.run_alike (L := Option Failure) fuel hfits mode
    (Machine.tidy_start built hstart)
  refine ⟨fun m failures hok => ?_, heq, fun herror => ?_⟩
  · rw [show Machine.run fuel _ _ _ = .ok _ from hok] at hseen
    have htiles := hseen m rfl
    exact ⟨htiles.nodes.le, htiles.within, htiles.nodes⟩
  · rw [show Machine.run fuel _ _ _ = .error _ from herror] at hseen
    exact hseen rfl

/-- Some `a` under a name, and all that follows them as a record of two columns. -/
def Grammar.labelled : Grammar :=
  ⟨[(Entry.ofChecker (.sequence
      [(Entry.ofChecker (.single 'a')).quantified ⟨1, none, .maximum⟩])).named "as",
    .ofChecker (.fixed [⟨"first", some 1, none⟩, ⟨"rest", none, none⟩])]⟩

/-- What it matches in `aabcd`: the record gets a node over its columns. -/
def Grammar.labelledNodes : List Node :=
  [{ name := some "as", start := 0, stop := 2, children := [.leaf 0 1, .leaf 1 2] },
    { start := 2, stop := 5, children := [{ name := some "first", start := 2, stop := 3 },
      { name := some "rest", start := 3, stop := 5 }] }]

theorem Grammar.labelled_search : TypeEnv.bare.Built ∧ Grammar.labelled.Built ∧
    ∃ failures,
      searchWithin 12 (TypeEnv.bare.setting #['a', 'a', 'b', 'c', 'd']) .whole Grammar.labelled 0 =
        .ok ⟨some ⟨5, Grammar.labelledNodes⟩, failures⟩ ∧
      Node.Tile 0 5 Grammar.labelledNodes := by
  have types : TypeEnv.bare.Built :=
    ⟨fun _ _ hfind => (nomatch hfind), fun _ _ hcompiled => nomatch hcompiled⟩
  have built : Grammar.labelled.Built :=
    ⟨⟨trivial, ⟨⟨trivial, trivial, trivial⟩, trivial⟩, trivial⟩,
      ⟨trivial, ⟨rfl, trivial, trivial, trivial⟩, trivial⟩, trivial⟩
  have fits : #['a', 'a', 'b', 'c', 'd'].size < maxCount := by decide
  have hsearch : ∃ failures, searchWithin 12 (TypeEnv.bare.setting #['a', 'a', 'b', 'c', 'd'])
      .whole Grammar.labelled 0 = .ok ⟨some ⟨5, Grammar.labelledNodes⟩, failures⟩ := ⟨_, rfl⟩
  obtain ⟨failures, hsearch⟩ := hsearch
  have tiles := (Grammar.search_tiles types built fits (Nat.zero_le _) 12 .whole).1 _ _ hsearch
  exact ⟨types, built, failures, hsearch, tiles.2.2⟩

end TextGrammar
