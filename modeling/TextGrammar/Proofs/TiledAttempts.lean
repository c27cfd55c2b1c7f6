/-
What an attempt finds lies in the text and is tiled, as far as that holds of the
searches within it. Two ways to make those searches are compared on the way: if
they come to the same wherever they are used as they should be, attempts do.
-/
import TextGrammar.Proofs.Attempts
import TextGrammar.Proofs.Tiling

namespace TextGrammar

/-! ## Results that are alike -/

section

variable {ε α β : Type} {bad : ε} {p q : α → Prop} {x y : Except ε α}

/-- Both come to the same: to a value with the property, or to an error that is not the bad one. -/
def Alike (bad : ε) (p : α → Prop) (x y : Except ε α) : Prop :=
  x = y ∧ match x with
    | .ok a => p a
    | .error e => e ≠ bad

theorem Alike.ok {a : α} (h : p a) : Alike bad p (.ok a) (.ok a) := ⟨rfl, h⟩

theorem Alike.error {e : ε} (h : e ≠ bad) : Alike bad p (.error e) (.error e) := ⟨rfl, h⟩

theorem Alike.mono (h : Alike bad p x y) (hpq : ∀ a, p a → q a) : Alike bad q x y := by
  obtain ⟨rfl, h⟩ := h
  cases x with
  | ok a => exact ⟨rfl, hpq a h⟩
  | error e => exact ⟨rfl, h⟩

theorem Alike.bind {r : β → Prop} {f g : α → Except ε β} (h : Alike bad p x y)
    (hfg : ∀ a, p a → Alike bad r (f a) (g a)) : Alike bad r (x >>= f) (y >>= g) := by
  obtain ⟨rfl, h⟩ := h
  cases x with
  | ok a => exact hfg a h
  | error e => exact ⟨rfl, h⟩

end

/-! ## Results that are given -/

section

variable {ε α β : Type} {p q : α → Prop} {x : Except ε α}

/-- If there is a value, it has the property. -/
def Gives (p : α → Prop) (x : Except ε α) : Prop := ∀ a, x = .ok a → p a

theorem Gives.ok {a : α} (h : p a) : Gives p (.ok a : Except ε α) := fun _ ha =>
  Except.ok.inj ha ▸ h

theorem Gives.error {e : ε} : Gives p (.error e) := fun _ ha => nomatch ha

theorem Gives.mono (h : Gives p x) (hpq : ∀ a, p a → q a) : Gives q x := fun a ha => hpq a (h a ha)

theorem Gives.both (h : Gives p x) (h' : Gives q x) : Gives (fun a => p a ∧ q a) x := fun a ha =>
  ⟨h a ha, h' a ha⟩

theorem Gives.bind {r : β → Prop} {f : α → Except ε β} (h : Gives p x)
    (hf : ∀ a, p a → Gives r (f a)) : Gives r (x >>= f) := by
  cases x with
  | ok a => exact hf a (h a rfl)
  | error e => exact .error

theorem Alike.gives {bad : ε} {y : Except ε α} (h : Alike bad p x y) : Gives p x := by
  obtain ⟨_, h⟩ := h
  intro a ha
  rw [ha] at h
  exact h

end

/-! ## Searches used as they should be -/

/-- All checkers that the types give are built by the constructors. -/
structure TypeEnv.Built (types : TypeEnv) : Prop where
  found : ∀ name type, types.find? name = some type →
    type.Every (fun _ => True) Region.AreColumns
  compiled : ∀ cell checker, types.compiled? cell = some (.ok checker) →
    checker.Every (fun _ => True) Region.AreColumns

/-- A search can be made from this offset: it is in the text, and the nodes around the search are
tiled and end before it. -/
structure Setting.Fits (setting : Setting) (offset : Nat) : Prop where
  types : setting.types.Built
  size : setting.text.size < maxCount
  start : offset ≤ setting.text.size
  outer : ∀ trail ∈ setting.outer, ∀ node ∈ trail.toList, node.Tiled ∧ node.stop ≤ offset

theorem Setting.Fits.alone {setting : Setting} {offset : Nat} (h : setting.Fits offset) :
    setting.alone.Fits offset :=
  ⟨h.types, h.size, h.start, fun _ htrail => nomatch htrail⟩

variable {L : Type} {run run' : Runner L}

/-- Two ways to make a search come to the same wherever one can be made, to a match that is tiled if
to any. -/
def Runner.Alike (run run' : Runner L) : Prop :=
  ∀ (setting : Setting) (mode : Mode) (g : Grammar) (offset : Nat), setting.Fits offset → g.Built →
    TextGrammar.Alike (.fault .outOfRange)
      (fun seen => ∀ m, seen.value = some m → m.Tiles setting.text.size mode offset)
      (run setting mode g offset) (run' setting mode g offset)

section

variable {setting : Setting} {offset : Nat}

/-! ## Lengths -/

theorem Grammar.lengthAt_alike (h : run.Alike run') {g : Grammar} (fits : setting.Fits offset)
    (built : g.Built) :
    Alike .outOfRange (fun length => ∀ n, length = some n → offset + n ≤ setting.text.size)
      (g.lengthAt run setting offset) (g.lengthAt run' setting offset) := by
  obtain ⟨heq, hrun⟩ := h setting.alone .beginning g offset fits.alone built
  simp only [Grammar.lengthAt, ← heq]
  split at hrun
  · next seen hseen =>
    simp only [hseen]
    refine .ok fun n hn => ?_
    obtain ⟨m, hm, rfl⟩ := Option.map_eq_some_iff.mp hn
    have htiles := hrun m hm
    have hle := htiles.nodes.le
    have hwithin : m.stop ≤ setting.text.size := htiles.within
    omega
  · next stop hstop =>
    simp only [hstop]
    cases stop with
    | refused error =>
      refine .ok fun n hn => ?_
      cases hn
    | fault f => exact .error fun hf => hrun (congrArg Stop.fault hf)

theorem Grammar.matchesAll_alike (h : run.Alike run') {g : Grammar} (fits : setting.Fits offset)
    (built : g.Built) {text : Text} (hsize : text.size ≤ setting.text.size) :
    Alike .outOfRange (fun _ => True) (g.matchesAll run setting text)
      (g.matchesAll run' setting text) := by
  have hfits : ({ setting.alone with text } : Setting).Fits 0 :=
    ⟨fits.types, Nat.lt_of_le_of_lt hsize fits.size, Nat.zero_le _, fun _ htrail => nomatch htrail⟩
  obtain ⟨heq, hrun⟩ := h { setting.alone with text } .whole g 0 hfits built
  simp only [Grammar.matchesAll, ← heq]
  split at hrun
  · next seen hseen =>
    simp only [hseen]
    exact .ok trivial
  · next stop hstop =>
    simp only [hstop]
    cases stop with
    | refused error => exact .ok trivial
    | fault f => exact .error fun hf => hrun (congrArg Stop.fault hf)

/-- Regions that match have their layout. -/
theorem Region.spansFrom_alike (h : run.Alike run') (fits : setting.Fits offset)
    {regions : List Region}
    (built : Region.EveryOf (fun _ => True) Region.AreColumns regions) (start : Nat) :
    Alike .outOfRange
      (fun spans => ∀ s, spans = some s → s = Region.layout setting.text.size start regions)
      (Region.spansFrom run setting start regions)
      (Region.spansFrom run' setting start regions) := by
  induction regions generalizing start with
  | nil => exact .ok fun s hs => (Option.some.inj hs).symm
  | cons region regions ih =>
    simp only [Region.spansFrom_cons]
    let stop := region.width.elim setting.text.size (start + ·)
    have hregion : Alike .outOfRange (fun _ => True)
        (region.fits run setting (setting.text.slice start stop))
        (region.fits run' setting (setting.text.slice start stop)) := by
      obtain ⟨name, width, _ | g⟩ := region
      · exact .ok trivial
      · exact Grammar.matchesAll_alike h fits built.1 (Text.size_slice_le setting.text start stop)
    refine hregion.bind fun taken _ => ?_
    split
    · refine (ih built.2 stop).bind fun spans hspans => .ok fun s hs => ?_
      obtain ⟨rest, hrest, rfl⟩ := Option.map_eq_some_iff.mp hs
      rw [hspans rest hrest]
      rfl
    · exact .ok fun s hs => nomatch hs

/-- Regions that match lie in the text. -/
theorem Region.spansAt_alike (h : run.Alike run') (fits : setting.Fits offset)
    {regions : List Region}
    (built : (Checker.fixed regions).Every (fun _ => True) Region.AreColumns) :
    Alike .outOfRange
      (fun spans => ∀ s, spans = some s → s = Region.layout setting.text.size offset regions ∧
        ∀ span ∈ s, offset ≤ span.1 ∧ span.1 ≤ span.2 ∧ span.2 ≤ setting.text.size)
      (Region.spansAt run setting offset regions) (Region.spansAt run' setting offset regions) := by
  simp only [Region.spansAt]
  split
  · next hfit =>
    refine (Region.spansFrom_alike h fits built.2 offset).mono fun spans hspans s hs => ?_
    rw [hspans s hs]
    exact ⟨rfl, built.1.layout_each fits.size hfit⟩
  · exact .ok fun s hs => nomatch hs

/-- The length of a checker stays in the text. -/
def Checker.Measures (run run' : Runner L) (c : Checker) : Prop :=
  ∀ (setting : Setting) (offset : Nat), setting.Fits offset →
    TextGrammar.Alike .outOfRange
      (fun length => ∀ n, length = some n → offset + n ≤ setting.text.size)
      (c.lengthAt run setting offset) (c.lengthAt run' setting offset)

theorem Checker.Measures.longest {cs : List Checker} (h : ∀ c ∈ cs, c.Measures run run')
    (fits : setting.Fits offset) :
    Alike .outOfRange (fun length => ∀ n, length = some n → offset + n ≤ setting.text.size)
      (Checker.longestAt run setting offset cs) (Checker.longestAt run' setting offset cs) := by
  induction cs with
  | nil => exact .ok fun n hn => nomatch hn
  | cons c cs ih =>
    obtain ⟨hc, hcs⟩ := List.forall_mem_cons.mp h
    refine (ih hcs).bind fun later hlater => (hc setting offset fits).bind fun here hhere => ?_
    refine .ok fun n hn => ?_
    cases later <;> cases here <;> simp only [longerLength, Option.some.injEq] at hn
    · cases hn
    · exact hhere n (congrArg some hn)
    · exact hlater n (congrArg some hn)
    · next a b =>
      have := hlater a rfl
      have := hhere b rfl
      omega

mutual

theorem Checker.measures (h : run.Alike run') : ∀ {c : Checker},
    c.Every (fun _ => True) Region.AreColumns → c.Measures run run'
  | .char _, _ => fun setting offset fits => .ok fun n hn => by
    split at hn
    · next c hc =>
      have := (Array.getElem?_eq_some_iff.mp hc).1
      split at hn <;> cases hn
      omega
    · cases hn
  | .word _, _ => fun setting offset fits => .ok fun n hn => Word.lengthAt_within fits.start hn
  | .any _, _ => fun setting offset fits =>
    .ok fun n hn => Checker.anyLengthAt_within fits.start hn
  | .oneOf _ fallback, built => fun setting offset fits => by
    simp only [Checker.lengthAt]
    refine (Checker.Measures.longest (Checker.eachMeasures h built.1) fits).bind fun longest hl => ?_
    cases longest with
    | some n => exact .ok hl
    | none =>
      cases fallback with
      | none => exact .ok fun n hn => nomatch hn
      | some c => exact Checker.measuresIn h built.2 c rfl setting offset fits
  | .not item, built => fun setting offset fits => by
    simp only [Checker.lengthAt]
    split
    · exact .ok fun n hn => Option.some.inj hn ▸ fits.start
    · next hlt =>
      refine (Checker.measures h (c := item) built setting offset fits).bind fun length _ => ?_
      cases length with
      | some n => exact .ok fun n hn => nomatch hn
      | none =>
        refine .ok fun n hn => ?_
        obtain rfl := Option.some.inj hn
        omega
  | .fixed _, built => fun setting offset fits => by
    simp only [Checker.lengthAt]
    refine (Region.spansAt_alike h fits built).bind fun spans hspans => .ok fun n hn => ?_
    obtain ⟨s, hs, rfl⟩ := Option.map_eq_some_iff.mp hn
    have := lastStop_within fits.start (hspans s hs).2
    omega
  | .grammar g, built => fun setting offset fits => Grammar.lengthAt_alike (g := g) h fits built

theorem Checker.eachMeasures (h : run.Alike run') : ∀ {cs : List Checker},
    Checker.EveryOf (fun _ => True) Region.AreColumns cs → ∀ c ∈ cs, c.Measures run run'
  | [], _ => fun _ hc => nomatch hc
  | _ :: _, built =>
    List.forall_mem_cons.mpr ⟨Checker.measures h built.1, Checker.eachMeasures h built.2⟩

theorem Checker.measuresIn (h : run.Alike run') : ∀ {fallback : Option Checker},
    Checker.EveryIn (fun _ => True) Region.AreColumns fallback →
      ∀ c, fallback = some c → c.Measures run run'
  | none, _, _ => fun heq => nomatch heq
  | some c, built, _ => fun heq => Option.some.inj heq ▸ Checker.measures (c := c) h built

end

/-! ## Nodes -/

variable [FailureLog L]

/-- As a choice the checker finds what is in the text and tiled. -/
def Checker.Finds (run run' : Runner L) (c : Checker) : Prop :=
  ∀ (setting : Setting) (offset : Nat), setting.Fits offset →
    TextGrammar.Alike (.fault .outOfRange)
      (fun seen => ∀ found, seen.value = some found → found.Tiles setting.text.size offset)
      (c.choiceAt run setting offset) (c.choiceAt run' setting offset)

/-- A match without nodes. -/
theorem Found.Tiles.leaf {size offset n : Nat} (h : offset + n ≤ size) :
    (⟨offset + n, [], false⟩ : Found).Tiles size offset :=
  ⟨Nat.le_add_right _ _, h, .inl ⟨rfl, rfl⟩⟩

/-- Checkers that are neither grammars nor alternatives give a length only. -/
theorem Checker.choiceAt_of_lengthAt {c : Checker} (hg : ∀ g, c ≠ .grammar g)
    (hc : ∀ cs fb, c ≠ .oneOf cs fb) (run : Runner L) :
    c.choiceAt run setting offset =
      match c.lengthAt run setting offset with
      | .ok length => .ok (.of (length.map fun n => ⟨offset + n, [], false⟩))
      | .error f => .error (.fault f) := by
  cases c with
  | grammar g => exact absurd rfl (hg g)
  | oneOf cs fb => exact absurd rfl (hc cs fb)
  | _ => rfl

theorem Checker.Finds.of_measures {c : Checker} (hg : ∀ g, c ≠ .grammar g)
    (hc : ∀ cs fb, c ≠ .oneOf cs fb) (h : c.Measures run run') : c.Finds run run' := by
  intro setting offset fits
  obtain ⟨heq, hlength⟩ := h setting offset fits
  rw [Checker.choiceAt_of_lengthAt hg hc, Checker.choiceAt_of_lengthAt hg hc, ← heq]
  split at hlength
  · next length hok =>
    rw [hok]
    refine .ok fun found hfound => ?_
    obtain ⟨n, hn, rfl⟩ := Option.map_eq_some_iff.mp hfound
    exact .leaf (hlength n hn)
  · next f herror =>
    rw [herror]
    exact .error fun hf => hlength (Stop.fault.inj hf)

theorem Checker.Finds.grammar (h : run.Alike run') {g : Grammar} (built : g.Built) :
    (Checker.grammar g).Finds run run' := by
  intro setting offset fits
  refine (h setting .beginning g offset fits built).bind fun seen hseen => .ok fun found hfound => ?_
  obtain ⟨m, hm, rfl⟩ := Option.map_eq_some_iff.mp hfound
  exact (hseen m hm).found

theorem Checker.Finds.longest {cs : List Checker} (h : ∀ c ∈ cs, c.Finds run run')
    (fits : setting.Fits offset) :
    Alike (.fault .outOfRange)
      (fun seen => ∀ found, seen.value = some found → found.Tiles setting.text.size offset)
      (Checker.choicesAt run setting offset cs) (Checker.choicesAt run' setting offset cs) := by
  induction cs with
  | nil => exact .ok fun found hfound => nomatch hfound
  | cons c cs ih =>
    obtain ⟨hc, hcs⟩ := List.forall_mem_cons.mp h
    refine (ih hcs).bind fun later hlater => (hc setting offset fits).bind fun here hhere => ?_
    exact .ok (Found.Tiles.longer hlater hhere)

mutual

theorem Checker.finds (h : run.Alike run') : ∀ {c : Checker},
    c.Every (fun _ => True) Region.AreColumns → c.Finds run run'
  | .char _, built | .word _, built | .any _, built | .not _, built | .fixed _, built =>
    .of_measures (by simp) (by simp) (Checker.measures h built)
  | .oneOf _ fallback, built => fun setting offset fits => by
    simp only [Checker.choiceAt]
    refine (Checker.Finds.longest (Checker.eachFinds h built.1) fits).bind fun chosen hchosen => ?_
    cases hv : chosen.value with
    | some found =>
      simp only
      exact .ok hchosen
    | none =>
      simp only
      have hother : Alike (.fault .outOfRange)
          (fun seen => ∀ found, seen.value = some found → found.Tiles setting.text.size offset)
          (Checker.fallbackAt run setting offset fallback)
          (Checker.fallbackAt run' setting offset fallback) := by
        cases fallback with
        | none => exact .ok fun found hfound => nomatch hfound
        | some c => exact Checker.findsIn h built.2 c rfl setting offset fits
      exact hother.bind fun other hother => .ok hother
  | .grammar g, built => .grammar h (g := g) built

theorem Checker.eachFinds (h : run.Alike run') : ∀ {cs : List Checker},
    Checker.EveryOf (fun _ => True) Region.AreColumns cs → ∀ c ∈ cs, c.Finds run run'
  | [], _ => fun _ hc => nomatch hc
  | _ :: _, built => List.forall_mem_cons.mpr ⟨Checker.finds h built.1, Checker.eachFinds h built.2⟩

theorem Checker.findsIn (h : run.Alike run') : ∀ {fallback : Option Checker},
    Checker.EveryIn (fun _ => True) Region.AreColumns fallback →
      ∀ c, fallback = some c → c.Finds run run'
  | none, _, _ => fun heq => nomatch heq
  | some c, built, _ => fun heq => Option.some.inj heq ▸ Checker.finds (c := c) h built

end

/-- **An attempt finds what is in the text**, with nodes that tile it. -/
theorem Checker.foundAt_alike (h : run.Alike run') {c : Checker} (fits : setting.Fits offset)
    (built : c.Every (fun _ => True) Region.AreColumns) :
    Alike (.fault .outOfRange)
      (fun seen => ∀ found, seen.value = some found → found.Tiles setting.text.size offset)
      (c.foundAt run setting offset) (c.foundAt run' setting offset) := by
  cases c with
  | fixed regions =>
    obtain ⟨heq, hspans⟩ := Region.spansAt_alike h fits built
    simp only [Checker.foundAt, ← heq]
    split at hspans
    · next spans hok =>
      simp only [hok]
      refine .ok fun found hfound => ?_
      obtain ⟨s, hs, rfl⟩ := Option.map_eq_some_iff.mp hfound
      obtain ⟨rfl, heach⟩ := hspans s hs
      have within := lastStop_within fits.start heach
      exact ⟨within.1, within.2, .inr (Region.nodes_tile fun span hspan => (heach span hspan).2.1)⟩
    · next f herror =>
      simp only [herror]
      exact .error fun hf => hspans (Stop.fault.inj hf)
  | _ => exact Checker.finds h built setting offset fits

/-! ## Completing a match -/

/-- The text can be cut off where a match ends. -/
theorem Setting.Fits.cut (fits : setting.Fits offset) {found : Found}
    (tiles : found.Tiles setting.text.size offset) :
    ({ setting with text := setting.text.slice 0 found.stop } : Setting).Fits offset where
  types := fits.types
  size := Nat.lt_of_le_of_lt (Text.size_slice_le _ _ _) fits.size
  start := by simpa only [Text.size_slice_zero tiles.within] using tiles.start
  outer := fits.outer

theorem Entry.reread_alike (h : run.Alike run') {entry : Entry}
    (built : entry.Every (fun _ => True) Region.AreColumns) (fits : setting.Fits offset)
    {found : Found} (tiles : found.Tiles setting.text.size offset) :
    Alike (.fault .outOfRange)
      (fun seen => ∀ kept, seen.value = some kept →
        kept.stop = found.stop ∧ kept.Tiles setting.text.size offset)
      (entry.reread run setting offset found) (entry.reread run' setting offset found) := by
  cases hs : entry.secondary with
  | none =>
    simp only [Entry.reread, hs]
    refine .ok fun kept hkept => ?_
    obtain rfl := Option.some.inj hkept
    exact ⟨rfl, tiles⟩
  | some g =>
    have hsize := Text.size_slice_zero tiles.within
    have builtSecond : g.Built := by
      have hsecond := built.secondary
      rwa [hs] at hsecond
    simp only [Entry.reread, hs, tiles.within, if_true]
    refine (h _ .whole g offset (fits.cut tiles) builtSecond).bind fun seen hseen => ?_
    refine .ok fun kept hkept => ?_
    obtain ⟨m, hm, rfl⟩ := Option.map_eq_some_iff.mp hkept
    have htiles := hseen m hm
    have hstop : m.stop = found.stop := (htiles.whole rfl).trans hsize
    exact ⟨rfl, tiles.start, tiles.within, .inr (hstop ▸ htiles.nodes)⟩

/-- The nodes of a complete match tile it, whether it gets a node of its own or not. -/
theorem Entry.untypedNodes_tile {entry : Entry} {size : Nat} {found : Found}
    (tiles : found.Tiles size offset) :
    Node.Tile offset found.stop (entry.untypedNodes offset found) := by
  have hchildren : found.nodes = [] ∨ Node.Tile offset found.stop found.nodes :=
    tiles.nodes.imp And.left id
  simp only [Entry.untypedNodes]
  cases entry.capture with
  | some capture =>
    refine .single tiles.start ?_
    split
    · exact .inl rfl
    · exact hchildren
  | none =>
    simp only
    split
    · next hbuilt =>
      refine tiles.nodes.resolve_left fun hleaf => ?_
      rw [hleaf.2] at hbuilt
      cases hbuilt
    · exact .single tiles.start hchildren

theorem Entry.complete_alike (h : run.Alike run') {entry : Entry}
    (built : entry.Every (fun _ => True) Region.AreColumns) (fits : setting.Fits offset)
    {found : Found} (tiles : found.Tiles setting.text.size offset) (use : Option TypeUse) :
    Alike (.fault .outOfRange)
      (fun seen => ∀ nodes, seen.value = some nodes → Node.Tile offset found.stop nodes)
      (entry.complete run setting offset found use)
      (entry.complete run' setting offset found use) := by
  simp only [Entry.complete]
  refine (Entry.reread_alike h built fits tiles).bind fun seen hseen => ?_
  obtain ⟨value, failures⟩ := seen
  cases value with
  | none => exact .ok fun nodes hnodes => nomatch hnodes
  | some kept =>
    obtain ⟨hstop, htiles⟩ := hseen kept rfl
    cases use with
    | none =>
      refine .ok fun nodes hnodes => ?_
      obtain rfl := Option.some.inj hnodes
      exact hstop ▸ Entry.untypedNodes_tile htiles
    | some use =>
      simp only
      split
      · refine .ok fun nodes hnodes => ?_
        obtain rfl := Option.some.inj hnodes
        rw [← hstop]
        have hchildren := htiles.nodes.imp And.left id
        split
        · exact .single htiles.start (.inl rfl)
        · exact .single htiles.start hchildren
      · exact .ok fun nodes hnodes => nomatch hnodes

end

end TextGrammar
