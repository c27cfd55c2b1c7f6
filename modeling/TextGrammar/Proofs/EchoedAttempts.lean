/-
Attempts that come to the same. One grammar echoes another if every search for it
ends where a search for the other does and with the same marks, or both find
nothing, or both are refused for the same reason. The two may take different
numbers of steps, so they are compared with enough steps for both. What holds of
grammars passes on to checkers, and to all that is done with the match of an entry.
-/
import TextGrammar.Proofs.Ends
import TextGrammar.Proofs.Marks
import TextGrammar.Proofs.Restated
import TextGrammar.Proofs.Texts
import TextGrammar.Proofs.TiledAttempts

open Filter (atTop)

namespace TextGrammar

/-! ## Results that stay the same -/

section

variable {ε ε' η η' α β γ δ : Type} {errs : ε → ε' → Prop} {errs' : η → η' → Prop}
  {r : α → β → Prop} {s : γ → δ → Prop}

/-- With enough steps both come to values, always the same ones and related, or both to errors that
go together. -/
def BothEnd (errs : ε → ε' → Prop) (r : α → β → Prop) (x : Nat → Except ε α)
    (y : Nat → Except ε' β) : Prop :=
  (∃ a b, r a b ∧ (∀ᶠ fuel in atTop, x fuel = .ok a) ∧ ∀ᶠ fuel in atTop, y fuel = .ok b) ∨
    ∃ e e', errs e e' ∧ (∀ᶠ fuel in atTop, x fuel = .error e) ∧
      ∀ᶠ fuel in atTop, y fuel = .error e'

/-- Both are refused, for the same reason. -/
def Stop.SameRefusal (stop stop' : Stop) : Prop :=
  ∃ error, stop = .refused error ∧ stop' = .refused error

/-- Nothing goes wrong where only a length is asked for. -/
def Fault.Never (_ _ : Fault) : Prop := False

namespace BothEnd

variable {x : Nat → Except ε α} {y : Nat → Except ε' β}

theorem ok {a : α} {b : β} (h : r a b) :
    BothEnd errs r (fun _ => (.ok a : Except ε α)) fun _ => (.ok b : Except ε' β) :=
  .inl ⟨a, b, h, .of_forall fun _ => rfl, .of_forall fun _ => rfl⟩

theorem refused (error : ParseError) :
    BothEnd Stop.SameRefusal r (fun _ => (.error (.refused error) : Except Stop α))
      fun _ => (.error (.refused error) : Except Stop β) :=
  .inr ⟨_, _, ⟨error, rfl, rfl⟩, .of_forall fun _ => rfl, .of_forall fun _ => rfl⟩

theorem bind {f : Nat → α → Except ε γ} {g : Nat → β → Except ε' δ} (h : BothEnd errs r x y)
    (hfg : ∀ a b, r a b → BothEnd errs s (fun fuel => f fuel a) fun fuel => g fuel b) :
    BothEnd errs s (fun fuel => x fuel >>= f fuel) fun fuel => y fuel >>= g fuel := by
  rcases h with ⟨a, b, hab, hx, hy⟩ | ⟨e, e', herrs, hx, hy⟩
  · rcases hfg a b hab with ⟨c, d, hcd, hf, hg⟩ | ⟨e, e', herrs, hf, hg⟩
    · exact .inl ⟨c, d, hcd, eventually_bind_of_ok hx hf, eventually_bind_of_ok hy hg⟩
    · exact .inr ⟨e, e', herrs, eventually_bind_of_ok hx hf, eventually_bind_of_ok hy hg⟩
  · exact .inr ⟨e, e', herrs, eventually_bind_of_error hx, eventually_bind_of_error hy⟩

/-- One step more makes no difference. -/
theorem of_succ (h : BothEnd errs r (fun fuel => x (fuel + 1)) fun fuel => y (fuel + 1)) :
    BothEnd errs r x y := by
  rcases h with ⟨a, b, hab, hx, hy⟩ | ⟨e, e', herrs, hx, hy⟩
  · exact .inl ⟨a, b, hab, eventually_of_succ hx, eventually_of_succ hy⟩
  · exact .inr ⟨e, e', herrs, eventually_of_succ hx, eventually_of_succ hy⟩

/-- Results that are read off others, which do not go wrong. -/
theorem reads {x' : Nat → Except η γ} {y' : Nat → Except η' δ} (h : BothEnd errs r x y)
    (hnever : ∀ e e', ¬ errs e e') (f : α → γ) (g : β → δ) (hfg : ∀ a b, r a b → s (f a) (g b))
    (hx : ∀ fuel a, x fuel = .ok a → x' fuel = .ok (f a))
    (hy : ∀ fuel b, y fuel = .ok b → y' fuel = .ok (g b)) : BothEnd errs' s x' y' := by
  rcases h with ⟨a, b, hab, ha, hb⟩ | ⟨e, e', herrs, _, _⟩
  · exact .inl ⟨f a, g b, hfg a b hab, ha.mono fun fuel h => hx fuel a h,
      hb.mono fun fuel h => hy fuel b h⟩
  · exact absurd herrs (hnever e e')

/-- Results that are put together from those of the members of two lists, the last of them first. -/
theorem foldrM {κ κ' : Type} {belong : κ → κ' → Prop} {f : Nat → κ → α → Except ε α}
    {g : Nat → κ' → β → Except ε' β} {a₀ : α} {b₀ : β} (h₀ : r a₀ b₀)
    (hfg : ∀ c c', belong c c' → ∀ a b, r a b →
      BothEnd errs r (fun fuel => f fuel c a) fun fuel => g fuel c' b)
    {cs : List κ} {cs' : List κ'} (h : List.Forall₂ belong cs cs') :
    BothEnd errs r (fun fuel => cs.foldrM (f fuel) a₀) fun fuel => cs'.foldrM (g fuel) b₀ := by
  induction h with
  | nil => exact .ok h₀
  | @cons c c' _ _ hc _ ih =>
    simp only [List.foldrM_cons]
    exact ih.bind (hfg c c' hc)

/-- Results that are those of two members, if there are any. -/
theorem elim {κ κ' : Type} {belong : κ → κ' → Prop} {f : Nat → κ → Except ε α}
    {g : Nat → κ' → Except ε' β} {a₀ : α} {b₀ : β} (h₀ : r a₀ b₀)
    (hfg : ∀ c c', belong c c' → BothEnd errs r (fun fuel => f fuel c) fun fuel => g fuel c')
    {c? : Option κ} {c'? : Option κ'} (h : Option.Rel belong c? c'?) :
    BothEnd errs r (fun fuel => c?.elim (.ok a₀) (f fuel))
      fun fuel => c'?.elim (.ok b₀) (g fuel) := by
  cases h with
  | none => exact .ok h₀
  | @some c c' hc => exact hfg c c' hc

end BothEnd

end

/-! ## Lengths -/

/-- A checker that is matched by its length alone. -/
structure Checker.IsLeaf (c : Checker) : Prop where
  not_grammar : ∀ g, c ≠ .grammar g
  not_oneOf : ∀ cs fb, c ≠ .oneOf cs fb
  not_fixed : ∀ regions, c ≠ .fixed regions

/-- The length of a checker is the same in every search, and lies in the text. -/
structure Checker.HasLength (L : Type) (measure : Text → Nat → Option Nat) (c : Checker) :
    Prop where
  leaf : c.IsLeaf
  length : ∀ (run : Runner L) (setting : Setting) (offset : Nat),
    c.lengthAt run setting offset = .ok (measure setting.text offset)
  size : ∀ {text : Text} {offset : Nat}, offset ≤ text.size →
    ∀ n ∈ measure text offset, offset + n ≤ text.size

/-- The length of a literal, where the text has its characters. -/
def literalLengthAt (cs : List Char) (text : Text) (offset : Nat) : Option Nat :=
  if text.hasAt offset cs then some cs.length else none

theorem literalLengthAt_le {cs : List Char} {text : Text} {offset : Nat}
    (hoffset : offset ≤ text.size) :
    ∀ n ∈ literalLengthAt cs text offset, offset + n ≤ text.size := by
  intro n hn
  simp only [literalLengthAt, Option.mem_def, Option.ite_none_right_eq_some,
    Option.some.injEq] at hn
  exact hn.2 ▸ Text.hasAt_le hn.1 hoffset

theorem Checker.anyLengthAt_le {width : Option Nat} {text : Text} {offset : Nat}
    (hoffset : offset ≤ text.size) :
    ∀ n ∈ Checker.anyLengthAt width text offset, offset + n ≤ text.size := by
  intro n hn
  unfold Checker.anyLengthAt at hn
  split at hn
  · obtain rfl := Option.some.inj hn
    exact hoffset
  · simp only [Option.mem_def, Option.ite_none_right_eq_some, Option.some.injEq] at hn
    exact hn.2 ▸ hn.1
  · simp only [Option.mem_def, Option.ite_none_right_eq_some, Option.some.injEq] at hn
    omega

namespace Checker.HasLength

variable {L : Type}

theorem any (width : Option Nat) : (Checker.any width).HasLength L (Checker.anyLengthAt width) :=
  ⟨⟨by simp, by simp, by simp⟩, fun _ _ _ => rfl, Checker.anyLengthAt_le⟩

/-- A word, or one character. -/
theorem letters {c : Checker} {cs : List Char} (h : c.letters? = some cs) :
    c.HasLength L (literalLengthAt cs) := by
  unfold Checker.letters? at h
  split at h
  · next w =>
    obtain rfl := Option.some.inj h
    exact ⟨⟨by simp, by simp, by simp⟩, fun _ _ _ => rfl, literalLengthAt_le⟩
  · next d =>
    obtain rfl := Option.some.inj h
    refine ⟨⟨by simp, by simp, by simp⟩, fun run setting offset => ?_, literalLengthAt_le⟩
    simp only [Checker.lengthAt, literalLengthAt, Text.hasAt, Bool.and_true]
    cases setting.text[offset]? with
    | none => rfl
    | some x =>
      simp only [CharSet.contains, Option.some_beq_some, BEq.comm (a := x)]
      rfl
  · cases h

/-- Without characters it is any text of no length. -/
theorem literal (cs : List Char) : (Checker.literal cs).HasLength L (literalLengthAt cs) := by
  cases cs with
  | nil => exact any (some 0)
  | cons c cs => exact letters rfl

end Checker.HasLength

/-! ## Searches and what they find -/

/-- Searches with these types in the same text, with the same marks around them. -/
structure Setting.Echoes (env : TypeEnv) (setting setting' : Setting) : Prop where
  types : setting.types = env
  types' : setting'.types = env
  standard : setting.strategy = .standard
  standard' : setting'.strategy = .standard
  text : setting'.text = setting.text
  outer : setting'.outer.map Trail.marks = setting.outer.map Trail.marks

theorem Setting.Echoes.alone {env : TypeEnv} {setting setting' : Setting}
    (h : setting.Echoes env setting') : setting.alone.Echoes env setting'.alone :=
  ⟨h.types, h.types', h.standard, h.standard', h.text, rfl⟩

/-- What was matched is searched again up to where it ends. -/
theorem Setting.Echoes.part {env : TypeEnv} {setting setting' : Setting}
    (h : setting.Echoes env setting') (stop : Nat) :
    ({ setting with text := setting.text.slice 0 stop } : Setting).Echoes env
      { setting' with text := setting'.text.slice 0 stop } :=
  ⟨h.types, h.types', h.standard, h.standard', by simp only [h.text], h.outer⟩

/-- Matches from the same start up to the same place in the text, with the same marks. -/
structure Match.Echoes (start size : Nat) (m m' : Match) : Prop where
  stop : m'.stop = m.stop
  marks : Node.marksAll m'.nodes = Node.marksAll m.nodes
  start_le : start ≤ m.stop
  le_size : m.stop ≤ size

structure Found.Echoes (start size : Nat) (found found' : Found) : Prop where
  stop : found'.stop = found.stop
  marks : Node.marksAll found'.nodes = Node.marksAll found.nodes
  start_le : start ≤ found.stop
  le_size : found.stop ≤ size

/-- Nothing is found both times, or what is found is related. -/
def Seen.Both {L α β : Type} (r : α → β → Prop) (seen : Seen L (Option α))
    (seen' : Seen L (Option β)) : Prop :=
  Option.Rel r seen.value seen'.value

/-- The same length, of characters that are in the text. -/
def SameLength (offset size : Nat) (length length' : Option Nat) : Prop :=
  length' = length ∧ ∀ n ∈ length, offset + n ≤ size

variable {L : Type} [FailureLog L] {env : TypeEnv} {setting setting' : Setting} {offset : Nat}

/-- Every search for the second grammar comes to what one for the first comes to. -/
def Grammar.Echoes (L : Type) [FailureLog L] (env : TypeEnv) (g g' : Grammar) : Prop :=
  ∀ (setting setting' : Setting) (mode : Mode) (offset : Nat), setting.Echoes env setting' →
    offset ≤ setting.text.size →
      BothEnd Stop.SameRefusal (Seen.Both (Match.Echoes offset setting.text.size))
        (fun fuel => runWithin (L := L) fuel setting mode g offset)
        fun fuel => runWithin (L := L) fuel setting' mode g' offset

/-- All that a search does with the second checker comes to what it comes to with the first. -/
structure Checker.Echoes (L : Type) [FailureLog L] (env : TypeEnv) (c c' : Checker) : Prop where
  length : ∀ {setting setting' offset}, setting.Echoes env setting' → offset ≤ setting.text.size →
    BothEnd Fault.Never (SameLength offset setting.text.size)
      (fun fuel => c.lengthAt (runWithin (L := L) fuel) setting offset)
      fun fuel => c'.lengthAt (runWithin (L := L) fuel) setting' offset
  choice : ∀ {setting setting' offset}, setting.Echoes env setting' → offset ≤ setting.text.size →
    BothEnd Stop.SameRefusal (Seen.Both (Found.Echoes offset setting.text.size))
      (fun fuel => c.choiceAt (runWithin (L := L) fuel) setting offset)
      fun fuel => c'.choiceAt (runWithin (L := L) fuel) setting' offset
  plain : ∀ regions, c ≠ .fixed regions
  plain' : ∀ regions, c' ≠ .fixed regions

/-- A length is the match of a leaf. -/
theorem SameLength.found {size : Nat} {length length' : Option Nat}
    (h : SameLength offset size length length') :
    Seen.Both (L := L) (Found.Echoes offset size)
      (.of (length.map fun n => ⟨offset + n, [], false⟩))
      (.of (length'.map fun n => ⟨offset + n, [], false⟩)) := by
  obtain ⟨rfl, hsize⟩ := h
  cases length' with
  | none => exact .none
  | some n => exact .some ⟨rfl, rfl, Nat.le_add_right _ _, hsize n rfl⟩

/-! ## Checkers -/

namespace Checker.Echoes

variable {c c' : Checker}

/-- Without columns the match of a checker is that of a choice. -/
theorem found (h : c.Echoes L env c') (echoes : setting.Echoes env setting')
    (hoffset : offset ≤ setting.text.size) :
    BothEnd Stop.SameRefusal (Seen.Both (Found.Echoes offset setting.text.size))
      (fun fuel => c.foundAt (runWithin (L := L) fuel) setting offset)
      fun fuel => c'.foundAt (runWithin (L := L) fuel) setting' offset := by
  have hsame {c : Checker} (hc : ∀ regions, c ≠ .fixed regions) (run : Runner L)
      (setting : Setting) : c.foundAt run setting offset = c.choiceAt run setting offset := by
    cases c with
    | fixed regions => exact absurd rfl (hc regions)
    | _ => rfl
  simp only [hsame h.plain, hsame h.plain']
  exact h.choice echoes hoffset

theorem of_length (hc : c.IsLeaf) (hc' : c'.IsLeaf)
    (h : ∀ {setting setting' offset}, setting.Echoes env setting' → offset ≤ setting.text.size →
      BothEnd Fault.Never (SameLength offset setting.text.size)
        (fun fuel => c.lengthAt (runWithin (L := L) fuel) setting offset)
        fun fuel => c'.lengthAt (runWithin (L := L) fuel) setting' offset) :
    c.Echoes L env c' := by
  refine ⟨h, fun {setting setting' offset} echoes hoffset => ?_, hc.not_fixed, hc'.not_fixed⟩
  refine (h echoes hoffset).reads (fun _ _ herrs => herrs)
    (fun length => .of (length.map fun n => ⟨offset + n, [], false⟩))
    (fun length => .of (length.map fun n => ⟨offset + n, [], false⟩))
    (fun _ _ hlength => hlength.found) (fun fuel length hrun => ?_) fun fuel length hrun => ?_
  · rw [Checker.choiceAt_of_lengthAt hc.not_grammar hc.not_oneOf, hrun]
  · rw [Checker.choiceAt_of_lengthAt hc'.not_grammar hc'.not_oneOf, hrun]

/-- Sets with the same members. -/
theorem char {set set' : CharSet}
    (h : ∀ c, set'.contains env.classes c = set.contains env.classes c) :
    (Checker.char set).Echoes L env (.char set') := by
  refine of_length ⟨by simp, by simp, by simp⟩ ⟨by simp, by simp, by simp⟩
    fun {setting setting' offset} echoes hoffset => ?_
  simp only [Checker.lengthAt, echoes.types, echoes.types', echoes.text, h]
  refine .ok ⟨rfl, fun n hn => ?_⟩
  split at hn
  · next hc =>
    split at hn
    · obtain rfl := Option.some.inj hn
      exact (Array.getElem?_eq_some_iff.mp hc).1
    · cases hn
  · cases hn

/-- The same length in every search. -/
theorem of_hasLength {measure : Text → Nat → Option Nat} (h : c.HasLength L measure)
    (h' : c'.HasLength L measure) : c.Echoes L env c' := by
  refine of_length h.leaf h'.leaf fun {setting setting' offset} echoes hoffset => ?_
  simp only [h.length, h'.length, echoes.text]
  exact .ok ⟨rfl, h.size hoffset⟩

/-- Literals with the same characters. -/
theorem literal {cs : List Char} (h : c.letters? = some cs) (h' : c'.letters? = some cs) :
    c.Echoes L env c' :=
  of_hasLength (.letters h) (.letters h')

theorem any (width : Option Nat) : (Checker.any width).Echoes L env (.any width) :=
  of_hasLength (.any width) (.any width)

theorem not {item item' : Checker} (h : item.Echoes L env item') :
    item.not.Echoes L env item'.not := by
  refine of_length ⟨by simp, by simp, by simp⟩ ⟨by simp, by simp, by simp⟩
    fun {setting setting' offset} echoes hoffset => ?_
  simp only [Checker.lengthAt, echoes.text]
  split
  · exact .ok ⟨rfl, fun n hn => Option.some.inj hn ▸ hoffset⟩
  · refine (h.length echoes hoffset).bind fun length length' hlength => ?_
    obtain ⟨rfl, _⟩ := hlength
    cases length' with
    | some n => exact .ok ⟨rfl, fun n hn => by cases hn⟩
    | none => exact .ok ⟨rfl, fun n hn => by cases hn; omega⟩

theorem grammar {g g' : Grammar} (h : g.Echoes L env g') :
    (Checker.grammar g).Echoes L env (.grammar g') := by
  refine ⟨fun {setting setting' offset} echoes hoffset => ?_,
    fun {setting setting' offset} echoes hoffset => ?_, by simp, by simp⟩
  · simp only [Checker.lengthAt]
    rcases h setting.alone setting'.alone .beginning offset echoes.alone hoffset with
      ⟨seen, seen', hseen, hx, hy⟩ | ⟨_, _, ⟨error, rfl, rfl⟩, hx, hy⟩
    · refine .inl ⟨seen.value.map (·.stop - offset), seen'.value.map (·.stop - offset), ?_,
        hx.mono fun fuel hrun => ?_, hy.mono fun fuel hrun => ?_⟩
      · obtain ⟨value, failures⟩ := seen
        obtain ⟨value', failures'⟩ := seen'
        cases hseen with
        | none => exact ⟨rfl, fun n hn => by cases hn⟩
        | some hm =>
          refine ⟨congrArg (some <| · - offset) hm.stop, fun n hn => ?_⟩
          obtain rfl := Option.some.inj hn
          exact (Nat.add_sub_cancel' hm.start_le).trans_le hm.le_size
      · simp only [Grammar.lengthAt, hrun]
      · simp only [Grammar.lengthAt, hrun]
    · refine .inl ⟨none, none, ⟨rfl, fun n hn => by cases hn⟩, hx.mono fun fuel hrun => ?_,
        hy.mono fun fuel hrun => ?_⟩
      · simp only [Grammar.lengthAt, hrun]
      · simp only [Grammar.lengthAt, hrun]
  · simp only [Checker.choiceAt]
    refine (h setting setting' .beginning offset echoes hoffset).bind fun seen seen' hseen => .ok ?_
    obtain ⟨value, failures⟩ := seen
    obtain ⟨value', failures'⟩ := seen'
    cases hseen with
    | none => exact .none
    | some hm => exact .some ⟨hm.stop, hm.marks, hm.start_le, hm.le_size⟩

end Checker.Echoes

/-! ## Choices -/

theorem SameLength.longer {size : Nat} {a a' b b' : Option Nat} (ha : SameLength offset size a a')
    (hb : SameLength offset size b b') :
    SameLength offset size (longerLength a b) (longerLength a' b') := by
  obtain ⟨rfl, ha⟩ := ha
  obtain ⟨rfl, hb⟩ := hb
  refine ⟨rfl, ?_⟩
  cases a' with
  | none => exact hb
  | some m =>
    cases b' with
    | none => exact ha
    | some n =>
      intro k hk
      obtain rfl := Option.some.inj hk
      have := ha m rfl
      have := hb n rfl
      omega

theorem Found.Echoes.longer {start size : Nat} {a a' b b' : Option Found}
    (ha : Option.Rel (Found.Echoes start size) a a')
    (hb : Option.Rel (Found.Echoes start size) b b') :
    Option.Rel (Found.Echoes start size) (longer a b) (longer a' b') := by
  cases ha with
  | none => exact hb
  | some ha =>
    cases hb with
    | none => exact .some ha
    | some hb =>
      simp only [TextGrammar.longer, further, ha.stop, hb.stop]
      split
      · exact .some hb
      · exact .some ha

section

variable {cs cs' : List Checker} {fallback fallback' : Option Checker}

theorem Checker.Echoes.oneOf (hcs : List.Forall₂ (Checker.Echoes L env) cs cs')
    (hfallback : Option.Rel (Checker.Echoes L env) fallback fallback') :
    (Checker.oneOf cs fallback).Echoes L env (.oneOf cs' fallback') := by
  refine ⟨fun {setting setting' offset} echoes hoffset => ?_,
    fun {setting setting' offset} echoes hoffset => ?_, by simp, by simp⟩
  · have hnone : SameLength offset setting.text.size none none := ⟨rfl, fun n hn => by cases hn⟩
    simp only [Checker.lengthAt, Checker.longestAt_eq_foldrM, Checker.fallbackLengthAt_eq_elim]
    refine (BothEnd.foldrM hnone (fun c c' hc later later' hlater =>
      (hc.length echoes hoffset).bind fun here here' hhere => .ok (hlater.longer hhere)) hcs).bind
        fun longest longest' hlongest => ?_
    obtain ⟨rfl, hsize⟩ := hlongest
    cases longest' with
    | some n => exact .ok ⟨rfl, hsize⟩
    | none => exact .elim hnone (fun c c' hc => hc.length echoes hoffset) hfallback
  · have hnone : Seen.Both (Found.Echoes offset setting.text.size) (.of none : Seen L _)
        (.of none : Seen L _) := .none
    simp only [Checker.choiceAt, Checker.choicesAt_eq_foldrM, Checker.fallbackAt_eq_elim]
    refine (BothEnd.foldrM hnone (fun c c' hc later later' hlater =>
      (hc.choice echoes hoffset).bind fun here here' hhere =>
        .ok (Found.Echoes.longer hlater hhere)) hcs).bind fun chosen chosen' hchosen => ?_
    obtain ⟨value, failures⟩ := chosen
    obtain ⟨value', failures'⟩ := chosen'
    cases hchosen with
    | some hfound => exact .ok (.some hfound)
    | none =>
      exact (BothEnd.elim hnone (fun c c' hc => hc.choice echoes hoffset) hfallback).bind
        fun other other' hother => .ok hother

end

/-! ## Completing a match -/

/-- The type lets a match stand according to its text, its parameter and the marks around it. -/
def ParserType.SeesMarks (type : ParserType) : Prop :=
  ∀ (host host' : Host) (ref ref' : NodeRef), host.Echoes host' → ref'.text = ref.text →
    ref'.node.start = ref.node.start → ref'.node.stop = ref.node.stop →
      ref'.node.param = ref.node.param → type.accepts host' ref' = type.accepts host ref

/-- What is done with the match of the second entry comes to what is done with that of the first. -/
structure Entry.Echoes (L : Type) [FailureLog L] (env : TypeEnv) (e e' : Entry) : Prop where
  capture : e'.capture = e.capture
  quantifier : e.quantifier.Restated e'.quantifier
  second : Option.Rel (Grammar.Echoes L env) e.secondary e'.secondary

section

variable {e e' : Entry} {start : Nat} {found found' : Found}

theorem Entry.reread_echoes (h : e.Echoes L env e') (echoes : setting.Echoes env setting')
    (hfound : found.Echoes start setting.text.size found') :
    BothEnd Stop.SameRefusal (Seen.Both (Found.Echoes start setting.text.size))
      (fun fuel => e.reread (runWithin (L := L) fuel) setting start found)
      fun fuel => e'.reread (runWithin (L := L) fuel) setting' start found' := by
  have hsecond := h.second
  simp only [Entry.reread]
  generalize e.secondary = second at hsecond ⊢
  generalize e'.secondary = second' at hsecond ⊢
  cases hsecond with
  | none => exact .ok (.some hfound)
  | some hg =>
    have hsize := Text.size_slice_zero hfound.le_size
    simp only [hfound.stop, echoes.text, hfound.le_size, if_true]
    have hpart := echoes.part found.stop
    rw [echoes.text] at hpart
    refine (hg _ _ .whole start hpart (by simpa only [hsize] using hfound.start_le)).bind
      fun seen seen' hseen => .ok ?_
    obtain ⟨value, failures⟩ := seen
    obtain ⟨value', failures'⟩ := seen'
    cases hseen with
    | none => exact .none
    | some hm => exact .some ⟨rfl, hm.marks, hfound.start_le, hfound.le_size⟩

/-- The nodes of an entry without a type have the same marks. -/
theorem Entry.untypedNodes_echoes (hcapture : e'.capture = e.capture) {size : Nat}
    (hfound : found.Echoes start size found') :
    Node.marksAll (e'.untypedNodes start found') = Node.marksAll (e.untypedNodes start found) := by
  have hbare (found : Found) : Node.marksAll (if found.built then found.nodes
      else [{ start, stop := found.stop, children := found.nodes }]) =
      Node.marksAll found.nodes := by
    split
    · rfl
    · rw [Node.marksAll_singleton, Node.marks_eq]
      exact List.append_nil _
  simp only [Entry.untypedNodes, hcapture]
  cases e.capture with
  | none => rw [hbare, hbare, hfound.marks]
  | some capture =>
    simp only [Node.marksAll_singleton, Node.marks_eq, hfound.stop]
    split
    · rfl
    · rw [hfound.marks]

/-- The marks of nodes that are kept. -/
def Node.SameMarks (nodes nodes' : List Node) : Prop :=
  Node.marksAll nodes' = Node.marksAll nodes

theorem Entry.complete_echoes (h : e.Echoes L env e') (echoes : setting.Echoes env setting')
    (hfound : found.Echoes start setting.text.size found') {use : Option TypeUse}
    (huse : ∀ u, use = some u → u.type.SeesMarks) :
    BothEnd Stop.SameRefusal (Seen.Both Node.SameMarks)
      (fun fuel => e.complete (runWithin (L := L) fuel) setting start found use)
      fun fuel => e'.complete (runWithin (L := L) fuel) setting' start found' use := by
  simp only [Entry.complete]
  refine (Entry.reread_echoes h echoes hfound).bind fun seen seen' hseen => ?_
  obtain ⟨value, failures⟩ := seen
  obtain ⟨value', failures'⟩ := seen'
  cases hseen with
  | none => exact .ok .none
  | @some kept kept' hkept =>
    cases use with
    | none => exact .ok (.some (Entry.untypedNodes_echoes h.capture hkept))
    | some use =>
      have hname : e'.name? = e.name? := congrArg (Option.map Capture.name) h.capture
      have hflat : e'.isFlat = e.isFlat := congrArg (Option.any Capture.flat) h.capture
      have hmarks : Node.SameMarks [e.typedNode start kept use] [e'.typedNode start kept' use] := by
        simp only [Node.SameMarks, Node.marksAll_singleton, Node.marks_eq, Entry.typedNode, hname,
          hkept.stop, hkept.marks]
      have hbare : Node.SameMarks [{ e.typedNode start kept use with children := [] }]
          [{ e'.typedNode start kept' use with children := [] }] := by
        simp only [Node.SameMarks, Node.marksAll_singleton, Node.marks_eq, Entry.typedNode, hname,
          hkept.stop]
      have haccepts : use.type.accepts ⟨setting'.text, start, setting'.outer⟩
          ⟨setting'.text, e'.typedNode start kept' use, 0⟩ =
          use.type.accepts ⟨setting.text, start, setting.outer⟩
            ⟨setting.text, e.typedNode start kept use, 0⟩ :=
        huse use rfl _ _ _ _ ⟨echoes.text, rfl, echoes.outer⟩ echoes.text rfl hkept.stop rfl
      simp only [haccepts, hflat]
      split
      · refine .ok (.some ?_)
        split
        · exact hbare
        · exact hmarks
      · exact .ok .none

end

end TextGrammar
