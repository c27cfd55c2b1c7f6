/-
Characters of patterns, from what the text has there. A character stands for
itself or is an escape; the forms of escapes that patterns are written with are
read to the characters and classes they were written for.
-/
import TextGrammar.Proofs.OneItem

namespace TextGrammar.Pattern

open Inlay (Sound Untyped contentOf classEntries)

variable {vocabulary : Vocabulary} {text : Text} {i : Nat} {cs rest : List Char}

/-! ## Nodes of spans only -/

/-- Nodes of nothing but their spans. -/
def Leaves (nodes : List Node) : Prop := ∀ node ∈ nodes, ∃ start stop, node = .leaf start stop

namespace Leaves

variable {nodes later : List Node}

theorem nil : Leaves [] := fun _ h => by cases h

theorem leaf (start stop : Nat) : Leaves [.leaf start stop] :=
  List.forall_mem_singleton.mpr ⟨start, stop, rfl⟩

theorem append (h : Leaves nodes) (h' : Leaves later) : Leaves (nodes ++ later) :=
  List.forall_mem_append.mpr ⟨h, h'⟩

theorem untyped (h : Leaves nodes) : Untyped nodes := by
  induction nodes with
  | nil => exact .nil
  | cons node nodes ih =>
    obtain ⟨⟨start, stop, rfl⟩, hlater⟩ := List.forall_mem_cons.mp h
    exact (Untyped.leaf start stop).append (ih hlater)

theorem sound (h : Leaves nodes) : Sound nodes := h.untyped.sound

/-- An entry without a name adds its own span, if anything. -/
theorem nodesOf (entry : Entry) {f : Found} (hname : entry.capture = none) (h : Leaves f.nodes)
    (hbuilt : f.built = false → f.nodes = []) : Leaves (entry.nodesOf i f none) := by
  rw [Entry.nodesOf, Entry.untypedNodes, hname]
  dsimp only
  split
  · exact h
  · next hnew =>
    rw [hbuilt (eq_false_of_ne_true hnew)]
    exact .leaf i f.stop

end Leaves

/-! ## Runs of characters -/

/-- Characters of a set that stand one after the other are repeats of its entry. -/
theorem read_run (repeats : Nat) {entry : Entry} {set : CharSet}
    (hentry : entry.MatchedBy patternTypes none (.char set)) (hname : entry.capture = none)
    (hcs : ∀ c ∈ cs, set.contains .standard c = true) (hleft : text.LeftAt i (cs ++ rest))
    (hopen : ∀ n < repeats + cs.length, entry.quantifier.isFull n = false)
    (hend : Repeats text entry (repeats + cs.length) (i + cs.length)
      (some ⟨i + cs.length, []⟩)) :
    ∃ nodes, Repeats text entry repeats i (some ⟨i + cs.length, nodes⟩) ∧ Leaves nodes := by
  induction cs generalizing i repeats with
  | nil => exact ⟨[], hend, .nil⟩
  | cons c cs ih =>
    obtain ⟨hc, hcs⟩ := List.forall_mem_cons.mp hcs
    have hlength (n : Nat) : n + (c :: cs).length = n + 1 + cs.length := by
      rw [List.length_cons, Nat.add_assoc, Nat.add_comm 1]
    rw [hlength] at hend hopen
    rw [hlength] at hend ⊢
    obtain ⟨nodes, hlater, hnodes⟩ := ih (repeats + 1) hcs hleft.next hopen hend
    have hhere := Attempts.char hentry hleft.get hc
    refine ⟨_, .more (hopen repeats (by omega)) hhere (Nat.succ_ne_self i) hlater, ?_⟩
    exact (Leaves.nodesOf entry hname .nil fun _ => rfl).append hnodes

/-- As many as there are up to another character. -/
theorem read_many {entry : Entry} {set : CharSet} {next : Char}
    (hentry : entry.MatchedBy patternTypes none (.char set)) (hname : entry.capture = none)
    (hlower : entry.quantifier.lower = 0) (hupper : entry.quantifier.upper = none)
    (hcs : ∀ c ∈ cs, set.contains .standard c = true)
    (hleft : text.LeftAt i (cs ++ next :: rest)) (hend : set.contains .standard next = false) :
    ∃ nodes, Repeats text entry 0 i (some ⟨i + cs.length, nodes⟩) ∧ Leaves nodes := by
  have hopen (n : Nat) : entry.quantifier.isFull n = false := by
    rw [Quantifier.isFull, hupper]
  have hnone : Attempts text entry (i + cs.length) none :=
    .not_char hentry (Text.only_at hleft.skip.get hend)
  have hmissed := Repeats.missed (hopen (0 + cs.length)) hnone
  rw [if_neg (by omega)] at hmissed
  exact read_run 0 hentry hname hcs hleft (fun n _ => hopen n) hmissed

/-! ## Escapes -/

theorem escape_category : category? "escape" = some (Builtin.constant "escape" (.sequence
    [char '\\', .ofChecker (orFatal (.alternative escapeForms) "Invalid escape")])) := rfl

/-- An escape of the text, and what it stands for. -/
structure EscapeAt (vocabulary : Vocabulary) (text : Text) (i : Nat) (children : List Node)
    (stop : Nat) (escaped : Escaped) : Prop where
  opens : text[i]? = some '\\'
  lt : i < stop
  step : Steps text (category "escape") i ⟨stop, [categoryNode "escape" i stop children]⟩
  leaves : Leaves children
  reads : ∀ index, readEscape vocabulary ⟨text, categoryNode "escape" i stop children, index⟩ =
    .ok escaped

/-- An escape is a backslash and one of its forms. -/
theorem EscapeAt.of_forms (cs : List Char) {f : Found} {escaped : Escaped}
    (hleft : text.LeftAt i ('\\' :: cs ++ rest)) (hstop : f.stop = i + 1 + cs.length)
    (hforms : Among text escapeForms (i + 1) (some f))
    (hleaves : Leaves f.nodes) (hbuilt : f.built = false → f.nodes = [])
    (hread : ∀ ref : NodeRef, ref.chars.toList = '\\' :: cs →
      readEscape vocabulary ref = .ok escaped) :
    ∃ children, EscapeAt vocabulary text i children f.stop escaped := by
  have hform : Repeats text (.ofChecker (orFatal (.alternative escapeForms) "Invalid escape")) 0
      (i + 1) _ := .once rfl (.at_once (.ofChecker _) rfl (.among hforms))
  have hslice := hleft.slice
  rw [List.length_cons, Nat.add_comm cs.length, ← Nat.add_assoc, ← hstop] at hslice
  refine ⟨_, hleft.get, by omega, .category escape_category (.cons (read_char hleft.get)
    (.last hform)), ?_, fun index => hread _ hslice⟩
  exact (Leaves.leaf i (i + 1)).append (Leaves.nodesOf (.ofChecker (orFatal
    (.alternative escapeForms) "Invalid escape")) rfl hleaves hbuilt)

/-- A form with a letter of its own begins with it. -/
theorem no_form {x : Char} {entries : List Entry} (h : text[i]? ≠ some x) :
    Chooses text (.sequence (char x :: entries)) i none := .stuck (.stuck (not_char h))

theorem no_class (h : ∀ x, text[i]? = some x → x ≠ 'p' ∧ x ≠ 'P') :
    Chooses text (.sequence classEntries) i none := by
  refine .stuck (.stuck (.once rfl (.not_char (.ofChecker _) fun x hx => ?_)))
  obtain ⟨hp, hP⟩ := h x hx
  rw [show CharSet.ofString "pP" = .members ['P', 'p'] from rfl]
  simp [CharSet.contains, hp, hP]

theorem any_one {x : Char} (h : text[i]? = some x) :
    Chooses text (.anyOf 1) i (some ⟨i + 1, [], false⟩) := by
  have hlength : Checker.anyLengthAt (some 1) text i = some 1 :=
    if_pos (Array.getElem?_eq_some_iff.mp h).1
  have hany : Chooses text (.any (some 1)) i _ := .any (some 1)
  rwa [hlength] at hany

/-- A backslash before a character that begins no other form. -/
theorem EscapeAt.short {x : Char} {escaped : Escaped} (hleft : text.LeftAt i ('\\' :: x :: rest))
    (hx : x ∉ ['x', 'u', '0', 'p', 'P']) (hread : escapedChar? x = some escaped) :
    ∃ children, EscapeAt vocabulary text i children (i + 2) escaped := by
  simp only [List.mem_cons, List.not_mem_nil, or_false, not_or] at hx
  obtain ⟨hx, hu, h0, hp, hP⟩ := hx
  have hget := hleft.next.get
  have hclass : ∀ y, text[i + 1]? = some y → y ≠ 'p' ∧ y ≠ 'P' := Text.only_at hget ⟨hp, hP⟩
  have hforms : Among text escapeForms (i + 1) (some ⟨i + 2, [], false⟩) :=
    ((((Among.nil.only (any_one hget)).skip (no_class hclass)).skip
      (no_form (Text.no_other_at hget h0))).skip (no_form (Text.no_other_at hget hu))).skip
      (no_form (Text.no_other_at hget hx))
  refine EscapeAt.of_forms [x] hleft rfl hforms .nil (fun _ => rfl) fun ref hchars => ?_
  simp only [readEscape, hchars, List.tail_cons, hread]

/-- The form that goes further than one character. -/
theorem longer_form {choices : List Checker} {c : Checker} {f : Found}
    (hany : Among text choices i (some ⟨i + 1, [], false⟩)) (h : Chooses text c i (some f))
    (hlt : i + 1 < f.stop) : Among text (c :: choices) i (some f) := by
  have hboth := hany.cons h
  rwa [longer, further, if_pos hlt] at hboth

/-- A code of four hexadecimal digits. -/
theorem EscapeAt.code {c : Char} (hleft : text.LeftAt i ('\\' :: 'u' :: cs ++ rest))
    (hlength : cs.length = 4)
    (hdigits : ∀ d ∈ cs, (CharSet.named "hexdigit").contains .standard d = true)
    (hread : codedChar? 16 cs = some (.char c)) :
    ∃ children, EscapeAt vocabulary text i children (i + 6) (.char c) := by
  have hget := hleft.next.get
  have hclass : ∀ y, text[i + 1]? = some y → y ≠ 'p' ∧ y ≠ 'P' := Text.only_at hget (by decide)
  have hentry : ((Entry.ofChecker (.char (.named "hexdigit"))).quantified (.exactly 4)).MatchedBy
      patternTypes none (.char (.named "hexdigit")) := (Entry.MatchedBy.ofChecker _).quantified rfl
  obtain ⟨nodes, hrun, hnodes⟩ := read_run 0 hentry rfl hdigits hleft.next.next
    (fun n hn => decide_eq_false (by omega)) (.full (by rw [hlength]; rfl))
  rw [hlength] at hrun
  have hcode : Chooses text (.sequence [char 'u',
      (Entry.ofChecker (.char (.named "hexdigit"))).quantified (.exactly 4)]) (i + 1)
      (some ⟨i + 6, _, true⟩) := .sequence (.cons (read_char hget) (.last hrun))
  have hforms : Among text escapeForms (i + 1) (some ⟨i + 6, _, true⟩) :=
    (longer_form (((Among.nil.only (any_one hget)).skip (no_class hclass)).skip
      (no_form (Text.no_other_at hget (by decide)))) hcode (by dsimp only; omega)).skip
      (no_form (Text.no_other_at hget (by decide)))
  refine EscapeAt.of_forms ('u' :: cs) hleft (by rw [List.length_cons, hlength]) hforms
    ((Leaves.leaf _ _).append hnodes) (by rintro ⟨⟩) fun ref hchars => ?_
  obtain ⟨d, ds, rfl⟩ := List.exists_cons_of_length_pos (l := cs) (by omega)
  simp only [readEscape, hchars, List.tail_cons, beq_self_eq_true, Bool.or_true, if_true, hlength,
    hread]
  rfl

/-- A class by its name in braces. -/
theorem EscapeAt.named {name : List Char}
    (hleft : text.LeftAt i ('\\' :: 'p' :: '\x7b' :: (name ++ ['\x7d']) ++ rest))
    (hname : '\x7d' ∉ name) (hclass : vocabulary.classes.has (String.ofList name) = true) :
    ∃ children, EscapeAt vocabulary text i children (i + name.length + 4)
      (.set (.named (String.ofList name))) := by
  have hget := hleft.next.get
  have hinside : text.LeftAt (i + 3) (name ++ ('\x7d' :: rest)) := by
    have hthree : text.LeftAt (i + 3) ((name ++ ['\x7d']) ++ rest) := hleft.next.next.next
    rwa [List.append_assoc] at hthree
  have hentry : (many (.ofChecker (noneOf "\x7d"))).MatchedBy patternTypes none
      (.char (.compl (.members ['\x7d']))) := (Entry.MatchedBy.ofChecker _).quantified rfl
  have hplain (c : Char) (hc : c ∈ name) :
      (CharSet.compl (.members ['\x7d'])).contains .standard c = true := by
    have hne : c ≠ '\x7d' := fun heq => hname (heq ▸ hc)
    simp [CharSet.contains, hne]
  obtain ⟨nodes, hmany, hnodes⟩ := read_many hentry rfl rfl rfl hplain hinside rfl
  have hclose : text[i + 3 + name.length]? = some '\x7d' := hinside.skip.get
  have hform : Chooses text (.sequence classEntries) (i + 1)
      (some ⟨i + 3 + name.length + 1, _, true⟩) := .sequence
    (.cons (.once rfl (.char (.ofChecker _) hget rfl)) (.cons (read_char hleft.next.next.get)
      (.cons hmany (.last (read_char hclose)))))
  have hforms : Among text escapeForms (i + 1) (some ⟨i + 3 + name.length + 1, _, true⟩) :=
    (((longer_form (Among.nil.only (any_one hget)) hform (by dsimp only; omega)).skip
      (no_form (Text.no_other_at hget (by decide)))).skip
      (no_form (Text.no_other_at hget (by decide)))).skip
      (no_form (Text.no_other_at hget (by decide)))
  have hlength : i + 3 + name.length + 1 = i + name.length + 4 := by omega
  rw [← hlength]
  refine EscapeAt.of_forms ('p' :: '\x7b' :: (name ++ ['\x7d'])) hleft ?_ hforms ?_
    (by rintro ⟨⟩) fun ref hchars => ?_
  · simp only [List.length_cons, List.length_append, List.length_nil]
    omega
  · exact (Leaves.leaf _ _).append ((Leaves.leaf _ _).append (hnodes.append (.leaf _ _)))
  · simp only [readEscape, hchars, List.tail_cons]
    simp [namedClass, hclass]

/-! ## Characters with escapes -/

/-- What a character is found as, and what it stands for: itself if it is in the set, and as an
escape what the escape is read to. -/
inductive Stands (vocabulary : Vocabulary) (text : Text) (set : CharSet) (i : Nat) :
    Found → Escaped → Prop
  | plain {c : Char} (h : text[i]? = some c) (hset : set.contains .standard c = true) :
    Stands vocabulary text set i ⟨i + 1, [], false⟩ (.char c)
  | escape {children : List Node} {stop : Nat} {escaped : Escaped}
    (h : EscapeAt vocabulary text i children stop escaped) :
    Stands vocabulary text set i ⟨stop, [categoryNode "escape" i stop children], true⟩ escaped

namespace Stands

variable {set : CharSet} {f : Found} {escaped : Escaped}

theorem lt (h : Stands vocabulary text set i f escaped) : i < f.stop := by
  cases h with
  | plain h hset => exact Nat.lt_succ_self i
  | escape h => exact h.lt

theorem sound (h : Stands vocabulary text set i f escaped) : Sound f.nodes := by
  cases h with
  | plain h hset => exact Leaves.nil.sound
  | escape h => exact .node h.leaves.sound (by decide)

/-- It is the only one of the two forms of a character. -/
theorem chooses (h : Stands vocabulary text set i f escaped)
    (hslash : set.contains .standard '\\' = false) :
    Chooses text (contentOf set) i (some f) := by
  cases h with
  | plain h hset =>
    have hget : text[i]? ≠ some '\\' := fun hget => by
      rw [Option.some.inj (h.symm.trans hget), hslash] at hset
      cases hset
    exact .one_of ((Among.nil.only (.char h hset)).skip (no_construct escape_category hget))
  | @escape children stop escaped h =>
    have hnone : Chooses text (.char set) i none := .not_char (Text.only_at h.opens hslash)
    have hread : Reads text [category "escape"] i
        (some ⟨stop, [categoryNode "escape" i stop children]⟩) := .last (.once rfl h.step)
    exact .one_of ((Among.nil.skip hnone).only (.sequence hread))

end Stands

/-- Neither an escape nor a character of the set begins there. -/
theorem no_content {set : CharSet}
    (h : ∀ x, text[i]? = some x → x ≠ '\\' ∧ set.contains .standard x = false) :
    Chooses text (contentOf set) i none := by
  refine .one_of ((Among.nil.skip (.not_char fun x hx => (h x hx).2)).skip ?_)
  exact no_construct escape_category fun hget => (h _ hget).1 rfl

end TextGrammar.Pattern
