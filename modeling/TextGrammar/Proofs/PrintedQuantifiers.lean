/-
Quantifiers in pattern form. After a letter a quantifier is read back as it was
written; of all that digits between braces may say, exactly the counts of 64
bits with the lower bound not above the upper one are read, and everything else
is malformed.
-/
import TextGrammar.Proofs.PatternCharacters
import TextGrammar.Proofs.PatternComposition
import Mathlib.Data.List.TakeWhile

namespace TextGrammar

namespace Pattern

open Inlay (Sound signs elementKey_of_get)

variable {vocabulary : Vocabulary} {text : Text} {i j : Nat} {cs rest : List Char}

/-! ## Counts -/

/-- The number that decimal digits stand for. -/
def decimalValue (s : String) : Nat := Nat.ofDigitChars 10 s.toList 0

theorem digit_of_isDigit {c : Char} (h : c.isDigit = true) :
    digit? 10 c = some (c.toNat - '0'.toNat) := by
  have hrange : (decide ('0' ≤ c) && decide (c ≤ '9')) = true := h
  have hnine : c.toNat ≤ '9'.toNat := of_decide_eq_true (Bool.and_eq_true_iff.mp h).2
  have hlt : c.toNat - '0'.toNat < 10 := by
    have hvalue : '9'.toNat = '0'.toNat + 9 := rfl
    omega
  simp only [digit?, hrange, if_true, hlt]

theorem digitsAfter_of_digits (h : ∀ c ∈ cs, c.isDigit = true) (high : Nat) :
    digitsAfter? 10 high cs = some (Nat.ofDigitChars 10 cs high) := by
  induction cs generalizing high with
  | nil => rfl
  | cons c cs ih =>
    obtain ⟨hc, hcs⟩ := List.forall_mem_cons.mp h
    rw [digitsAfter?, digit_of_isDigit hc, Nat.ofDigitChars_cons, Nat.mul_comm 10]
    exact ih hcs _

/-- Digits are a count if there are any and their number has 64 bits. -/
theorem count_of_digits (h : ∀ c ∈ cs, c.isDigit = true) :
    count? cs = if cs ≠ [] ∧ Nat.ofDigitChars 10 cs 0 ≤ maxCount then
      some (Nat.ofDigitChars 10 cs 0) else none := by
  cases cs with
  | nil => rfl
  | cons c cs =>
    simp only [count?, number?, digitsAfter_of_digits h, ne_eq, reduceCtorEq, not_false_eq_true,
      true_and]

theorem count_toDigits {n : Nat} (h : n ≤ maxCount) : count? (Nat.toDigits 10 n) = some n := by
  have hdigits : ∀ c ∈ Nat.toDigits 10 n, c.isDigit = true := fun c hc =>
    Nat.isDigit_of_mem_toDigits (by decide) (by decide) hc
  have hvalue : Nat.ofDigitChars 10 (Nat.toDigits 10 n) 0 = n :=
    Nat.ofDigitChars_toDigits (by decide) (by decide)
  rw [count_of_digits hdigits, hvalue, if_pos ⟨Nat.toDigits_ne_nil, h⟩]

/-! ## Bounds in braces -/

theorem comma_of_digits (h : ∀ c ∈ cs, c.isDigit = true) : ∀ c ∈ cs, (c != ',') = true := by
  intro c hc
  refine bne_iff_ne.mpr ?_
  rintro rfl
  exact absurd (h _ hc) (by decide)

theorem bounds_count (h : ∀ c ∈ cs, c.isDigit = true) :
    bounds? cs = (count? cs).map .exactly := by
  have hcomma := comma_of_digits h
  simp only [bounds?, List.takeWhile_eq_self_iff.mpr hcomma, List.dropWhile_eq_nil_iff.mpr hcomma]

/-- Two bounds, of which one may be left out. -/
def boundsOf (lower upper : List Char) : Option Quantifier :=
  match lower, upper with
  | [], [] => none
  | _, [] => (count? lower).map fun n => ⟨n, none, .possessive⟩
  | [], _ => (count? upper).map fun m => ⟨0, some m, .possessive⟩
  | _, _ =>
    match count? lower, count? upper with
    | some n, some m => if n ≤ m then some ⟨n, some m, .possessive⟩ else none
    | _, _ => none

theorem boundsOf_lower (h : cs ≠ []) :
    boundsOf cs [] = (count? cs).map fun n => ⟨n, none, .possessive⟩ := by
  cases cs with
  | nil => exact absurd rfl h
  | cons c cs => rfl

theorem boundsOf_upper (h : cs ≠ []) :
    boundsOf [] cs = (count? cs).map fun m => ⟨0, some m, .possessive⟩ := by
  cases cs with
  | nil => exact absurd rfl h
  | cons c cs => rfl

theorem boundsOf_both {ds : List Char} (h : cs ≠ []) (h' : ds ≠ []) :
    boundsOf cs ds = (count? cs).bind fun n => (count? ds).bind fun m =>
      if n ≤ m then some ⟨n, some m, .possessive⟩ else none := by
  cases cs with
  | nil => exact absurd rfl h
  | cons c cs =>
    cases ds with
    | nil => exact absurd rfl h'
    | cons d ds =>
      show (match count? (c :: cs), count? (d :: ds) with
        | some n, some m => if n ≤ m then some (Quantifier.mk n (some m) .possessive) else none
        | _, _ => none) = _
      cases count? (c :: cs) with
      | none => rfl
      | some n => cases count? (d :: ds) <;> rfl

theorem bounds_comma (h : ∀ c ∈ cs, c.isDigit = true) (upper : List Char) :
    bounds? (cs ++ ',' :: upper) = boundsOf cs upper := by
  have hcomma := comma_of_digits h
  have hstop : (',' != ',') = false := rfl
  simp only [bounds?, List.takeWhile_append_of_pos hcomma, List.dropWhile_append_of_pos hcomma,
    List.takeWhile_cons, List.dropWhile_cons, hstop, Bool.false_eq_true, if_false, List.append_nil]
  rfl

/-- Bounds by themselves never give a repeat back. -/
theorem bounds_possessive {inner : List Char} {q : Quantifier} (h : bounds? inner = some q) :
    q.greediness = .possessive := by
  have hmap {count : Option Nat} {f : Nat → Quantifier}
      (hf : ∀ n, (f n).greediness = .possessive) (h : count.map f = some q) :
      q.greediness = .possessive := by
    obtain ⟨n, -, rfl⟩ := Option.map_eq_some_iff.mp h
    exact hf n
  unfold bounds? at h
  dsimp only at h
  split at h
  · exact hmap (fun _ => rfl) h
  · split at h
    · cases h
    · exact hmap (fun _ => rfl) h
    · exact hmap (fun _ => rfl) h
    · split at h
      · split at h
        · cases h
          rfl
        · cases h
      · cases h

/-! ## Quantifiers in a text -/

/-- The signs of quantifiers, and bounds. -/
def signChoices : List Checker := [.single '?', .single '*', .single '+', .single '^', bounds]

theorem quantifier_category : category? "quantifier" = some (Builtin.constant "quantifier"
    (.sequence [.ofChecker (.oneOf signChoices none),
      optional ((Entry.ofChecker (.char (.ofString "+*"))).named "greed")])) := rfl

/-- Written bounds without a sign of greediness: a sign, or digits in braces. -/
inductive Base : List Char → Prop
  | sign {c : Char} (h : c ∈ ['?', '*', '+', '^']) : Base [c]
  | count {ds : List Char} (h : ∀ c ∈ ds, c.isDigit = true) : Base ('\x7b' :: (ds ++ ['\x7d']))
  | bounds {ds ds' : List Char} (h : ∀ c ∈ ds, c.isDigit = true)
    (h' : ∀ c ∈ ds', c.isDigit = true) :
    Base ('\x7b' :: ((ds ++ ',' :: ds') ++ ['\x7d']))

theorem Base.begins {base : List Char} (h : Base base) : ∃ x cs, x ∈ signs ∧ base = x :: cs := by
  cases h with
  | @sign c hc =>
    have hsigns : ∀ c ∈ ['?', '*', '+', '^'], c ∈ signs := List.all_iff_forall_prop.mp (by decide)
    exact ⟨c, [], hsigns c hc, rfl⟩
  | count => exact ⟨_, _, by decide, rfl⟩
  | bounds => exact ⟨_, _, by decide, rfl⟩

/-- Digits of a bound, up to what follows them. -/
theorem read_digits {next : Char} (h : ∀ c ∈ cs, c.isDigit = true)
    (hleft : text.LeftAt i (cs ++ next :: rest)) (hend : next.isDigit = false) :
    ∃ nodes, Repeats text (many (.ofChecker (.char (.between '0' '9')))) 0 i
      (some ⟨i + cs.length, nodes⟩) ∧ Leaves nodes := by
  have hentry : (many (.ofChecker (.char (.between '0' '9')))).MatchedBy patternTypes none
      (.char (.range '0' '9')) := (Entry.MatchedBy.ofChecker _).quantified rfl
  exact read_many hentry rfl rfl rfl h hleft hend

/-- What bounds in braces are found as. -/
def bareBounds : List Entry :=
  let digits := many (.ofChecker (.char (.between '0' '9')))
  [digits, optional (group [char ',', digits]), char '\x7d']

/-- The sign or the bounds that the first character tells. -/
theorem choose_sign {x : Char} {k : Nat} {c : Checker} {f : Found} (hget : text[i]? = some x)
    (hk : signs.idxOf x = k) (hc : signChoices[k]? = some c) (h : Chooses text c i (some f)) :
    Chooses text (.oneOf signChoices none) i (some f) := by
  refine .one_of (.sole hc h fun k' hne c' hc' => ?_)
  have hother {y : Char} (hy : signs.idxOf y = k') : text[i]? ≠ some y := fun hget' => hne <| by
    rw [← hy, ← hk, Option.some.inj (hget.symm.trans hget')]
  have hsingle {y : Char} (hy : signs.idxOf y = k') : Chooses text (.single y) i none :=
    .not_char fun z hz => beq_false_of_ne fun heq => hother hy (heq ▸ hz)
  rcases k' with _ | _ | _ | _ | _ | k' <;> cases hc'
  · exact hsingle (by decide)
  · exact hsingle (by decide)
  · exact hsingle (by decide)
  · exact hsingle (by decide)
  · exact .stuck (.stuck (not_char (hother (by decide))))

/-- Bounds are found up to their closing brace. -/
theorem bounds_found {inner : List Char}
    (hleft : text.LeftAt i ('\x7b' :: (inner ++ '\x7d' :: rest)))
    (h : ∃ nodes, Reads text bareBounds (i + 1) (some ⟨i + 1 + inner.length + 1, nodes⟩) ∧
      Leaves nodes) :
    ∃ f, Chooses text (.oneOf signChoices none) i (some f) ∧
      f.stop = i + ('\x7b' :: (inner ++ ['\x7d'])).length ∧ Leaves f.nodes ∧
      (f.built = false → f.nodes = []) := by
  obtain ⟨nodes, hread, hnodes⟩ := h
  have hbounds : Chooses text bounds i
      (some ⟨i + 1 + inner.length + 1, [.leaf i (i + 1)] ++ nodes, true⟩) :=
    .sequence (.cons (read_char hleft.get) (.last (.once rfl (.at_once (.ofChecker _) rfl
      (.among (.only .nil (.sequence hread)))))))
  refine ⟨_, choose_sign (k := 4) hleft.get (by decide) rfl hbounds, ?_,
    (Leaves.leaf _ _).append hnodes, by rintro ⟨⟩⟩
  simp only [List.length_cons, List.length_append, List.length_nil]
  omega

theorem Base.found {base : List Char} (h : Base base) (hleft : text.LeftAt i (base ++ rest)) :
    ∃ f, Chooses text (.oneOf signChoices none) i (some f) ∧ f.stop = i + base.length ∧
      Leaves f.nodes ∧ (f.built = false → f.nodes = []) := by
  cases h with
  | @sign c hc =>
    have hget := hleft.get
    have hsign {k : Nat} (hk : signs.idxOf c = k) (hsingle : signChoices[k]? = some (.single c)) :
        ∃ f, Chooses text (.oneOf signChoices none) i (some f) ∧ f.stop = i + [c].length ∧
          Leaves f.nodes ∧ (f.built = false → f.nodes = []) :=
      ⟨_, choose_sign hget hk hsingle (.char hget (beq_self_eq_true c)), rfl, .nil, fun _ => rfl⟩
    simp only [List.mem_cons, List.not_mem_nil, or_false] at hc
    rcases hc with rfl | rfl | rfl | rfl
    · exact hsign (k := 0) (by decide) rfl
    · exact hsign (k := 1) (by decide) rfl
    · exact hsign (k := 2) (by decide) rfl
    · exact hsign (k := 3) (by decide) rfl
  | @count ds hds =>
    rw [List.cons_append, List.append_assoc, List.singleton_append] at hleft
    refine bounds_found hleft ?_
    obtain ⟨nodes, hdigits, hnodes⟩ := read_digits hds hleft.next rfl
    have hclose := hleft.next.skip.get
    have hnone : Repeats text (optional (group [char ',', many (.ofChecker (.char
        (.between '0' '9')))])) 0 (i + 1 + ds.length) (some ⟨i + 1 + ds.length, []⟩) :=
      .once rfl (.group ((Entry.MatchedBy.ofChecker _).quantified rfl) rfl
        (.stuck (not_char (by rw [hclose]; decide))))
    exact ⟨_, .cons hdigits (.cons hnone (.last (read_char hclose))), hnodes.append
      (Leaves.nil.append (.leaf _ _))⟩
  | @bounds ds ds' hds hds' =>
    rw [List.cons_append, List.append_assoc, List.singleton_append] at hleft
    refine bounds_found hleft ?_
    rw [List.append_assoc, List.cons_append] at hleft
    obtain ⟨nodes, hdigits, hnodes⟩ := read_digits hds hleft.next rfl
    have hcomma := hleft.next.skip
    obtain ⟨nodes', hdigits', hnodes'⟩ := read_digits hds' hcomma.next rfl
    have hclose := hcomma.next.skip.get
    have hupper : Repeats text (optional (group [char ',', many (.ofChecker (.char
        (.between '0' '9')))])) 0 (i + 1 + ds.length)
        (some ⟨i + 1 + ds.length + 1 + ds'.length, _⟩) :=
      .once rfl (.group ((Entry.MatchedBy.ofChecker _).quantified rfl) rfl
        (.cons (read_char hcomma.get) (.last hdigits')))
    have hread : Reads text bareBounds (i + 1) (some ⟨i + 1 + ds.length + 1 + ds'.length + 1, _⟩) :=
      .cons hdigits (.cons hupper (.last (read_char hclose)))
    have hlength : i + 1 + (ds ++ ',' :: ds').length + 1 =
        i + 1 + ds.length + 1 + ds'.length + 1 := by
      rw [List.length_append, List.length_cons]
      omega
    rw [hlength]
    exact ⟨_, hread, hnodes.append (((Leaves.leaf _ _).append hnodes').append (.leaf _ _))⟩

/-- The node of a sign of greediness, where there is one. -/
def greedNodes : Greediness → Nat → List Node
  | .possessive, _ => []
  | .maximum, j | .minimum, j => [⟨some "greed", none, none, j, j + 1, []⟩]

/-- There are no errors in a quantifier. -/
theorem sound_quantifier (i stop j : Nat) (g : Greediness) {nodes : List Node} (h : Leaves nodes) :
    Sound [categoryNode "quantifier" i stop (nodes ++ greedNodes g j)] := by
  have hgreed : Sound (greedNodes g j) := by
    cases g with
    | possessive => exact Leaves.nil.sound
    | maximum => exact .node Leaves.nil.sound (by decide)
    | minimum => exact .node Leaves.nil.sound (by decide)
  exact .node (AllNodes.append_iff.mpr ⟨h.sound, hgreed⟩) (by decide)

/-- What follows does not begin with a sign of greediness. -/
def Ungreedy (cs : List Char) : Prop := ∀ c, cs.head? = some c → c ≠ '+' ∧ c ≠ '*'

theorem Ungreedy.nil : Ungreedy [] := fun _ h => by cases h

/-- Bounds and a sign of greediness, before anything but another such sign. -/
theorem quantifier_found {base : List Char} (h : Base base) (g : Greediness)
    (hleft : text.LeftAt i (base ++ ((Quantifier.displayGreediness g).toList ++ rest)))
    (hrest : Ungreedy rest) :
    ∃ nodes, Repeats text (optional (category "quantifier")) 0 i
      (some ⟨i + base.length + (Quantifier.displayGreediness g).toList.length,
        [categoryNode "quantifier" i
          (i + base.length + (Quantifier.displayGreediness g).toList.length)
          (nodes ++ greedNodes g (i + base.length))]⟩) ∧ Leaves nodes := by
  obtain ⟨f, hchosen, hstop, hleaves, hbuilt⟩ := h.found hleft
  have hbase : Repeats text (.ofChecker (.oneOf signChoices none)) 0 i
      (some ⟨i + base.length, (Entry.ofChecker (.oneOf signChoices none)).nodesOf i f none⟩) := by
    rw [← hstop]
    exact .once rfl (.at_once (.ofChecker _) rfl hchosen)
  have hentry : (optional ((Entry.ofChecker (.char (.ofString "+*"))).named "greed")).MatchedBy
      patternTypes none (.char (.ofString "+*")) :=
    ((Entry.MatchedBy.ofChecker _).named "greed").quantified rfl
  have hgreed : Repeats text (optional ((Entry.ofChecker (.char (.ofString "+*"))).named "greed"))
      0 (i + base.length)
      (some ⟨i + base.length + (Quantifier.displayGreediness g).toList.length,
        greedNodes g (i + base.length)⟩) := by
    have hnext := hleft.skip
    cases g with
    | possessive =>
      refine .once rfl (.not_char hentry fun x hx => ?_)
      obtain ⟨hplus, hstar⟩ := hrest x (hnext.head.symm.trans hx)
      rw [show CharSet.ofString "+*" = .members ['*', '+'] from rfl]
      simp [CharSet.contains, hplus, hstar]
    | maximum => exact .once rfl (.char hentry hnext.get rfl)
    | minimum => exact .once rfl (.char hentry hnext.get rfl)
  have hmatched : (optional (category "quantifier")).MatchedBy patternTypes
      (some ⟨Builtin.constant "quantifier" quantifier, none⟩) (.sequence
        [.ofChecker (.oneOf signChoices none),
          optional ((Entry.ofChecker (.char (.ofString "+*"))).named "greed")]) :=
    (category_matched quantifier_category).quantified rfl
  exact ⟨_, .once rfl (.grammar hmatched (.cons hbase (.last hgreed))),
    Leaves.nodesOf (.ofChecker (.oneOf signChoices none)) rfl hleaves hbuilt⟩

/-! ## Reading quantifiers -/

theorem Leaves.names {nodes : List Node} (h : Leaves nodes) : ∀ node ∈ nodes, node.name = none := by
  intro node hnode
  obtain ⟨start, stop, rfl⟩ := h node hnode
  rfl

/-- The first child that meets a condition. -/
theorem first_child {ref : NodeRef} {nodes later : List Node} {node : Node} {p : Node → Bool}
    (hchildren : ref.node.children = nodes ++ node :: later)
    (hnodes : ∀ node ∈ nodes, p node = false) (hnode : p node = true) :
    ref.children.find? (fun child => p child.node) = some ⟨ref.text, node, nodes.length⟩ := by
  have hbefore : (nodes.zipIdx.map fun entry => NodeRef.mk ref.text entry.1 entry.2).find?
      (fun child => p child.node) = none := by
    refine List.find?_eq_none.mpr fun child hchild => ?_
    obtain ⟨⟨node, index⟩, hmem, rfl⟩ := List.mem_map.mp hchild
    exact ne_true_of_eq_false (hnodes node (List.fst_mem_of_mem_zipIdx hmem))
  have hall : ref.children =
      ref.node.children.zipIdx.map fun entry => NodeRef.mk ref.text entry.1 entry.2 := rfl
  rw [hall, hchildren, List.zipIdx_append, List.map_append, List.find?_append, hbefore,
    Option.none_or]
  simp [hnode]

/-- The last child is the first one of its name if no other has a name. -/
theorem child_last {ref : NodeRef} {nodes : List Node} {node : Node} {name : String}
    (hchildren : ref.node.children = nodes ++ [node]) (hnodes : ∀ node ∈ nodes, node.name = none)
    (hname : node.name = some name) :
    ref.child? name = some ⟨ref.text, node, nodes.length⟩ :=
  first_child (p := fun node => node.name == some name) hchildren
    (fun node hnode => by rw [hnodes node hnode]; rfl) (beq_iff_eq.mpr hname)

section

variable {base : List Char} {g : Greediness} {nodes : List Node} {stop index : Nat}

/-- A quantifier as a node of a pattern. -/
def quantifierRef (text : Text) (i stop j : Nat) (nodes : List Node) (g : Greediness)
    (index : Nat) : NodeRef :=
  ⟨text, categoryNode "quantifier" i stop (nodes ++ greedNodes g j), index⟩

theorem quantifierRef_chars (j : Nat) (nodes : List Node) (index : Nat)
    (hleft : text.LeftAt i (base ++ ((Quantifier.displayGreediness g).toList ++ rest)))
    (hstop : stop = i + base.length + (Quantifier.displayGreediness g).toList.length) :
    (quantifierRef text i stop j nodes g index).chars.toList =
      base ++ (Quantifier.displayGreediness g).toList := by
  rw [← List.append_assoc] at hleft
  have hslice := hleft.slice
  rw [List.length_append, ← Nat.add_assoc, ← hstop] at hslice
  exact hslice

theorem length_displayGreediness (hg : g ≠ .possessive) :
    (Quantifier.displayGreediness g).toList.length = 1 := by
  cases g with
  | possessive => exact absurd rfl hg
  | maximum => rfl
  | minimum => rfl

/-- Without a sign of greediness there is no node of one. -/
theorem child_unsigned (hnodes : Leaves nodes) :
    (quantifierRef text i stop j nodes .possessive index).child? "greed" = none := by
  refine no_child (fun node hnode => hnodes.names node ?_) "greed"
  exact (List.append_nil nodes) ▸ hnode

/-- A sign of greediness is a node of one character. -/
theorem child_signed (stop index : Nat) (hnodes : Leaves nodes)
    (hleft : text.LeftAt i (base ++ ((Quantifier.displayGreediness g).toList ++ rest)))
    (hg : g ≠ .possessive) :
    ∃ sign, (quantifierRef text i stop (i + base.length) nodes g index).child? "greed" = some sign ∧
      sign.node.length = 1 ∧ sign.string = Quantifier.displayGreediness g := by
  have hsign : ∃ node, greedNodes g (i + base.length) = [node] ∧ node.name = some "greed" ∧
      node.start = i + base.length ∧ node.stop = i + base.length + 1 := by
    cases g with
    | possessive => exact absurd rfl hg
    | maximum => exact ⟨_, rfl, rfl, rfl, rfl⟩
    | minimum => exact ⟨_, rfl, rfl, rfl, rfl⟩
  obtain ⟨node, hnode, hname, hstart, hstop⟩ := hsign
  refine ⟨_, child_last (congrArg (nodes ++ ·) hnode) hnodes.names hname, ?_, ?_⟩
  · rw [Node.length, hstart, hstop, Nat.add_sub_cancel_left]
  · have hlength := length_displayGreediness hg
    have hslice := hleft.skip.slice
    rw [hlength, ← hstart, show node.start + 1 = node.stop by rw [hstart, hstop]] at hslice
    show String.ofList (text.slice node.start node.stop).toList = _
    rw [hslice, String.ofList_toList]

/-- Bounds that can be read are the quantifier, with the greediness that the sign tells. -/
theorem readQuantifier_some (hnodes : Leaves nodes)
    (hleft : text.LeftAt i (base ++ ((Quantifier.displayGreediness g).toList ++ rest)))
    (hstop : stop = i + base.length + (Quantifier.displayGreediness g).toList.length)
    {q : Quantifier} (hbase : bareQuantifier? base = some (q.withGreediness .possessive))
    (hgreed : q.greediness = g) (hzero : q.isZero = true → g = .possessive) :
    readQuantifier (quantifierRef text i stop (i + base.length) nodes g index) = .ok q := by
  have hchars := quantifierRef_chars (i + base.length) nodes index hleft hstop
  by_cases hg : g = .possessive
  · subst hg
    have hbare : base ++ (Quantifier.displayGreediness .possessive).toList = base :=
      List.append_nil base
    simp only [readQuantifier, hchars, child_unsigned hnodes, hbare, Nat.sub_zero, List.take_length,
      hbase]
    rw [Quantifier.withGreediness, ← hgreed]
  · obtain ⟨sign, hchild, hwidth, hstring⟩ := child_signed stop index hnodes hleft hg
    have hnonzero : (q.withGreediness .possessive).isZero = false :=
      eq_false_of_ne_true fun h => hg (hzero h)
    have hlength := length_displayGreediness hg
    simp only [readQuantifier, hchars, hchild, hwidth, List.length_append, hlength,
      Nat.add_sub_cancel, List.take_left, hbase, hnonzero, hstring]
    obtain ⟨lower, upper, greediness⟩ := q
    obtain rfl : greediness = g := hgreed
    cases greediness with
    | possessive => exact absurd rfl hg
    | maximum => rfl
    | minimum => rfl

/-- Bounds that cannot be read are malformed. -/
theorem readQuantifier_none (hnodes : Leaves nodes) (hleft : text.LeftAt i base)
    (hstop : stop = i + base.length) (hbase : bareQuantifier? base = none) :
    readQuantifier (quantifierRef text i stop (i + base.length) nodes .possessive index) =
      .error (.malformedAt "Malformed quantifier" text i) := by
  have hbare : base ++ (Quantifier.displayGreediness .possessive).toList = base :=
    List.append_nil base
  have hsigns : text.LeftAt i
      (base ++ ((Quantifier.displayGreediness .possessive).toList ++ [])) := by
    rwa [List.append_nil, hbare]
  have hchars : (quantifierRef text i stop (i + base.length) nodes .possessive index).chars.toList =
      base ++ (Quantifier.displayGreediness .possessive).toList :=
    quantifierRef_chars _ _ _ hsigns hstop
  simp only [readQuantifier, hchars, child_unsigned hnodes, hbare, Nat.sub_zero, List.take_length,
    hbase]
  rfl

end

/-! ## A letter with a quantifier -/

/-- A letter and its quantifier are read to one piece. -/
theorem readPieces_letter {nodes : List Node} {stop : Nat} {g : Greediness}
    (hleft : text.LeftAt 0 ('x' :: rest)) :
    readPieces vocabulary text [categoryNode "item" 0 stop
        [.leaf 0 1, (quantifierRef text 1 stop j nodes g 1).node]] =
      (readQuantifier (quantifierRef text 1 stop j nodes g 1)).map fun q =>
        [literalPiece ['x'] q] := by
  have hread : readPieces vocabulary text [categoryNode "item" 0 stop
      [.leaf 0 1, (quantifierRef text 1 stop j nodes g 1).node]] =
        (readQuantifier (quantifierRef text 1 stop j nodes g 1) >>= fun q =>
          readElement vocabulary (inText text (.leaf 0 1)) q >>= fun piece =>
            Except.ok [] >>= fun pieces => pure (piece :: pieces)) := rfl
  have hchars : (inText text (.leaf 0 1)).chars.toList = ['x'] := by
    rw [← List.singleton_append] at hleft
    exact hleft.slice
  have helement (q : Quantifier) : readElement vocabulary (inText text (.leaf 0 1)) q =
      .ok (literalPiece ['x'] q) := by
    show (let chars := (inText text (.leaf 0 1)).chars.toList
      if chars == ['.'] then pure (.entry (dotEntry q)) else pure (literalPiece chars q)) = _
    rw [hchars]
    rfl
  simp only [hread, helement]
  cases readQuantifier (quantifierRef text 1 stop j nodes g 1) <;> rfl

theorem compile_letter_quantified (vocabulary : Vocabulary) {pattern : String} {base : List Char}
    (hbase : Base base) (g : Greediness)
    (hpattern : pattern.toList = 'x' :: (base ++ (Quantifier.displayGreediness g).toList)) :
    ∃ stop nodes, stop = 1 + base.length + (Quantifier.displayGreediness g).toList.length ∧
      Leaves nodes ∧ Grammar.compile vocabulary pattern =
        (readQuantifier (quantifierRef (Text.ofString pattern) 1 stop (1 + base.length) nodes g
          1)).map fun q => ⟨entriesOf [] [literalPiece ['x'] q]⟩ := by
  let text := Text.ofString pattern
  have hleft : text.LeftAt 0 ('x' :: (base ++ (Quantifier.displayGreediness g).toList)) :=
    hpattern ▸ Text.LeftAt.ofString pattern
  let stop := 1 + base.length + (Quantifier.displayGreediness g).toList.length
  have hsigns : text.LeftAt 1 (base ++ ((Quantifier.displayGreediness g).toList ++ [])) := by
    rw [List.append_nil]
    exact hleft.next
  obtain ⟨nodes, hquantifier, hnodes⟩ := quantifier_found hbase g hsigns .nil
  have hsize : stop = text.size := by
    have hlength := hleft.size (Nat.zero_le _)
    simp only [List.length_cons, List.length_append] at hlength
    omega
  have helement : Chooses text (.oneOf elements none) 0 (some ⟨1, [], false⟩) :=
    choose_element (k := 7) (elementKey_of_get hleft.get) rfl (.char hleft.get (by rfl))
  have hitem : Steps text (category "item") 0 ⟨stop, [categoryNode "item" 0 stop
      [.leaf 0 1, (quantifierRef text 1 stop (1 + base.length) nodes g 1).node]]⟩ :=
    item_step helement hquantifier
  have hsound : Sound [.leaf 0 1, (quantifierRef text 1 stop (1 + base.length) nodes g 1).node] :=
    AllNodes.cons_iff.mpr ⟨Sound.leaf 0 1, sound_quantifier 1 stop _ g hnodes⟩
  refine ⟨stop, nodes, rfl, hnodes, ?_⟩
  rw [compile_item hleft.get (by decide) hitem hsize (.node hsound (by decide)),
    readPieces_letter hleft]
  cases readQuantifier (quantifierRef text 1 stop (1 + base.length) nodes g 1) <;> rfl

/-- A letter with bounds that can be read is repeated as they say. -/
theorem compile_letter_some (vocabulary : Vocabulary) {pattern : String} {base : List Char}
    (hbase : Base base) {q : Quantifier} (hpattern : pattern.toList =
      'x' :: (base ++ (Quantifier.displayGreediness q.greediness).toList))
    (hbare : bareQuantifier? base = some (q.withGreediness .possessive))
    (hzero : q.isZero = true → q.greediness = .possessive) :
    Grammar.compile vocabulary pattern = .ok ⟨entriesOf [] [literalPiece ['x'] q]⟩ := by
  obtain ⟨stop, nodes, hstop, hnodes, hcompile⟩ :=
    compile_letter_quantified vocabulary hbase q.greediness hpattern
  have hleft : (Text.ofString pattern).LeftAt 0
      ('x' :: (base ++ (Quantifier.displayGreediness q.greediness).toList)) :=
    hpattern ▸ Text.LeftAt.ofString pattern
  have hsigns : (Text.ofString pattern).LeftAt 1
      (base ++ ((Quantifier.displayGreediness q.greediness).toList ++ [])) := by
    rw [List.append_nil]
    exact hleft.next
  rw [hcompile, readQuantifier_some hnodes hsigns hstop hbare rfl hzero]
  rfl

/-- Bounds that cannot be read are malformed where they begin. -/
theorem compile_letter_none (vocabulary : Vocabulary) {pattern : String} {base : List Char}
    (hbase : Base base) (hpattern : pattern.toList = 'x' :: base)
    (hbare : bareQuantifier? base = none) :
    Grammar.compile vocabulary pattern =
      .error (.malformedAt "Malformed quantifier" (Text.ofString pattern) 1) := by
  obtain ⟨stop, nodes, hstop, hnodes, hcompile⟩ :=
    compile_letter_quantified vocabulary hbase .possessive
      (hpattern.trans (congrArg ('x' :: ·) (List.append_nil base).symm))
  have hleft : (Text.ofString pattern).LeftAt 0 ('x' :: base) :=
    hpattern ▸ Text.LeftAt.ofString pattern
  rw [hcompile, readQuantifier_none hnodes hleft.next hstop hbare]
  rfl

/-! ## Quantifiers as they are written -/

theorem bareQuantifier_braces (inner : List Char) :
    bareQuantifier? ('\x7b' :: (inner ++ ['\x7d'])) = bounds? inner := by
  simp [bareQuantifier?]

theorem isDigit_toDigits (n : Nat) : ∀ c ∈ Nat.toDigits 10 n, c.isDigit = true := fun _ hc =>
  Nat.isDigit_of_mem_toDigits (by decide) (by decide) hc

/-- The bounds of a quantifier of 64 bits are written so that they are read back. -/
theorem bareQuantifier_displayBounds {q : Quantifier} (hlower : q.lower ≤ maxCount)
    (hupper : ∀ m, q.upper = some m → m ≤ maxCount ∧ q.lower ≤ m) :
    Base q.displayBounds.toList ∧
      bareQuantifier? q.displayBounds.toList = some (q.withGreediness .possessive) := by
  obtain ⟨lower, upper, g⟩ := q
  unfold Quantifier.displayBounds
  dsimp only at *
  split
  · exact ⟨.sign (by decide), rfl⟩
  · exact ⟨.sign (by decide), rfl⟩
  · exact ⟨.sign (by decide), rfl⟩
  · exact ⟨.sign (by decide), rfl⟩
  · have hdisplay : ("\x7b" ++ toString lower ++ ",\x7d").toList =
        '\x7b' :: ((Nat.toDigits 10 lower ++ ',' :: []) ++ ['\x7d']) := by
      simp
    rw [hdisplay]
    refine ⟨.bounds (isDigit_toDigits lower) (by rintro _ ⟨⟩), ?_⟩
    rw [bareQuantifier_braces, bounds_comma (isDigit_toDigits lower),
      boundsOf_lower Nat.toDigits_ne_nil, count_toDigits hlower]
    rfl
  · next m _ _ =>
    have hdisplay : ("\x7b," ++ toString m ++ "\x7d").toList =
        '\x7b' :: (([] ++ ',' :: Nat.toDigits 10 m) ++ ['\x7d']) := by
      simp
    rw [hdisplay]
    refine ⟨.bounds (by rintro _ ⟨⟩) (isDigit_toDigits m), ?_⟩
    rw [bareQuantifier_braces, bounds_comma (by rintro _ ⟨⟩),
      boundsOf_upper Nat.toDigits_ne_nil, count_toDigits (hupper m rfl).1]
    rfl
  · next m _ _ _ =>
    obtain ⟨hm, hle⟩ := hupper m rfl
    split
    · next heq =>
      obtain rfl := beq_iff_eq.mp heq
      have hdisplay : ("\x7b" ++ toString lower ++ "\x7d").toList =
          '\x7b' :: (Nat.toDigits 10 lower ++ ['\x7d']) := by
        simp
      rw [hdisplay]
      refine ⟨.count (isDigit_toDigits lower), ?_⟩
      rw [bareQuantifier_braces, bounds_count (isDigit_toDigits lower), count_toDigits hlower]
      rfl
    · have hdisplay : ("\x7b" ++ toString lower ++ "," ++ toString m ++ "\x7d").toList =
          '\x7b' :: ((Nat.toDigits 10 lower ++ ',' :: Nat.toDigits 10 m) ++ ['\x7d']) := by
        simp
      rw [hdisplay]
      refine ⟨.bounds (isDigit_toDigits lower) (isDigit_toDigits m), ?_⟩
      rw [bareQuantifier_braces, bounds_comma (isDigit_toDigits lower),
        boundsOf_both Nat.toDigits_ne_nil Nat.toDigits_ne_nil, count_toDigits hlower,
        count_toDigits hm, Option.bind_some, Option.bind_some, if_pos hle]
      rfl

/-- A quantifier that can be written, after a letter. -/
theorem compile_letter_display (vocabulary : Vocabulary) {q : Quantifier}
    (hlower : q.lower ≤ maxCount)
    (hupper : ∀ m, q.upper = some m → m ≤ maxCount ∧ q.lower ≤ m) (hone : q.isOne = false)
    (hzero : q.isZero = true → q.greediness = .possessive) :
    Grammar.compile vocabulary ("x" ++ q.display) =
      .ok ⟨[(Entry.ofChecker (.single 'x')).quantified q]⟩ := by
  obtain ⟨hbase, hbare⟩ := bareQuantifier_displayBounds hlower hupper
  have hdisplay : ("x" ++ q.display).toList = 'x' :: (q.displayBounds.toList ++
      (Quantifier.displayGreediness q.greediness).toList) := by
    rw [Quantifier.display, hone]
    simp
  rw [compile_letter_some vocabulary hbase hdisplay hbare hzero, literalPiece, hone]
  rfl

/-! ## Digits between braces -/

theorem bounds_count_isSome {ds : List Char} (h : ∀ c ∈ ds, c.isDigit = true) :
    (bounds? ds).isSome = true ↔ ds ≠ [] ∧ Nat.ofDigitChars 10 ds 0 ≤ maxCount := by
  rw [bounds_count h, count_of_digits h, Option.isSome_map, Option.isSome_ite]

theorem boundsOf_isSome {ds ds' : List Char} (h : ∀ c ∈ ds, c.isDigit = true)
    (h' : ∀ c ∈ ds', c.isDigit = true) : (boundsOf ds ds').isSome = true ↔
      (ds ≠ [] ∨ ds' ≠ []) ∧ (ds ≠ [] → Nat.ofDigitChars 10 ds 0 ≤ maxCount) ∧
      (ds' ≠ [] → Nat.ofDigitChars 10 ds' 0 ≤ maxCount) ∧
      (ds ≠ [] → ds' ≠ [] → Nat.ofDigitChars 10 ds 0 ≤ Nat.ofDigitChars 10 ds' 0) := by
  rcases eq_or_ne ds [] with rfl | hds
  · rcases eq_or_ne ds' [] with rfl | hds'
    · simp [boundsOf]
    · rw [boundsOf_upper hds', count_of_digits h']
      simp [hds']
  · rcases eq_or_ne ds' [] with rfl | hds'
    · rw [boundsOf_lower hds, count_of_digits h]
      simp [hds]
    · rw [boundsOf_both hds hds', count_of_digits h, count_of_digits h']
      by_cases hlower : Nat.ofDigitChars 10 ds 0 ≤ maxCount
      · by_cases hupper : Nat.ofDigitChars 10 ds' 0 ≤ maxCount
        · simp [hds, hds', hlower, hupper]
        · simp [hds, hds', hlower, hupper]
      · simp [hds, hds', hlower]

theorem ofDigitChars_le_maxCount {ds : List Char} :
    Nat.ofDigitChars 10 ds 0 ≤ maxCount ↔ Nat.ofDigitChars 10 ds 0 < 2 ^ 64 :=
  Nat.le_sub_one_iff_lt (by decide)

theorem toList_ne_nil {s : String} : s.toList ≠ [] ↔ s ≠ "" := not_congr String.toList_eq_nil_iff

/-- Whether bounds in braces can be read decides whether a letter with them compiles. -/
theorem compile_letter_braces (vocabulary : Vocabulary) {pattern : String} {inner : List Char}
    (hbase : Base ('\x7b' :: (inner ++ ['\x7d'])))
    (hpattern : pattern.toList = 'x' :: '\x7b' :: (inner ++ ['\x7d'])) :
    ((bounds? inner).isSome = true → ∃ g, Grammar.compile vocabulary pattern = .ok g) ∧
    (¬(bounds? inner).isSome = true → Grammar.compile vocabulary pattern =
      .error (.malformedAt "Malformed quantifier" (Text.ofString pattern) 1)) := by
  have hbare := bareQuantifier_braces inner
  refine ⟨fun hsome => ?_, fun hnone => ?_⟩
  · obtain ⟨q, hq⟩ := Option.isSome_iff_exists.mp hsome
    have hgreed := bounds_possessive hq
    have hsame : q.withGreediness .possessive = q := by rw [Quantifier.withGreediness, ← hgreed]
    refine ⟨_, compile_letter_some vocabulary hbase (q := q) ?_ ?_ fun _ => hgreed⟩
    · rw [hpattern, hgreed]
      exact congrArg ('x' :: ·) (List.append_nil _).symm
    · rw [hbare, hq, hsame]
  · exact compile_letter_none vocabulary hbase hpattern
      (hbare.trans (Option.not_isSome_iff_eq_none.mp hnone))

end Pattern

open Pattern

/-- The pattern of a letter and bounds in braces compiles just if the condition is met; otherwise
the quantifier is malformed, right after the letter. -/
def TypeRegistry.CompilesIf (registry : TypeRegistry) (pattern : String) (condition : Prop) :
    Prop :=
  (condition → ∃ g, registry.compile pattern = .ok g) ∧
  (¬condition → registry.compile pattern =
    .error (.malformedAt "Malformed quantifier" (Text.ofString pattern) 1))

theorem TypeRegistry.CompilesIf.congr {registry : TypeRegistry} {pattern : String}
    {condition condition' : Prop} (h : registry.CompilesIf pattern condition)
    (hiff : condition ↔ condition') : registry.CompilesIf pattern condition' :=
  ⟨fun hcondition => h.1 (hiff.mpr hcondition),
    fun hcondition => h.2 fun hmet => hcondition (hiff.mp hmet)⟩

/-- **Quantifiers are read as they are written.** A letter with a quantifier of 64 bits in pattern
form, other than once and possessive where it is never, compiles to the letter so repeated. Of
digits between braces a single count is read if there is one and it has 64 bits; of two with a
comma between them one may be left out, and if none is the first must not be above the second.
Everything else is a malformed quantifier. -/
theorem TypeRegistry.compile_quantifiers (registry : TypeRegistry) :
    (∀ q : Quantifier, q.lower < 2 ^ 64 → (∀ m, q.upper = some m → m < 2 ^ 64 ∧ q.lower ≤ m) →
      q.isOne = false → (q.isZero = true → q.greediness = .possessive) →
      registry.compile ("x" ++ q.display) =
        .ok ⟨[(Entry.ofChecker (.single 'x')).quantified q]⟩) ∧
    ∀ a b : String, (∀ c ∈ a.toList, c.isDigit = true) → (∀ c ∈ b.toList, c.isDigit = true) →
      registry.CompilesIf ("x\x7b" ++ a ++ "\x7d") (a ≠ "" ∧ decimalValue a < 2 ^ 64) ∧
      registry.CompilesIf ("x\x7b" ++ a ++ "," ++ b ++ "\x7d")
        ((a ≠ "" ∨ b ≠ "") ∧ (a ≠ "" → decimalValue a < 2 ^ 64) ∧
          (b ≠ "" → decimalValue b < 2 ^ 64) ∧
          (a ≠ "" → b ≠ "" → decimalValue a ≤ decimalValue b)) := by
  have hmax {n : Nat} (h : n < 2 ^ 64) : n ≤ maxCount := (Nat.le_sub_one_iff_lt (by decide)).mpr h
  refine ⟨fun q hlower hupper hone hzero => ?_, fun a b ha hb => ⟨?_, ?_⟩⟩
  · refine compile_letter_display registry.vocabulary (hmax hlower) (fun m hm => ?_) hone hzero
    exact ⟨hmax (hupper m hm).1, (hupper m hm).2⟩
  · have hcount := bounds_count_isSome ha
    rw [toList_ne_nil, ofDigitChars_le_maxCount] at hcount
    exact TypeRegistry.CompilesIf.congr (compile_letter_braces registry.vocabulary (.count ha)
      (by simp)) hcount
  · have hbounds := boundsOf_isSome ha hb
    simp only [toList_ne_nil, ofDigitChars_le_maxCount] at hbounds
    rw [← bounds_comma ha] at hbounds
    exact TypeRegistry.CompilesIf.congr (compile_letter_braces registry.vocabulary
      (.bounds ha hb) (by simp)) hbounds

/-- Bounds with a sign of greediness, the greatest count and one more, and bounds the wrong way. -/
theorem TypeRegistry.standard_compile_quantifiers :
    let q : Quantifier := ⟨2, some 5, .maximum⟩
    (q.lower < 2 ^ 64 ∧ (∀ m, q.upper = some m → m < 2 ^ 64 ∧ q.lower ≤ m) ∧ q.isOne = false ∧
      (q.isZero = true → q.greediness = .possessive) ∧
      TypeRegistry.standard.compile ("x" ++ q.display) =
        .ok ⟨[(Entry.ofChecker (.single 'x')).quantified q]⟩) ∧
    (∃ g, TypeRegistry.standard.compile "x\x7b18446744073709551615\x7d" = .ok g) ∧
    TypeRegistry.standard.compile "x\x7b18446744073709551616\x7d" = .error
      (.malformedAt "Malformed quantifier" (Text.ofString "x\x7b18446744073709551616\x7d") 1) ∧
    TypeRegistry.standard.compile "x\x7b12,3\x7d" =
      .error (.malformedAt "Malformed quantifier" (Text.ofString "x\x7b12,3\x7d") 1) := by
  obtain ⟨hdisplay, hbraces⟩ := TypeRegistry.standard.compile_quantifiers
  have hone : (⟨2, some 5, .maximum⟩ : Quantifier).isOne = false := rfl
  have hzero : (⟨2, some 5, .maximum⟩ : Quantifier).isZero = true →
      (⟨2, some 5, .maximum⟩ : Quantifier).greediness = .possessive := by rintro ⟨⟩
  have hupper : ∀ m, (⟨2, some 5, .maximum⟩ : Quantifier).upper = some m → m < 2 ^ 64 ∧ 2 ≤ m := by
    rintro m ⟨⟩
    decide
  have hdigits (a : String) (ha : a.toList.all Char.isDigit = true) :
      ∀ c ∈ a.toList, c.isDigit = true := List.all_eq_true.mp ha
  have hnone : ∀ c ∈ "".toList, c.isDigit = true := hdigits "" rfl
  refine ⟨⟨by decide, hupper, hone, hzero, hdisplay _ (by decide) hupper hone hzero⟩, ?_, ?_, ?_⟩
  · exact (hbraces "18446744073709551615" "" (hdigits _ (by decide)) hnone).1.1 (by decide)
  · exact (hbraces "18446744073709551616" "" (hdigits _ (by decide)) hnone).1.2 (by decide)
  · exact (hbraces "12" "3" (hdigits _ (by decide)) (hdigits _ (by decide))).2.2 (by decide)

end TextGrammar
