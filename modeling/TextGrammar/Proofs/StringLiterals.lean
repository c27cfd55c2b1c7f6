/-
String literals. Between its quotes a literal is a sequence of tokens: a character
other than a quote and a backslash, or a backslash and any one character. The
search finds the tokens one by one, and keeps each; the value is read by a loop
over the characters of the node. Both take the text apart in the same way: where
the tokens end, no other one begins.
-/
import TextGrammar.Proofs.PatternReading
import TextGrammar.Proofs.Texts
import TextGrammar.Proofs.WholeMatch

namespace TextGrammar

/-! ## Entries exactly once -/

section

variable {L : Type} [FailureLog L] {setting : Setting} {entry : Entry} {need steps offset : Nat}

/-- An entry that stands exactly once takes what one attempt takes. -/
theorem Entry.Repeats.single {m : Match} (hone : entry.quantifier = .one)
    (h : entry.Takes L setting need steps offset (some m)) :
    entry.Repeats L setting need (steps + 1) 0 offset (some m) := by
  have hempty : entry.quantifier.isFull 0 = false := by
    rw [hone]
    rfl
  have hfull : entry.quantifier.isFull 1 = true := by
    rw [hone]
    rfl
  by_cases hstop : m.stop = offset
  · exact fun rest =>
      (Entry.Repeats.stayed hempty h hstop rest).mono (Nat.le_refl _) (Nat.le_succ _)
  · have hmore := Entry.Repeats.more hempty h hstop (.full hfull)
    rw [Option.map_some, Match.after, List.append_nil] at hmore
    exact hmore

/-- An entry that stands exactly once gives up where the attempt does. -/
theorem Entry.Repeats.unmatched (hone : entry.quantifier = .one)
    (h : entry.Takes L setting need steps offset none) :
    entry.Repeats L setting need steps 0 offset none := by
  have hempty : entry.quantifier.isFull 0 = false := by
    rw [hone]
    rfl
  have hmissed := Entry.Repeats.missed hempty h
  rw [if_pos (by rw [hone]; exact Nat.one_pos)] at hmissed
  exact hmissed

/-- An entry at the end of a sequence. -/
theorem Entry.AllRead.last {found : Option Match}
    (h : entry.Repeats L setting need steps 0 offset found) :
    Entry.AllRead L setting need steps [entry] offset found := by
  cases found with
  | none => exact .stuck h
  | some m =>
    have hread := Entry.AllRead.cons h .nil
    rw [Option.map_some, Match.after, List.append_nil] at hread
    exact hread

/-- An entry with neither a grammar nor regions takes at once what its checker finds. -/
theorem Entry.Takes.direct {c : Checker} {use : Option TypeUse} {found : Option Found}
    (hentry : entry.MatchedBy setting.types use c) (hdirect : Pattern.isDirect c = true)
    (h : c.Takes L setting need offset found) :
    entry.Takes L setting need 1 offset
      (found.map fun f => ⟨f.stop, entry.nodesOf offset f use⟩) := by
  refine .at_once hentry ?_ ?_ h
  · rintro regions rfl
    cases hdirect
  · rintro g rfl
    cases hdirect

end

namespace Builtin

/-! ## Tokens -/

/-- What a string literal holds between its quotes. -/
inductive Token where
  | plain (c : Char) (h : c ≠ '"' ∧ c ≠ '\\')
  | escaped (c : Char)

namespace Token

/-- What is written. -/
def chars : Token → List Char
  | plain c _ => [c]
  | escaped c => ['\\', c]

/-- What is meant. -/
def decoded : Token → Char
  | plain c _ => c
  | escaped c => unescaped c

/-- The tokens between quotes. -/
def literal (tokens : List Token) : List Char := '"' :: (tokens.flatMap chars ++ ['"'])

/-- No token stands at the beginning. -/
def NoneFirst (cs : List Char) : Prop := ∀ (t : Token) (rest : List Char), cs ≠ t.chars ++ rest

theorem noneFirst_quote (rest : List Char) : NoneFirst ('"' :: rest) := by
  rintro (⟨c, h⟩ | c) more heq
  · exact h.1 (List.cons.inj heq).1.symm
  · cases (List.cons.inj heq).1

theorem length_chars_pos (t : Token) : 0 < t.chars.length := by
  cases t <;> exact Nat.succ_pos _

/-- Any text begins with tokens up to where there is none. -/
theorem exists_split (cs : List Char) :
    ∃ (tokens : List Token) (rest : List Char), cs = tokens.flatMap chars ++ rest ∧
      NoneFirst rest := by
  induction hlength : cs.length using Nat.strong_induction_on generalizing cs with
  | _ length ih =>
    by_cases hfirst : ∃ (t : Token) (rest : List Char), cs = t.chars ++ rest
    · obtain ⟨t, rest, rfl⟩ := hfirst
      have hshorter : rest.length < length := by
        have := t.length_chars_pos
        rw [List.length_append] at hlength
        omega
      obtain ⟨tokens, last, rfl, hlast⟩ := ih _ hshorter rest rfl
      exact ⟨t :: tokens, last, by rw [List.flatMap_cons, List.append_assoc], hlast⟩
    · exact ⟨[], cs, rfl, fun t rest heq => hfirst ⟨t, rest, heq⟩⟩

end Token

/-! ## Decoding -/

/-- The decoder of a literal, but for a backslash at the end, of which it makes nothing. -/
def unescape? : List Char → Option (List Char)
  | [] => some []
  | ['\\'] => none
  | '\\' :: c :: cs => (unescape? cs).map (unescaped c :: ·)
  | c :: cs => (unescape? cs).map (c :: ·)

theorem unescape_of_unescape? {cs ds : List Char} (h : unescape? cs = some ds) :
    unescape cs = ds := by
  induction cs using unescape?.induct generalizing ds with
  | case1 => exact Option.some.inj h
  | case2 => cases h
  | case3 c cs ih =>
    obtain ⟨later, hlater, rfl⟩ := Option.map_eq_some_iff.mp h
    rw [unescape, ih hlater]
  | case4 c cs hslash hpair ih =>
    rw [unescape?.eq_4 c cs hslash hpair] at h
    obtain ⟨later, hlater, rfl⟩ := Option.map_eq_some_iff.mp h
    rw [unescape.eq_4 c cs hslash hpair, ih hlater]

theorem unescape?_plain {c : Char} (hc : c ≠ '\\') (cs : List Char) :
    unescape? (c :: cs) = (unescape? cs).map (c :: ·) :=
  unescape?.eq_4 c cs (fun hslash _ => hc hslash) fun _ _ hslash _ => hc hslash

/-- Tokens are decoded one by one, and no backslash is left at the end. -/
theorem unescape?_tokens (tokens : List Token) :
    unescape? (tokens.flatMap Token.chars) = some (tokens.map Token.decoded) := by
  induction tokens with
  | nil => rfl
  | cons t tokens ih =>
    rw [List.flatMap_cons, List.map_cons]
    cases t with
    | plain c h =>
      change unescape? (c :: tokens.flatMap Token.chars) = _
      rw [unescape?_plain h.2, ih]
      rfl
    | escaped c =>
      change unescape? ('\\' :: c :: tokens.flatMap Token.chars) = _
      rw [unescape?, ih]
      rfl

/-! ## Recognition -/

/-- The entries of a backslash and the character after it. -/
def escapePair : List Entry := [singleEntry '\\', .ofChecker (.anyOf 1)]

/-- Any character but a quote and a backslash. -/
def plainSet : CharSet := .complement (.ofString "\"\\")

/-- The entry for the tokens of a literal. -/
def tokensEntry : Entry :=
  (Entry.ofChecker (.alternative [.sequence escapePair, .char plainSet])).quantified .zeroOrMore

theorem plainSet_contains {classes : CharClasses} {c : Char} :
    plainSet.contains classes c = true ↔ c ≠ '"' ∧ c ≠ '\\' := by
  have hset : plainSet = .compl (.members ['"', '\\']) := by decide
  rw [hset, CharSet.contains, CharSet.contains]
  simp [List.contains_eq_mem]

section

variable {L : Type} [FailureLog L] {setting : Setting} {need i : Nat} {cs rest : List Char}

/-- The character an entry stands for. -/
theorem singleEntry_reads {c : Char} (h : setting.text[i]? = some c) :
    (singleEntry c).Repeats L setting need 2 0 i (some ⟨i + 1, [.leaf i (i + 1)]⟩) := by
  have hset : (CharSet.single c).contains setting.types.classes c = true := beq_self_eq_true c
  have htakes : (Checker.single c).Takes L setting need i (some ⟨i + 1, [], false⟩) :=
    (Checker.Takes.char h hset).mono (Nat.zero_le _)
  exact .single rfl (.direct (.ofChecker _) rfl htakes)

/-- Any other character, or none. -/
theorem singleEntry_misses {c : Char} (h : setting.text[i]? ≠ some c) :
    (singleEntry c).Repeats L setting need 1 0 i none := by
  have htakes : (Checker.single c).Takes L setting need i none := by
    refine (Checker.Takes.not_char fun d hd => ?_).mono (Nat.zero_le _)
    exact beq_false_of_ne fun heq => h (heq ▸ hd)
  exact .unmatched rfl (.direct (.ofChecker _) rfl htakes)

/-- Any one character. -/
theorem anyEntry_reads (found : Option Nat)
    (h : Checker.anyLengthAt (some 1) setting.text i = found) :
    (Checker.anyOf 1).Takes L setting need i (found.map fun n => ⟨i + n, [], false⟩) := by
  subst h
  exact (Checker.Takes.of_length (by rintro _ ⟨⟩) (by rintro _ _ ⟨⟩) fun _ _ => rfl).mono
    (Nat.zero_le _)

/-- A backslash and a character after it are a pair. -/
theorem escapePair_reads {c : Char} (h : setting.text.LeftAt i ('\\' :: c :: rest)) :
    ∃ nodes, (Checker.sequence escapePair).Takes L setting 5 i (some ⟨i + 2, nodes, true⟩) := by
  have hroom : i + 1 + 1 ≤ setting.text.size := (Array.getElem?_eq_some_iff.mp h.next.get).1
  have hany : (Checker.anyOf 1).Takes L setting 0 (i + 1) (some ⟨i + 2, [], false⟩) :=
    anyEntry_reads (some 1) (if_pos hroom)
  have hpair : Entry.AllRead L setting 0 4 escapePair i (some ⟨i + 2, _⟩) :=
    .cons (singleEntry_reads h.get) (.last (.single rfl (.direct (.ofChecker _) rfl hany)))
  exact ⟨_, .grammar (g := ⟨escapePair⟩) hpair⟩

/-- A backslash at the end is not, nor is anything else. -/
theorem escapePair_misses (h : setting.text.LeftAt i cs) (hcs : ∀ c rest, cs ≠ '\\' :: c :: rest) :
    (Checker.sequence escapePair).Takes L setting 5 i none := by
  by_cases hslash : setting.text[i]? = some '\\'
  · have hend : ¬ i + 1 + 1 ≤ setting.text.size := by
      intro hroom
      have hget := h.head ▸ hslash
      obtain ⟨rest, rfl⟩ := List.head?_eq_some_iff.mp hget
      rcases rest with _ | ⟨c, rest⟩
      · have := h.size (by omega)
        rw [List.length_singleton] at this
        omega
      · exact hcs c rest rfl
    have hany : (Checker.anyOf 1).Takes L setting 0 (i + 1) none :=
      anyEntry_reads none (if_neg hend)
    have hpair : Entry.AllRead L setting 0 3 escapePair i none :=
      .cons (singleEntry_reads hslash)
        (.last (.unmatched rfl (.direct (.ofChecker _) rfl hany)))
    exact (Checker.Takes.grammar (g := ⟨escapePair⟩) hpair).mono (Nat.le_succ 4)
  · have hpair : Entry.AllRead L setting 0 1 escapePair i none := .stuck (singleEntry_misses hslash)
    exact (Checker.Takes.grammar (g := ⟨escapePair⟩) hpair).mono (Nat.le_add_left 2 3)

/-- What an attempt at a token comes to is what the choice between its two forms comes to. -/
theorem tokensEntry_takes {found : Option Found}
    (h : (Checker.alternative [.sequence escapePair, .char plainSet]).Takes L setting 5 i found) :
    tokensEntry.Takes L setting 5 1 i
      (found.map fun f => ⟨f.stop, tokensEntry.nodesOf i f none⟩) :=
  .direct ((Entry.MatchedBy.ofChecker _).quantified rfl) rfl h

/-- A token is taken. -/
theorem Token.taken (t : Token) (h : setting.text.LeftAt i (t.chars ++ rest)) :
    ∃ nodes, tokensEntry.Takes L setting 5 1 i (some ⟨i + t.chars.length, nodes⟩) := by
  cases t with
  | plain c hc =>
    have hhere : (Checker.char plainSet).Takes L setting 5 i (some ⟨i + 1, [], false⟩) :=
      (Checker.Takes.char h.get (plainSet_contains.mpr hc)).mono (Nat.zero_le _)
    have hother : (Checker.sequence escapePair).Takes L setting 5 i none :=
      escapePair_misses h fun _ _ heq => hc.2 (List.cons.inj heq).1
    exact ⟨_, tokensEntry_takes (.chosen (.cons (.cons .nil hhere) hother))⟩
  | escaped c =>
    have hother : (Checker.char plainSet).Takes L setting 5 i none := by
      refine (Checker.Takes.not_char fun d hd => ?_).mono (Nat.zero_le _)
      obtain rfl : '\\' = d := Option.some.inj (h.get.symm.trans hd)
      exact eq_false_of_ne_true fun hin => (plainSet_contains.mp hin).2 rfl
    obtain ⟨nodes, hhere⟩ := escapePair_reads (L := L) h
    exact ⟨_, tokensEntry_takes (.chosen (.cons (.cons .nil hother) hhere))⟩

/-- Where no token stands, none is taken. -/
theorem Token.NoneFirst.missed (h : setting.text.LeftAt i cs) (hcs : Token.NoneFirst cs) :
    tokensEntry.Takes L setting 5 1 i none := by
  have hplain : (Checker.char plainSet).Takes L setting 5 i none := by
    refine (Checker.Takes.not_char fun d hd => ?_).mono (Nat.zero_le _)
    obtain ⟨rest, rfl⟩ := List.head?_eq_some_iff.mp (h.head ▸ hd)
    exact eq_false_of_ne_true fun hin => hcs (.plain d (plainSet_contains.mp hin)) rest rfl
  have hescaped : (Checker.sequence escapePair).Takes L setting 5 i none :=
    escapePair_misses h fun c rest => hcs (.escaped c) rest
  exact tokensEntry_takes (.unchosen (.cons (.cons .nil hplain) hescaped))

/-- All tokens are taken, up to where there is none. -/
theorem tokensEntry_reads {tokens : List Token}
    (h : setting.text.LeftAt i (tokens.flatMap Token.chars ++ rest)) (hrest : Token.NoneFirst rest)
    (repeats : Nat) :
    ∃ nodes, tokensEntry.Repeats L setting 5 (tokens.length + 1) repeats i
      (some ⟨i + (tokens.flatMap Token.chars).length, nodes⟩) := by
  have hopen (repeats : Nat) : tokensEntry.quantifier.isFull repeats = false := rfl
  induction tokens generalizing i repeats with
  | nil =>
    have hmissed := Entry.Repeats.missed (hopen repeats) (hrest.missed (L := L) h)
    have hlower : ¬ repeats < tokensEntry.quantifier.lower := Nat.not_lt_zero _
    rw [if_neg hlower] at hmissed
    exact ⟨_, hmissed⟩
  | cons t tokens ih =>
    rw [List.flatMap_cons, List.append_assoc] at h
    obtain ⟨nodes, htaken⟩ := t.taken (L := L) h
    obtain ⟨later, hlater⟩ := ih h.skip (repeats + 1)
    have hmoves : i + t.chars.length ≠ i := by
      have := t.length_chars_pos
      omega
    have hmore := Entry.Repeats.more (hopen repeats) htaken hmoves hlater
    have hlength : i + t.chars.length + (tokens.flatMap Token.chars).length =
        i + ((t :: tokens).flatMap Token.chars).length := by
      rw [List.flatMap_cons, List.length_append, Nat.add_assoc]
    rw [Nat.add_comm 1] at hmore
    simp only [Option.map_some, Match.after, hlength] at hmore
    exact ⟨_, hmore⟩

/-- A literal is taken to its closing quote. -/
theorem literal_reads {tokens : List Token}
    (h : setting.text.LeftAt i (Token.literal tokens ++ rest)) :
    ∃ nodes, Entry.AllRead L setting 5 (tokens.length + 5)
      [singleEntry '"', tokensEntry, singleEntry '"'] i
      (some ⟨i + (Token.literal tokens).length, nodes⟩) := by
  rw [Token.literal, List.cons_append, List.append_assoc] at h
  obtain ⟨nodes, htokens⟩ := tokensEntry_reads (L := L) h.next (Token.noneFirst_quote rest) 0
  have hread := Entry.AllRead.cons (singleEntry_reads h.get)
    (.cons htokens (.last (singleEntry_reads h.next.skip.get)))
  have hsteps : 2 + (tokens.length + 1 + 2) = tokens.length + 5 := by omega
  have hlength : i + 1 + (tokens.flatMap Token.chars).length + 1 =
      i + (Token.literal tokens).length := by
    rw [Token.literal, List.length_cons, List.length_append, List.length_singleton]
    omega
  rw [hsteps] at hread
  simp only [Option.map_some, Match.after, hlength] at hread
  exact ⟨_, hread⟩

/-- What does not begin with a literal is not taken. -/
theorem literal_misses (h : setting.text.LeftAt i cs)
    (hcs : ∀ tokens, ¬ Token.literal tokens <+: cs) :
    ∃ steps, Entry.AllRead L setting 5 steps [singleEntry '"', tokensEntry, singleEntry '"'] i
      none := by
  by_cases hquote : setting.text[i]? = some '"'
  · obtain ⟨inner, rfl⟩ := List.head?_eq_some_iff.mp (h.head ▸ hquote)
    obtain ⟨tokens, rest, rfl, hrest⟩ := Token.exists_split inner
    obtain ⟨nodes, htokens⟩ := tokensEntry_reads (L := L) h.next hrest 0
    have hclosing : setting.text[i + 1 + (tokens.flatMap Token.chars).length]? ≠ some '"' := by
      rw [h.next.skip.head]
      intro hhead
      obtain ⟨more, rfl⟩ := List.head?_eq_some_iff.mp hhead
      refine hcs tokens ⟨more, ?_⟩
      rw [Token.literal, List.cons_append, List.append_assoc]
      rfl
    exact ⟨_, .cons (singleEntry_reads hquote)
      (.cons htokens (.last (singleEntry_misses hclosing)))⟩
  · exact ⟨_, .stuck (singleEntry_misses hquote)⟩

end

/-! ## Searches -/

/-- The grammar of a string literal. -/
def literalGrammar : Grammar := ⟨[.ref "stringLiteral" none]⟩

/-- The tree of these tokens: a node of its own spans them and the quotes around them, and its value
is what the tokens mean. The decoder comes to that without a backslash at the end. -/
structure Token.IsTree (find? : String → Option ParserType) (tokens : List Token)
    (tree : MatchTree) : Prop where
  start : tree.root.start = 0
  stop : tree.root.stop = (Token.literal tokens).length
  node : ∃ node, tree.nodes = [node] ∧ node.typeName = some "stringLiteral" ∧ node.start = 0 ∧
    node.stop = tree.root.stop ∧
      unescape? (NodeRef.mk tree.text node 0).chars.toList.tail.dropLast =
        some (tokens.map Token.decoded) ∧
      ∀ report, (NodeRef.mk tree.text node 0).value find? report =
        (.ok (.text (String.ofList (tokens.map Token.decoded))), report)

section

variable {types : TypeEnv} {text : Text} {tokens : List Token}

theorem literalGrammar_matched (hfind : types.find? "stringLiteral" = some stringLiteral) :
    (Entry.ref "stringLiteral" none).MatchedBy types (some ⟨stringLiteral, none⟩)
      (.sequence [singleEntry '"', tokensEntry, singleEntry '"']) :=
  .ref ⟨hfind, rfl, fun _ => rfl, fun _ _ => rfl⟩

/-- The grammar takes what the entries of a literal take. -/
theorem literalGrammar_reads (hfind : types.find? "stringLiteral" = some stringLiteral)
    {steps : Nat} {found : Option Match}
    (h : Entry.AllRead (Option Failure) (types.setting text) 5 steps
      [singleEntry '"', tokensEntry, singleEntry '"'] 0 found) :
    Entry.AllRead (Option Failure) (types.setting text) (5 + steps + 1) 2 literalGrammar.entries 0
      (found.map fun m => ⟨m.stop, (Entry.ref "stringLiteral" none).nodesOf 0 m.found
        (some ⟨stringLiteral, none⟩)⟩) := by
  have hshut : ∀ g, Checker.sequence [singleEntry '"', tokensEntry, singleEntry '"'] = .grammar g →
      (types.setting text).strategy.opens g = false := by
    rintro g ⟨⟩
    rfl
  have htakes := Entry.Takes.at_once (literalGrammar_matched hfind) (by rintro _ ⟨⟩) hshut
    (Checker.Takes.grammar h)
  rw [Option.map_map] at htakes
  cases found with
  | none =>
    exact fun rest => (Entry.AllRead.last (.unmatched rfl htakes) rest).mono (Nat.le_refl _)
      (Nat.le_succ 1)
  | some m => exact .last (.single rfl htakes)

/-- A text that begins with a literal has the tree of it. -/
theorem Token.isTree (hfind : types.find? "stringLiteral" = some stringLiteral)
    (h : Token.literal tokens <+: text.toList) (nodes : List Node) :
    Token.IsTree types.find? tokens (.ofNodes text 0 (Token.literal tokens).length
      [⟨none, some "stringLiteral", none, 0, (Token.literal tokens).length, nodes⟩]) := by
  obtain ⟨rest, hrest⟩ := h
  have hleft : text.LeftAt 0 (Token.literal tokens ++ rest) := hrest.symm
  have hchars := hleft.slice
  rw [Nat.zero_add] at hchars
  have hinner : (text.slice 0 (Token.literal tokens).length).toList.tail.dropLast =
      tokens.flatMap Token.chars := by
    rw [hchars, Token.literal, List.tail_cons, List.dropLast_concat]
  have hdecoded := unescape?_tokens tokens
  rw [← hinner] at hdecoded
  refine ⟨rfl, rfl, _, rfl, rfl, rfl, rfl, hdecoded, fun report => ?_⟩
  have hvalue := unescape_of_unescape? hdecoded
  simp only [NodeRef.value, Node.value, hfind, ← hvalue]
  rfl

/-- Where the text begins with a literal, its tree is found. -/
theorem literalGrammar_parse (hfind : types.find? "stringLiteral" = some stringLiteral)
    (h : Token.literal tokens <+: text.toList) :
    ∃ tree, Token.IsTree types.find? tokens tree ∧
      ∀ fuel, tokens.length + 13 < fuel → literalGrammar.parse fuel types text = .ok tree := by
  have hleft : ∃ rest, (types.setting text).text.LeftAt 0 (Token.literal tokens ++ rest) :=
    h.imp fun _ hrest => hrest.symm
  obtain ⟨rest, hleft⟩ := hleft
  obtain ⟨nodes, hread⟩ := literal_reads (L := Option Failure) hleft
  have hgrammar := literalGrammar_reads hfind hread
  rw [Nat.zero_add] at hgrammar
  refine ⟨_, Token.isTree hfind h nodes, fun fuel hfuel => ?_⟩
  have hsteps : 5 + (tokens.length + 5) + 1 + 2 < fuel := by omega
  obtain ⟨failures, hrun⟩ := hgrammar.run [] hsteps
  have hsearch : searchWithin fuel (types.setting text) .beginning literalGrammar 0 = _ := hrun
  simp only [Grammar.parse, Grammar.matchFrom, hsearch]
  rfl

/-- Where it does not, the text is refused. -/
theorem literalGrammar_refused (hfind : types.find? "stringLiteral" = some stringLiteral)
    (h : ∀ tokens, ¬ Token.literal tokens <+: text.toList) :
    ∃ enough, ∀ fuel, enough < fuel →
      ∃ u, literalGrammar.parse fuel types text = .error (.refused (.unmatched u)) := by
  have hleft : (types.setting text).text.LeftAt 0 text.toList := rfl
  obtain ⟨steps, hread⟩ := literal_misses (L := Option Failure) hleft h
  refine ⟨5 + steps + 1 + 2, fun fuel hfuel => ?_⟩
  obtain ⟨failures, hrun⟩ := (literalGrammar_reads hfind hread).run [] hfuel
  have hsearch : searchWithin fuel (types.setting text) .beginning literalGrammar 0 = _ := hrun
  simp only [Grammar.parse, Grammar.matchFrom, hsearch]
  exact ⟨_, rfl⟩

theorem Token.length_le (tokens : List Token) : tokens.length ≤ (literal tokens).length := by
  have hsum : tokens.length ≤ (tokens.flatMap chars).length := by
    induction tokens with
    | nil => exact Nat.le_refl _
    | cons t tokens ih =>
      have := t.length_chars_pos
      rw [List.flatMap_cons, List.length_append, List.length_cons]
      omega
  rw [literal, List.length_cons, List.length_append]
  omega

/-- Either way there is an answer. -/
theorem literalGrammar_answers (hfind : types.find? "stringLiteral" = some stringLiteral)
    (text : Text) : ∃ enough, ∀ fuel, enough < fuel →
      (∀ tokens, Token.literal tokens <+: text.toList →
        ∃ tree, literalGrammar.parse fuel types text = .ok tree ∧
          Token.IsTree types.find? tokens tree) ∧
      ((∀ tokens, ¬ Token.literal tokens <+: text.toList) →
        ∃ u, literalGrammar.parse fuel types text = .error (.refused (.unmatched u))) := by
  by_cases hliteral : ∃ tokens, Token.literal tokens <+: text.toList
  · refine ⟨text.size + 13, fun fuel hfuel => ⟨fun tokens htokens => ?_, fun hnone => ?_⟩⟩
    · obtain ⟨tree, htree, hparse⟩ := literalGrammar_parse hfind htokens
      have hshort := Token.length_le tokens
      have hsize : (Token.literal tokens).length ≤ text.size :=
        htokens.length_le.trans_eq Array.length_toList
      exact ⟨tree, hparse fuel (by omega), htree⟩
    · obtain ⟨tokens, htokens⟩ := hliteral
      exact absurd htokens (hnone tokens)
  · have hnone := not_exists.mp hliteral
    obtain ⟨enough, hrefused⟩ := literalGrammar_refused hfind hnone
    exact ⟨enough, fun fuel hfuel =>
      ⟨fun tokens htokens => absurd htokens (hnone tokens), fun _ => hrefused fuel hfuel⟩⟩

end

/-! ## Writing literals -/

/-- The token for a character. -/
def Token.ofChar (c : Char) : Token := if h : c ≠ '"' ∧ c ≠ '\\' then .plain c h else .escaped c

/-- The characters with a backslash before each quote and backslash. -/
def escape (cs : List Char) : List Char :=
  cs.flatMap fun c => if c = '"' ∨ c = '\\' then ['\\', c] else [c]

/-- A string as a literal. -/
def literalOf (s : String) : String := String.ofList ('"' :: (escape s.toList ++ ['"']))

theorem Token.chars_ofChar (c : Char) :
    (Token.ofChar c).chars = if c = '"' ∨ c = '\\' then ['\\', c] else [c] := by
  unfold Token.ofChar
  by_cases h : c = '"' ∨ c = '\\'
  · rw [dif_neg fun hc => h.elim hc.1 hc.2, if_pos h, Token.chars]
  · rw [dif_pos (not_or.mp h), if_neg h, Token.chars]

/-- A quote or a backslash stands for itself after a backslash. -/
theorem Token.decoded_ofChar (c : Char) : (Token.ofChar c).decoded = c := by
  unfold Token.ofChar
  by_cases h : c ≠ '"' ∧ c ≠ '\\'
  · rw [dif_pos h, Token.decoded]
  · rw [dif_neg h, Token.decoded]
    by_cases hquote : c = '"'
    · rw [hquote]
      rfl
    · obtain rfl : c = '\\' := not_not.mp fun hslash => h ⟨hquote, hslash⟩
      rfl

/-- A string is written in tokens that mean it. -/
theorem literalOf_tokens (s : String) :
    (Text.ofString (literalOf s)).toList = Token.literal (s.toList.map Token.ofChar) ∧
      (s.toList.map Token.ofChar).map Token.decoded = s.toList := by
  constructor
  · have htext (s : String) : (Text.ofString s).toList = s.toList := rfl
    rw [htext, literalOf, String.toList_ofList, Token.literal, List.flatMap_map, escape]
    simp only [Token.chars_ofChar]
  · rw [List.map_map]
    exact (List.map_congr_left fun c _ => Token.decoded_ofChar c).trans (List.map_id _)

end Builtin

open Builtin

/-- What stands in a grammar that is one reference to a type: the name it is captured under, the
type, the quantifier, and whether there is no secondary grammar. -/
def Grammar.soleRef? : Grammar → Option (Option Capture × TypeRef × Quantifier × Bool)
  | ⟨[⟨capture, .ref r, q, second⟩]⟩ => some (capture, r, q, second.isNone)
  | _ => none

theorem Grammar.soleRef?_eq_some {g : Grammar} {capture : Option Capture} {r : TypeRef}
    {q : Quantifier} (h : g.soleRef? = some (capture, r, q, true)) :
    g = ⟨[⟨capture, .ref r, q, none⟩]⟩ := by
  unfold Grammar.soleRef? at h
  split at h
  · simp only [Option.some.injEq, Prod.mk.injEq, Option.isNone_iff_eq_none] at h
    obtain ⟨rfl, rfl, rfl, rfl⟩ := h
    rfl
  · cases h

namespace TypeRegistry

theorem compile_stringLiteral : standard.compile "!stringLiteral!" = .ok literalGrammar := by
  have hsole : (standard.compile "!stringLiteral!").toOption.bind Grammar.soleRef? =
      some (none, ⟨"stringLiteral", none⟩, .one, true) := by decide +kernel
  cases hcompile : standard.compile "!stringLiteral!" with
  | error e =>
    rw [hcompile] at hsole
    cases hsole
  | ok g =>
    rw [hcompile] at hsole
    exact congrArg Except.ok (Grammar.soleRef?_eq_some hsole)

/-- **String literals are recognised and decoded alike.** The pattern of a string literal compiles,
and its grammar matches the beginning of a text up to some place exactly where this is a literal: a
quote, tokens and a quote. The tree then has one node, and its value is what the tokens mean. Any
other text is refused. A string written with a backslash before each of its quotes and backslashes
is matched as a whole, and is the value. -/
theorem string_literals : ∃ g, standard.compile "!stringLiteral!" = .ok g ∧ ∀ text : Text,
    ∃ enough, ∀ fuel, enough < fuel →
      (∀ stop, (∃ tree, g.parse fuel standard.env text = .ok tree ∧ tree.root.stop = stop) ↔
        ∃ tokens, Token.literal tokens <+: text.toList ∧ stop = (Token.literal tokens).length) ∧
      (∀ tokens, Token.literal tokens <+: text.toList →
        ∃ tree, g.parse fuel standard.env text = .ok tree ∧
          Token.IsTree standard.find? tokens tree) ∧
      ((∀ tokens, ¬ Token.literal tokens <+: text.toList) →
        ∃ u, g.parse fuel standard.env text = .error (.refused (.unmatched u))) ∧
      ∀ s, text = Text.ofString (literalOf s) → ∃ tree node,
        g.parse fuel standard.env text = .ok tree ∧
        g.matchWhole fuel standard.env text = .ok tree ∧
        tree.root.stop = text.size ∧ tree.nodes = [node] ∧
        ∀ report, (NodeRef.mk tree.text node 0).value standard.find? report =
          (.ok (.text s), report) := by
  have hfind : standard.env.find? "stringLiteral" = some stringLiteral := rfl
  refine ⟨literalGrammar, compile_stringLiteral, fun text => ?_⟩
  obtain ⟨enough, hanswers⟩ := literalGrammar_answers hfind text
  refine ⟨enough, fun fuel hfuel => ?_⟩
  obtain ⟨hparse, hrefused⟩ := hanswers fuel hfuel
  refine ⟨fun stop => ⟨?_, ?_⟩, hparse, hrefused, ?_⟩
  · rintro ⟨tree, htree, rfl⟩
    by_cases hliteral : ∃ tokens, Token.literal tokens <+: text.toList
    · obtain ⟨tokens, htokens⟩ := hliteral
      obtain ⟨tree', htree', his⟩ := hparse tokens htokens
      cases htree.symm.trans htree'
      exact ⟨tokens, htokens, his.stop⟩
    · obtain ⟨u, hu⟩ := hrefused (not_exists.mp hliteral)
      cases htree.symm.trans hu
  · rintro ⟨tokens, htokens, rfl⟩
    obtain ⟨tree, htree, his⟩ := hparse tokens htokens
    exact ⟨tree, htree, his.stop⟩
  · rintro s rfl
    obtain ⟨hwritten, hmeant⟩ := literalOf_tokens s
    obtain ⟨tree, htree, his⟩ := hparse _ ⟨[], by rw [List.append_nil, hwritten]⟩
    obtain ⟨node, hnodes, -, -, -, -, hvalue⟩ := his.node
    have hstop : tree.root.stop = (Text.ofString (literalOf s)).size := by
      rw [his.stop, ← hwritten, Array.length_toList]
    have hwhole := (literalGrammar.matchFrom_agrees_unless fuel standard.env _ 0).of_ok htree
      (not_not_intro hstop)
    refine ⟨tree, node, htree, hwhole, hstop, hnodes, fun report => ?_⟩
    refine (hvalue report).trans ?_
    rw [hmeant, String.ofList_toList]

end TypeRegistry

end TextGrammar
