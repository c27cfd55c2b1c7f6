/-
Grammars that say the same come to the same. A step of one search at an entry is a
step of the other at the entry in its place, and a run of entries that are matched
at once is passed like the one it is fused to. So by induction on how the second
grammar restates the first, every search for the one echoes the search for the other.
-/
import TextGrammar.Proofs.EchoedSearch
import TextGrammar.Proofs.PlacedSearch

open Filter (atTop)

namespace TextGrammar

variable {L : Type} [FailureLog L] {t : Twins}

/-! ## Closed ways back -/

namespace Machine

variable {m m' : Machine L} {place : Nat}

omit [FailureLog L] in
theorem close_other {i : Nat} (hne : place ≠ i) :
    (m.close (some place)).snapshots[i]? = m.snapshots[i]? := by
  simp only [close, Array.getElem?_modify, hne, if_false]

omit [FailureLog L] in
theorem deadAt_close (h : place < m.snapshots.size) :
    Snapshot.DeadAt (m.close (some place)).snapshots place := by
  refine ⟨{ m.snapshots[place] with action := .exhausted }, ?_, .inl rfl⟩
  simp only [close, Array.getElem?_modify, if_true, Array.getElem?_eq_getElem h, Option.map_some]

omit [FailureLog L] in
/-- The way back may be closed in both searches or in none, and where nothing is left to try, in
either of them. -/
theorem closing_spent (hsize : m'.snapshots.size = m.snapshots.size) {closes closes' : Prop}
    [Decidable closes] [Decidable closes'] {barrier : Option Nat} (h : (closes ↔ closes') ∨
      ∀ place, barrier = some place →
        Snapshot.DeadAt m.snapshots place ∧ Snapshot.DeadAt m'.snapshots place) :
    Snapshot.SpentBoth m.snapshots m'.snapshots (if closes then m.close barrier else m).snapshots
      (if closes' then m'.close barrier else m').snapshots := by
  cases barrier with
  | none =>
    simp only [close, ite_self]
    exact .refl _ _
  | some place =>
    have hlength {m : Machine L} (closes : Prop) [Decidable closes] :
        (if closes then m.close (some place) else m).snapshots.size = m.snapshots.size := by
      split
      · exact Array.size_modify
      · rfl
    have hother {m : Machine L} (closes : Prop) [Decidable closes] {i : Nat} (hne : place ≠ i) :
        (if closes then m.close (some place) else m).snapshots[i]? = m.snapshots[i]? := by
      split
      · exact close_other hne
      · rfl
    have hdead {m : Machine L} (closes : Prop) [Decidable closes]
        (hm : Snapshot.DeadAt m.snapshots place) :
        Snapshot.DeadAt (if closes then m.close (some place) else m).snapshots place := by
      split
      · obtain ⟨_, hplace, _⟩ := hm
        exact deadAt_close (Array.getElem?_eq_some_iff.mp hplace).1
      · exact hm
    refine ⟨hlength closes, hlength closes', fun i => ?_⟩
    by_cases hne : place = i
    · subst hne
      rcases h with hiff | hboth
      · by_cases hcloses : closes
        · rw [if_pos hcloses, if_pos (hiff.mp hcloses)]
          by_cases hlt : place < m.snapshots.size
          · exact .inr ⟨deadAt_close hlt, deadAt_close (hsize ▸ hlt)⟩
          · left
            simp only [close, Array.getElem?_modify, if_true]
            rw [Array.getElem?_eq_none (by omega), Array.getElem?_eq_none (by omega)]
            exact ⟨rfl, rfl⟩
        · rw [if_neg hcloses, if_neg (hiff.not.mp hcloses)]
          exact .inl ⟨rfl, rfl⟩
      · exact .inr ⟨hdead closes (hboth place rfl).1, hdead closes' (hboth place rfl).2⟩
    · exact .inl ⟨hother closes hne, hother closes' hne⟩

end Machine

/-- States stand as before, whether the way back into what was opened is closed or not. -/
theorem Twins.Stands.closing {m m' : Machine L} {lefts : List Left} {offset repeats : Nat}
    {forced : Bool} (h : t.Stands lefts offset repeats forced m m') {closes closes' : Prop}
    [Decidable closes] [Decidable closes'] {barrier : Option Nat} (hcloses : (closes ↔ closes') ∨
      ∀ place, barrier = some place →
        Snapshot.DeadAt m.snapshots place ∧ Snapshot.DeadAt m'.snapshots place) :
    t.Stands lefts offset repeats forced (if closes then m.close barrier else m)
      (if closes' then m'.close barrier else m') := by
  have hspent := Machine.closing_spent h.size hcloses
  have hrest {m : Machine L} (closes : Prop) [Decidable closes] :
      (if closes then m.close barrier else m) =
        { m with snapshots := (if closes then m.close barrier else m).snapshots } := by
    split
    · cases barrier <;> rfl
    · rfl
  rw [hrest closes, hrest closes']
  exact ⟨⟨⟨h.same, h.stay⟩, (hspent.size'.trans h.size).trans hspent.size.symm,
      h.back.spent hspent⟩, h.within, h.sessions.mono fun _ => hspent.dead, h.repeated,
    h.offset_eq, h.offset_eq', h.forced_eq, h.forced_eq'⟩

/-! ## Steps -/

section

variable {m m' : Machine L} {lefts : List Left} {offset repeats opened : Nat} {forced : Bool}
  {e e' : Entry} {rest rest' : List Entry} {own : Grammar → Grammar → Prop}

/-- **Steps at entries that echo each other** lead on to what comes after them, back to them further
into the text, or into their grammars. -/
theorem Twins.stepEntry_echoes
    (h : t.Stands (⟨e :: rest, e' :: rest', opened⟩ :: lefts) offset repeats forced m m')
    (he : e.Echoes L t.env e') (htarget : e.target.Echoes L t.env own e'.target)
    (hnext : t.Proceeds L (⟨rest, rest', opened⟩ :: lefts) offset 0 false)
    (hagain : ∀ stop repeats, offset < stop →
      t.Proceeds L (⟨e :: rest, e' :: rest', opened⟩ :: lefts) stop repeats false)
    (hforced : forced = false →
      t.Proceeds L (⟨e :: rest, e' :: rest', opened⟩ :: lefts) offset repeats true)
    (hopens : ∀ g g', own g g' → t.Proceeds L (⟨g.entries, g'.entries, offset⟩ ::
      ⟨e :: rest, e' :: rest', opened⟩ :: lefts) offset 0 false) :
    BothEnd Stop.SameRefusal t.StepsEcho
      (fun fuel => m.stepEntry (runWithin fuel) t.setting e repeats)
      fun fuel => m'.stepEntry (runWithin fuel) t.setting' e' repeats := by
  have hq := he.quantifier
  simp only [Machine.stepEntry, h.forced_eq, h.forced_eq', hq.isZero, hq.isFull]
  split
  · exact .ok (hnext _ _ h.advance)
  split
  · exact .ok (hnext _ _ h.advance)
  next hopen =>
  -- From here on an entry whose greediness differs has to be matched.
  have hmust (hne : e'.quantifier ≠ e.quantifier) :
      forced = true ∨ repeats < e.quantifier.lower := by
    cases forced with
    | true => exact .inl rfl
    | false =>
      simp only [Bool.not_false, Bool.true_and] at hopen
      exact .inr ((hq.isFull_or_lt hne repeats).resolve_left hopen)
  have hmin : (!forced && e'.quantifier.greediness == .minimum &&
      decide (e'.quantifier.lower ≤ repeats)) = (!forced && e.quantifier.greediness == .minimum &&
        decide (e.quantifier.lower ≤ repeats)) := by
    by_cases hne : e'.quantifier = e.quantifier
    · rw [hne]
    · rw [hq.lower]
      rcases hmust hne with rfl | hlt
      · rfl
      · rw [decide_eq_false (Nat.not_le_of_lt hlt), Bool.and_false, Bool.and_false]
  have hmax : (e'.quantifier.greediness == .maximum && decide (e'.quantifier.lower ≤ repeats) &&
      !forced) = (e.quantifier.greediness == .maximum && decide (e.quantifier.lower ≤ repeats) &&
        !forced) := by
    by_cases hne : e'.quantifier = e.quantifier
    · rw [hne]
    · rw [hq.lower]
      rcases hmust hne with rfl | hlt
      · rw [Bool.not_true, Bool.and_false, Bool.and_false]
      · rw [decide_eq_false (Nat.not_le_of_lt hlt), Bool.and_false, Bool.and_false]
  rw [hmin]
  split
  · next hsaves =>
    simp only [Bool.and_eq_true, Bool.not_eq_true'] at hsaves
    exact .ok (hnext _ _ (h.saveOneMore (hforced hsaves.1.1)).advance)
  refine (t.attempt_tried h he htarget).bind fun _ _ hattempts => ?_
  obtain ⟨htried, hresult⟩ := hattempts
  simp only [htried.forced_eq, htried.forced_eq', hmax]
  generalize Prod.snd _ = result at hresult ⊢
  generalize Prod.snd _ = result' at hresult ⊢
  cases hresult with
  | matched hnodes hle hsize =>
    refine .ok ?_
    split
    · have hsave := htried.savePassOver hq.lower hnext
      simp only [hsave.offset_eq, hsave.offset_eq']
      exact hsave.accept hle hsize hnodes hnext hagain
    · simp only [htried.offset_eq, htried.offset_eq']
      exact htried.accept hle hsize hnodes hnext hagain
  | opens hown => exact .ok (hopens _ _ hown _ _ (htried.enter hq.lower hnext hmust _ _))
  | failed =>
    simp only [hq.lower]
    split
    · exact .ok (htried.toBacks.record _ _).giveUp
    · exact .ok (hnext _ _ htried.advance)

/-- **Steps out of nested grammars** lead on to what comes after the entries they were opened for,
or back to these further into the text. -/
theorem Twins.stepOut_echoes {from_ : Nat} (h : t.Stands
      (⟨[], [], from_⟩ :: ⟨e :: rest, e' :: rest', opened⟩ :: lefts) offset repeats forced m m')
    (he : e.Echoes L t.env e') (hfrom : from_ ≤ offset)
    (hnext : t.Proceeds L (⟨rest, rest', opened⟩ :: lefts) from_ 0 false)
    (hagain : ∀ stop repeats, from_ < stop →
      t.Proceeds L (⟨e :: rest, e' :: rest', opened⟩ :: lefts) stop repeats false)
    {finished finished' parent parent' : Session} {below below' : List Session}
    (hm : m.sessions = finished :: parent :: below)
    (hm' : m'.sessions = finished' :: parent' :: below') :
    BothEnd Stop.SameRefusal t.StepsEcho
      (fun fuel => m.stepOut (runWithin fuel) t.setting finished parent below)
      fun fuel => m'.stepOut (runWithin fuel) t.setting' finished' parent' below' := by
  have hsessions := h.sessions
  rw [hm, hm'] at hsessions
  cases hsessions with
  | cons hfinished hshut hbelow =>
    have hparents : t.Stands (⟨e :: rest, e' :: rest', opened⟩ :: lefts) offset parent.repeats
        forced { m with sessions := parent :: below } { m' with sessions := parent' :: below' } :=
      ⟨⟨⟨h.same, h.stay⟩, h.size, h.back⟩, h.within, hbelow,
        fun _ hhead => congrArg Session.repeats (Option.some.inj hhead).symm, h.offset_eq,
        h.offset_eq', h.forced_eq, h.forced_eq'⟩
    have hcloses : ((e.quantifier.greediness == .possessive) = true ↔
        (e'.quantifier.greediness == .possessive) = true) ∨
        ∀ place, finished.barrier = some place →
          Snapshot.DeadAt m.snapshots place ∧ Snapshot.DeadAt m'.snapshots place := by
      by_cases hne : e'.quantifier = e.quantifier
      · rw [hne]
        exact .inl Iff.rfl
      · exact .inr (hshut _ rfl ⟨e, rest, e', rest', rfl, rfl, hne⟩)
    have hout := hparents.closing hcloses
    cases hbelow with
    | cons hparent _ _ =>
      simp only [Machine.stepOut, hparent.rest, hparent.rest', hfinished.barrier, hfinished.use,
        hfinished.use', hfinished.start, hfinished.start', hparent.repeats]
      generalize (if (e.quantifier.greediness == .possessive) = true then
        Machine.close { m with sessions := parent :: below } finished.barrier
        else { m with sessions := parent :: below }) = out at hout ⊢
      generalize (if (e'.quantifier.greediness == .possessive) = true then
        Machine.close { m' with sessions := parent' :: below' } finished.barrier
        else { m' with sessions := parent' :: below' }) = out' at hout ⊢
      have hfound : Found.Echoes from_ t.setting.text.size ⟨offset, finished.nodes.toList, true⟩
          ⟨offset, finished'.nodes.toList, true⟩ := ⟨rfl, hfinished.marks, hfrom, h.within⟩
      simp only [hout.offset_eq, hout.offset_eq']
      refine (Entry.complete_echoes he hout.inner hfound fun _ hu => by cases hu).bind
        fun seen seen' hseen => ?_
      obtain ⟨value, failures⟩ := seen
      obtain ⟨value', failures'⟩ := seen'
      cases hseen with
      | none => exact .ok ((hout.record _ _).toBacks.record _ _).giveUp
      | some hnodes => exact .ok ((hout.record _ _).accept hfrom h.within hnodes hnext hagain)

end

/-! ## Walks -/

/-- Searches in sessions with these entries come to the same, if they do from wherever both sessions
are at their ends. -/
def Entry.PassAlike (L : Type) [FailureLog L] (env : TypeEnv) (es es' : List Entry) : Prop :=
  ∀ t : Twins, t.env = env → ∀ (lefts : List Left) (opened offset : Nat),
    (∀ stop, offset ≤ stop → t.Proceeds L (⟨[], [], opened⟩ :: lefts) stop 0 false) →
      t.Proceeds L (⟨es, es', opened⟩ :: lefts) offset 0 false

namespace Entry.PassAlike

variable {env : TypeEnv} {e e' : Entry} {es es' : List Entry}

theorem nil : Entry.PassAlike L env [] [] :=
  fun _ _ _ _ offset hends => hends offset (Nat.le_refl offset)

/-- Entries that echo each other are passed alike when what comes after them is. -/
theorem cons (he : e.Echoes L env e') (htarget : e.target.Echoes L env
      (fun g g' => Entry.PassAlike L env g.entries g'.entries) e'.target)
    (hlater : Entry.PassAlike L env es es') : Entry.PassAlike L env (e :: es) (e' :: es') := by
  rintro t rfl lefts opened
  -- Both searches are back at the entries only further into the text.
  suffices h : ∀ n offset, t.setting.text.size < offset + n →
      (∀ stop, offset ≤ stop → t.Proceeds L (⟨[], [], opened⟩ :: lefts) stop 0 false) →
      ∀ repeats, t.Proceeds L (⟨e :: es, e' :: es', opened⟩ :: lefts) offset repeats false from
    fun offset hends => h (t.setting.text.size + 1) offset (by omega) hends 0
  intro n
  induction n with
  | zero =>
    intro offset hlt _ repeats m m' h
    exact absurd h.within (Nat.not_le_of_lt hlt)
  | succ n ih =>
    intro offset hlt hends repeats
    have hnext := hlater t rfl lefts opened offset hends
    have hagain (stop repeats : Nat) (hstop : offset < stop) :=
      ih stop (by omega) (fun later hle => hends later (by omega)) repeats
    have hopens (g g' : Grammar) (hg : Entry.PassAlike L t.env g.entries g'.entries) :
        t.Proceeds L (⟨g.entries, g'.entries, offset⟩ :: ⟨e :: es, e' :: es', opened⟩ :: lefts)
          offset 0 false := by
      refine hg t rfl _ _ _ fun stop hstop m m' h => .of_step ?_
      obtain ⟨finished, _, finished', _, hm, hm', hfinished, _, hbelow⟩ := h.top
      cases hbelow with
      | cons _ _ _ =>
        simp only [Machine.step, hm, hm', hfinished.rest, hfinished.rest']
        exact t.stepOut_echoes h he hstop hnext hagain hm hm'
    have hstep {forced : Bool} (hforced : forced = false →
          t.Proceeds L (⟨e :: es, e' :: es', opened⟩ :: lefts) offset repeats true) :
        t.Proceeds L (⟨e :: es, e' :: es', opened⟩ :: lefts) offset repeats forced := by
      refine fun m m' h => .of_step ?_
      obtain ⟨top, _, top', _, hm, hm', htop, hrepeats, _⟩ := h.top
      simp only [Machine.step, hm, hm', htop.rest, htop.rest', htop.repeats, hrepeats]
      exact t.stepEntry_echoes h he htarget hnext hagain hforced hopens
    exact hstep fun _ => hstep fun h => by cases h

/-- A run is passed like the checker it is fused to. -/
theorem fused {run : List Entry} {c : Checker} (h : Entry.Fuses run c)
    (hlater : Entry.PassAlike L env es es') :
    Entry.PassAlike L env (run ++ es) (.ofChecker c :: es') := by
  rintro t rfl lefts opened offset hends m m' hm
  obtain ⟨measure, hc, hrun⟩ := h.take (L := L)
  obtain ⟨top, below, top', below', hsessions, hsessions', htop, hrepeats, hbelow⟩ := hm.top
  have hshut := hm.sessions
  have hoffset : m.offset ≤ t.setting.text.size := hm.offset_eq ▸ hm.within
  have hoffset' : m'.offset ≤ t.setting'.text.size := by
    rw [hm.offset_eq', t.echoes.text]
    exact hm.within
  have hpasses := hrun t.setting t.mode m top below es hsessions htop.rest hrepeats hm.forced_eq
    hoffset
  have hpasses' := hc.take (q := .one) rfl t.setting' t.mode m' top' below' es' hsessions'
    htop.rest' (htop.repeats.trans hrepeats) hm.forced_eq' hoffset'
  rw [hm.offset_eq] at hpasses
  rw [hm.offset_eq', t.echoes.text] at hpasses'
  generalize measure t.setting.text offset = length at hpasses hpasses'
  cases hpasses with
  | @missed m₁ hsnapshots hcheckers hleads =>
    cases hpasses' with
    | @missed m₁' hsnapshots' hcheckers' hleads' =>
      refine .of_leads hleads hleads' (hm.back m₁ m₁' ⟨?_, ?_⟩ ?_)
      · rw [hcheckers, hcheckers', hm.same]
      · rw [hcheckers]
        exact hm.stay
      · rw [hsnapshots, hsnapshots']
        exact .refl _ _
  | @past n nodes failures hmarks hsize hleads =>
    cases hpasses' with
    | @past _ nodes' failures' hmarks' _ hleads' =>
      have hnext := hlater t rfl lefts opened (offset + n) fun stop hstop => hends stop (by omega)
      refine .of_leads hleads hleads' (hnext _ _ ?_)
      rw [hsessions, hsessions'] at hshut
      cases hshut with
      | cons _ hshut _ =>
        refine ⟨⟨⟨hm.same, hm.stay⟩, hm.size, hm.back⟩, hm.offset_eq ▸ hsize, .cons ?_ hshut hbelow,
          ?_, congrArg (· + n) hm.offset_eq, congrArg (· + n) hm.offset_eq', rfl, rfl⟩
        · refine ⟨rfl, rfl, htop.start, htop.start', rfl, ?_, htop.barrier, htop.use, htop.use'⟩
          simp only [Trail.marks_pushAll, htop.marks, hmarks, hmarks']
        · intro _ hhead
          obtain rfl := Option.some.inj hhead
          rfl

end Entry.PassAlike

/-- At the ends of their grammars both searches are over, or have to give up. -/
theorem Twins.proceeds_end {stop : Nat} (hstop : t.start ≤ stop) :
    t.Proceeds L [⟨[], [], t.start⟩] stop 0 false := by
  refine fun m m' h => .of_step ?_
  obtain ⟨top, _, top', _, hm, hm', htop, _, hbelow⟩ := h.top
  cases hbelow
  simp only [Machine.step, hm, hm', htop.rest, htop.rest', h.offset_eq, h.offset_eq', t.echoes.text]
  split
  · exact .ok (h.toBacks.record _ _).giveUp
  · exact .ok (.ok (.some ⟨rfl, htop.marks, hstop, h.within⟩))

/-- **A grammar whose entries are passed alike echoes the other.** -/
theorem Entry.PassAlike.echoes {env : TypeEnv} {g g' : Grammar}
    (h : Entry.PassAlike L env g.entries g'.entries) : g.Echoes L env g' := by
  intro setting setting' mode offset echoes hoffset
  let t : Twins := ⟨env, setting, setting', mode, offset, echoes⟩
  have hstart : t.Stands [⟨g.entries, g'.entries, offset⟩] offset 0 false
      (.start g offset : Machine L) (.start g' offset) := by
    refine ⟨⟨⟨rfl, List.forall_mem_nil _⟩, rfl, .empty⟩, hoffset, .cons ?_ ?_ .nil, ?_, rfl, rfl,
      rfl, rfl⟩
    · exact ⟨rfl, rfl, rfl, rfl, rfl, rfl, rfl, rfl, rfl⟩
    · intro parent hparent
      cases hparent
    · intro _ hhead
      obtain rfl := Option.some.inj hhead
      rfl
  exact h t rfl [] offset offset (fun stop hstop => t.proceeds_end hstop) _ _ hstart

/-! ## What is fused -/

theorem Quantifier.isDeterministic_of_isOne {q : Quantifier} (h : q.isOne = true) :
    q.isDeterministic = true := by
  simp only [isOne, Bool.and_eq_true, beq_iff_eq] at h
  simp [isDeterministic, isFixed, h.1, h.2]

theorem Quantifier.Restated.isDeterministic {q q' : Quantifier} (h : q.Restated q') :
    q'.isDeterministic = q.isDeterministic := by
  rcases h with rfl | ⟨hq, hq'⟩
  · rfl
  · rw [isDeterministic_of_isOne hq, isDeterministic_of_isOne hq']

theorem Checker.isDeterministic_of_letters {c : Checker} {cs : List Char}
    (h : c.letters? = some cs) : c.isDeterministic = some true := by
  unfold Checker.letters? at h
  split at h
  · rfl
  · rfl
  · cases h

/-- Literals leave no choice. -/
theorem Entry.Spells.allDeterministic {run : List Entry} {cs : List Char}
    (h : Entry.Spells run cs) (es : List Entry) :
    Entry.allDeterministic (run ++ es) = Entry.allDeterministic es := by
  induction h with
  | nil => rfl
  | cons hletters hq _ ih =>
    simp only [List.cons_append, Entry.allDeterministic, (Quantifier.goesOn_one hq).nonzero,
      Entry.isDeterministic, Quantifier.isDeterministic_of_isOne hq, Target.isDeterministic,
      Checker.isDeterministic_of_letters hletters, Bool.false_eq_true, if_false, if_true, ih]
    rfl

/-- A run leaves no choice. -/
theorem Entry.Fuses.allDeterministic {run : List Entry} {c : Checker} (h : Entry.Fuses run c)
    (es : List Entry) : Entry.allDeterministic (run ++ es) = Entry.allDeterministic es := by
  cases h with
  | literals _ hspells => exact hspells.allDeterministic es
  | count n =>
    have hsure : (Quantifier.exactly n).isDeterministic = true := by
      simp [Quantifier.isDeterministic, Quantifier.exactly]
    show (if (Quantifier.exactly n).isZero = true then _
      else bothDeterministic (if _ then _ else _) _) = _
    rw [if_pos hsure]
    exact ite_self _
  | rest => rfl

/-- What a run is fused to leaves no choice either. -/
theorem Entry.Fuses.isDeterministic {run : List Entry} {c : Checker} (h : Entry.Fuses run c) :
    c.isDeterministic = some true := by
  cases h with
  | @literals _ cs _ _ => cases cs <;> rfl
  | count n => rfl
  | rest => rfl

theorem Entry.Restated.quantifier {classes : CharClasses} {e e' : Entry}
    (h : Entry.Restated classes e e') : e.quantifier.Restated e'.quantifier := by
  cases h with
  | intro _ hq _ => exact hq

mutual

/-- A checker that says the same leaves as much of a choice. -/
theorem Checker.Restated.isDeterministic {classes : CharClasses} : ∀ {c c' : Checker},
    Checker.Restated classes c c' → c'.isDeterministic = c.isDeterministic
  | _, _, .char _ => rfl
  | _, _, .any _ => rfl
  | _, _, .literal h h' => by
    rw [Checker.isDeterministic_of_letters h, Checker.isDeterministic_of_letters h']
  | _, _, .oneOf hcs hfallback => by
    rw [Checker.isDeterministic, Checker.isDeterministic,
      Checker.AllRestated.allDeterministic hcs,
      Checker.OptionRestated.optionDeterministic hfallback]
  | _, _, .not h => by
    rw [Checker.isDeterministic, Checker.isDeterministic, Checker.Restated.isDeterministic h]
  | _, _, .grammar h => Entry.AllRestated.allDeterministic h
  | _, _, .fused h =>
    h.isDeterministic.trans ((List.append_nil _ ▸ h.allDeterministic []).symm)

theorem Checker.AllRestated.allDeterministic {classes : CharClasses} : ∀ {cs cs' : List Checker},
    Checker.AllRestated classes cs cs' → Checker.allDeterministic cs' = Checker.allDeterministic cs
  | _, _, .nil => rfl
  | _, _, .cons h hlater => by
    rw [Checker.allDeterministic, Checker.allDeterministic, Checker.Restated.isDeterministic h,
      Checker.AllRestated.allDeterministic hlater]

theorem Checker.OptionRestated.optionDeterministic {classes : CharClasses} :
    ∀ {c c' : Option Checker}, Checker.OptionRestated classes c c' →
      Checker.optionDeterministic c' = Checker.optionDeterministic c
  | _, _, .none => rfl
  | _, _, .some h => Checker.Restated.isDeterministic h

theorem Entry.AllRestated.allDeterministic {classes : CharClasses} : ∀ {es es' : List Entry},
    Entry.AllRestated classes es es' → Entry.allDeterministic es' = Entry.allDeterministic es
  | _, _, .nil => rfl
  | _, _, .cons h hlater => by
    rw [Entry.allDeterministic, Entry.allDeterministic, Entry.Restated.isDeterministic h,
      Entry.AllRestated.allDeterministic hlater, h.quantifier.isZero]
  | _, _, .fused h hlater => by
    rw [h.allDeterministic, ← Entry.AllRestated.allDeterministic hlater]
    simp only [Entry.ofChecker, Entry.ofTarget, Entry.allDeterministic, Entry.isDeterministic,
      Target.isDeterministic, h.isDeterministic]
    rfl

theorem Entry.Restated.isDeterministic {classes : CharClasses} : ∀ {e e' : Entry},
    Entry.Restated classes e e' → Entry.isDeterministic e' = Entry.isDeterministic e
  | _, _, .intro htarget hq hsecondary => by
    rw [Entry.isDeterministic, Entry.isDeterministic, hq.isDeterministic,
      Target.Restated.isDeterministic htarget,
      Grammar.OptionRestated.optionDeterministic hsecondary]

theorem Target.Restated.isDeterministic {classes : CharClasses} : ∀ {target target' : Target},
    Target.Restated classes target target' → target'.isDeterministic = target.isDeterministic
  | _, _, .checker h => Checker.Restated.isDeterministic h
  | _, _, .ref _ => rfl

theorem Grammar.OptionRestated.optionDeterministic {classes : CharClasses} :
    ∀ {g g' : Option Grammar}, Grammar.OptionRestated classes g g' →
      Grammar.optionDeterministic g' = Grammar.optionDeterministic g
  | _, _, .none => rfl
  | _, _, .some h => Entry.AllRestated.allDeterministic h

end

/-- A search for a run ends as far on as the run has a length, with no marks. -/
theorem Entry.Take.search {run : List Entry} {measure : Text → Nat → Option Nat}
    (h : Entry.Take L run measure) (setting : Setting) {offset : Nat}
    (hoffset : offset ≤ setting.text.size) : ∃ seen : Seen L (Option Match),
      (∀ᶠ fuel in atTop, runWithin fuel setting .beginning ⟨run⟩ offset = .ok seen) ∧
        seen.value.map Match.stop = (measure setting.text offset).map (offset + ·) ∧
          ∀ m ∈ seen.value, Node.marksAll m.nodes = [] := by
  have hpasses := h setting .beginning (.start ⟨run⟩ offset) _ [] [] rfl (List.append_nil run).symm
    rfl rfl hoffset
  have hstart : (Machine.start ⟨run⟩ offset : Machine L).offset = offset := rfl
  rw [hstart] at hpasses
  generalize measure setting.text offset = length at hpasses
  cases hpasses with
  | @missed m hsnapshots _ hleads =>
    have hgiveUp : m.giveUp = .done none m.failures := by
      have hsize : m.snapshots.size = 0 := congrArg Array.size hsnapshots
      simp only [Machine.giveUp, Machine.backtrack, hsize, Machine.backtrackIn]
    rw [hgiveUp] at hleads
    exact ⟨_, hleads _ (.of_forall fun _ => rfl), rfl, fun _ hm => by cases hm⟩
  | @past n nodes failures hmarks _ hleads =>
    have hend := hleads.trans (.of_step fun _ => rfl)
    refine ⟨_, hend _ (.of_forall fun _ => rfl), rfl, fun m hm => ?_⟩
    obtain rfl := Option.some.inj hm
    exact (Trail.marks_pushAll _ _).trans hmarks

/-- The search for a run echoes the checker it is fused to. -/
theorem Checker.Echoes.fused {env : TypeEnv} {run : List Entry} {c : Checker}
    (h : Entry.Fuses run c) : (Checker.grammar ⟨run⟩).Echoes L env c := by
  obtain ⟨measure, hc, hrun⟩ := h.take (L := L)
  refine ⟨fun {setting setting' offset} echoes hoffset => ?_,
    fun {setting setting' offset} echoes hoffset => ?_, by simp, hc.leaf.not_fixed⟩
  · obtain ⟨seen, hends, hstop, _⟩ := hrun.search setting.alone hoffset
    simp only [Checker.lengthAt, hc.length, echoes.text]
    refine .inl ⟨_, _, ⟨rfl, hc.size hoffset⟩, hends.mono fun fuel hrun => ?_,
      .of_forall fun _ => rfl⟩
    have hlength : seen.value.map (·.stop - offset) = measure setting.text offset := by
      have hmap := congrArg (Option.map (· - offset)) hstop
      have htext : setting.alone.text = setting.text := rfl
      simpa only [htext, Option.map_map, Function.comp_def, Nat.add_sub_cancel_left, Option.map_id']
        using hmap
    simp only [Grammar.lengthAt, hrun, hlength]
  · obtain ⟨seen, hends, hstop, hmarks⟩ := hrun.search setting hoffset
    have hchoice (run : Runner L) : c.choiceAt run setting' offset =
        .ok (.of ((measure setting.text offset).map fun n => ⟨offset + n, [], false⟩)) := by
      rw [Checker.choiceAt_of_lengthAt hc.leaf.not_grammar hc.leaf.not_oneOf, hc.length,
        echoes.text]
    simp only [Checker.choiceAt, hchoice]
    refine .inl ⟨⟨seen.value.map Match.found, seen.failures⟩, _, ?_, hends.mono fun fuel hrun => ?_,
      .of_forall fun _ => rfl⟩
    · have hsize := hc.size hoffset
      obtain ⟨value, failures⟩ := seen
      simp only [Seen.Both, Seen.of] at hstop hmarks ⊢
      generalize measure setting.text offset = length at hstop hsize ⊢
      cases value with
      | none =>
        obtain rfl := Option.map_eq_none_iff.mp hstop.symm
        exact .none
      | some m =>
        obtain ⟨n, rfl, hn⟩ := Option.map_eq_some_iff.mp hstop.symm
        refine .some ⟨hn, ?_, ?_, ?_⟩
        · exact (hmarks m rfl).symm
        · exact (Nat.le_add_right offset n).trans_eq hn
        · exact hn.symm.trans_le (hsize n rfl)
    · simp only [hrun]
      rfl

/-! ## Grammars that say the same -/

theorem Entry.throughoutAll_append {checkerOk : Checker → Prop} {entryOk : Entry → Prop}
    {es later : List Entry} : Entry.ThroughoutAll checkerOk entryOk (es ++ later) ↔
      Entry.ThroughoutAll checkerOk entryOk es ∧ Entry.ThroughoutAll checkerOk entryOk later := by
  simp only [Entry.throughoutAll_iff, List.forall_mem_append]

/-- A checker is matched, or its grammar walked. -/
theorem Target.Echoes.checker {env : TypeEnv} {own : Grammar → Grammar → Prop} {c c' : Checker}
    (h : Target.Echoes L env own (.checker c) (.checker c')) : c.Echoes L env c' := by
  cases h with
  | closed hc _ _ => exact hc
  | walked hg _ _ => exact .grammar hg

/-- Checkers that are no grammars are matched at once. -/
theorem Checker.Echoes.target {env : TypeEnv} {own : Grammar → Grammar → Prop} {c c' : Checker}
    (h : c.Echoes L env c') (hc : ∀ g, c ≠ .grammar g) (hc' : ∀ g, c' ≠ .grammar g) :
    Target.Echoes L env own (.checker c) (.checker c') :=
  .closed h (fun g hg => absurd hg (hc g)) fun g hg => absurd hg (hc' g)

section

variable {env : TypeEnv} {refOk : TypeRef → Prop}

/-- Grammars whose entries are passed alike belong together. -/
def Grammar.Belong (L : Type) [FailureLog L] (env : TypeEnv) (g g' : Grammar) : Prop :=
  Entry.PassAlike L env g.entries g'.entries

mutual

theorem Checker.Restated.target (hrefs : ∀ r, refOk r → env.AnswersAlike L r) : ∀ {c c' : Checker},
    Checker.Restated env.classes c c' → c.Throughout (fun _ => True) (Entry.Refers refOk) →
      Target.Echoes L env (Grammar.Belong L env) (.checker c) (.checker c')
  | _, _, .char h, _ => (Checker.Echoes.char h).target (by simp) (by simp)
  | _, _, .any width, _ => (Checker.Echoes.any width).target (by simp) (by simp)
  | _, _, .literal h h', _ =>
    (Checker.Echoes.literal h h').target (Checker.HasLength.letters (L := L) h).leaf.not_grammar
      (Checker.HasLength.letters (L := L) h').leaf.not_grammar
  | _, _, .oneOf hcs hfallback, hrefers =>
    (Checker.Echoes.oneOf (Checker.AllRestated.echoes hrefs hcs hrefers.2.1)
      (Checker.OptionRestated.echoes hrefs hfallback hrefers.2.2)).target (by simp) (by simp)
  | _, _, .not h, hrefers =>
    (Checker.Echoes.not (Checker.Restated.target hrefs h hrefers.2).checker).target
      (by simp) (by simp)
  | _, _, .grammar h, hrefers =>
    have hpass := Entry.AllRestated.passAlike hrefs h hrefers.2
    have hsure : Entry.allDeterministic _ = Entry.allDeterministic _ :=
      Entry.AllRestated.allDeterministic h
    .walked hpass.echoes (congrArg (· != some true) hsure) hpass
  | _, _, .fused h, _ => by
    obtain ⟨_, hc, _⟩ := h.take (L := L)
    have hsure := h.allDeterministic []
    rw [List.append_nil] at hsure
    refine .closed (.fused h) (fun g hg => ?_) fun g hg => absurd hg (hc.leaf.not_grammar g)
    obtain rfl := Checker.grammar.inj hg
    exact bne_eq_false_iff_eq.mpr hsure

theorem Checker.AllRestated.echoes (hrefs : ∀ r, refOk r → env.AnswersAlike L r) :
    ∀ {cs cs' : List Checker}, Checker.AllRestated env.classes cs cs' →
      Checker.ThroughoutAll (fun _ => True) (Entry.Refers refOk) cs →
        List.Forall₂ (Checker.Echoes L env) cs cs'
  | _, _, .nil, _ => .nil
  | _, _, .cons h hlater, hrefers =>
    .cons (Checker.Restated.target hrefs h hrefers.1).checker
      (Checker.AllRestated.echoes hrefs hlater hrefers.2)

theorem Checker.OptionRestated.echoes (hrefs : ∀ r, refOk r → env.AnswersAlike L r) :
    ∀ {c c' : Option Checker}, Checker.OptionRestated env.classes c c' →
      Checker.ThroughoutOption (fun _ => True) (Entry.Refers refOk) c →
        Option.Rel (Checker.Echoes L env) c c'
  | _, _, .none, _ => .none
  | _, _, .some h, hrefers => .some (Checker.Restated.target hrefs h hrefers).checker

theorem Entry.AllRestated.passAlike (hrefs : ∀ r, refOk r → env.AnswersAlike L r) :
    ∀ {es es' : List Entry}, Entry.AllRestated env.classes es es' →
      Entry.ThroughoutAll (fun _ => True) (Entry.Refers refOk) es → Entry.PassAlike L env es es'
  | _, _, .nil, _ => .nil
  | _, _, .cons h hlater, hrefers =>
    have hentry := Entry.Restated.echoes hrefs h hrefers.1
    .cons hentry.1 hentry.2 (Entry.AllRestated.passAlike hrefs hlater hrefers.2)
  | _, _, .fused h hlater, hrefers =>
    .fused h (Entry.AllRestated.passAlike hrefs hlater (Entry.throughoutAll_append.mp hrefers).2)

theorem Entry.Restated.echoes (hrefs : ∀ r, refOk r → env.AnswersAlike L r) : ∀ {e e' : Entry},
    Entry.Restated env.classes e e' → e.Throughout (fun _ => True) (Entry.Refers refOk) →
      e.Echoes L env e' ∧ e.target.Echoes L env (Grammar.Belong L env) e'.target
  | _, _, .intro htarget hq hsecond, hrefers =>
    ⟨⟨rfl, hq, Grammar.OptionRestated.echoes hrefs hsecond hrefers.2.2⟩,
      Target.Restated.echoes hrefs htarget hrefers.1 hrefers.2.1⟩

theorem Target.Restated.echoes (hrefs : ∀ r, refOk r → env.AnswersAlike L r)
    {capture : Option Capture} {q : Quantifier} {second : Option Grammar} :
    ∀ {target target' : Target}, Target.Restated env.classes target target' →
      Entry.Refers refOk ⟨capture, target, q, second⟩ →
        target.Throughout (fun _ => True) (Entry.Refers refOk) →
          target.Echoes L env (Grammar.Belong L env) target'
  | _, _, .checker h, _, hrefers => Checker.Restated.target hrefs h hrefers
  | _, _, .ref r, hrefers, _ => .ref (hrefs r hrefers)

theorem Grammar.OptionRestated.echoes (hrefs : ∀ r, refOk r → env.AnswersAlike L r) :
    ∀ {g g' : Option Grammar}, Grammar.OptionRestated env.classes g g' →
      Grammar.ThroughoutOption (fun _ => True) (Entry.Refers refOk) g →
        Option.Rel (Grammar.Echoes L env) g g'
  | _, _, .none, _ => .none
  | _, _, .some h, hrefers => .some (Entry.AllRestated.passAlike hrefs h hrefers).echoes

end

/-- **A grammar that says the same comes to the same**, if each type it refers to gives the same
checkers wherever the marks around are the same. -/
theorem Grammar.Restated.echoes {g g' : Grammar} (hrefs : ∀ r, refOk r → env.AnswersAlike L r)
    (h : g.Restated env.classes g') (hrefers : g.Throughout (fun _ => True) (Entry.Refers refOk)) :
    g.Echoes L env g' := by
  obtain ⟨es⟩ := g
  exact (Entry.AllRestated.passAlike hrefs h hrefers).echoes

end

end TextGrammar
