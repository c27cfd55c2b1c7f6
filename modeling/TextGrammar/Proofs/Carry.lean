/-
How a trace describes a search that can come back. A search that meets a trace
passes its first outcome on, and leaves snapshots above those it started with;
when what follows fails, it comes back through them to the rest of the trace.
`Trace.Carries` says that this is enough for the search to succeed in its
purpose: `fails` with snapshots alone, `found` with an outcome and snapshots.

The snapshots below may be other ones by the time the search comes back, as a
nested search may have closed one of them, but there are as many of them.
-/
import TextGrammar.Proofs.Trace

namespace TextGrammar

variable {L α β σ : Type} [FailureLog L] {fails : Array σ → L → Prop}
  {found : α → Array σ → L → Prop} {found' : β → Array σ → L → Prop}

/-- Whatever snapshots `above` the search leaves with an outcome, if failing into them goes on with
the rest of the trace, the outcome is found with them. -/
def Trace.Carries (fails : Array σ → L → Prop) (found : α → Array σ → L → Prop) :
    Trace L α → Array σ → L → Prop
  | .done l, base, failures => fails base (FailureLog.merge failures l)
  | .offer l a later, base, failures => ∀ above : Array σ,
    (∀ base' failures', base'.size = base.size → later.Carries fails found base' failures' →
      fails (base' ++ above) failures') →
    found a (base ++ above) (FailureLog.merge failures l)

namespace Trace.Carries

theorem map_iff {f : α → β} {t : Trace L α} {base : Array σ} {failures : L} :
    (t.map f).Carries fails found' base failures ↔
      t.Carries fails (fun a => found' (f a)) base failures := by
  induction t generalizing base failures with
  | done l => rfl
  | offer l a t ih => simp only [map, Carries, ih]

section

variable [LawfulFailureLog L]

theorem preceded_iff {l : L} {t : Trace L α} {base : Array σ} {failures : L} :
    (t.preceded l).Carries fails found base failures ↔
      t.Carries fails found base (FailureLog.merge failures l) := by
  cases t <;> simp only [preceded, Carries, LawfulFailureLog.merge_assoc]

theorem nothing_iff {base : Array σ} {failures : L} :
    (nothing : Trace L α).Carries fails found base failures ↔ fails base failures := by
  simp only [nothing, Carries, LawfulFailureLog.merge_empty]

/-- A single outcome leaves no snapshot behind. -/
theorem of_once {l : L} {a : α} {base : Array σ} {failures : L}
    (h : (once l a).Carries fails found base failures) :
    found a base (FailureLog.merge failures l) := by
  have := h #[] fun base' failures' _ hrest => by simpa using nothing_iff.mp hrest
  simpa using this

theorem of_one {a : α} {base : Array σ} {failures : L}
    (h : (one a).Carries fails found base failures) : found a base failures := by
  simpa using of_once h

/-- The first of two traces, above snapshots that lead to the second. -/
theorem of_append {t u : Trace L α} {base : Array σ} {failures : L}
    (h : (t ++ u).Carries fails found base failures) {above : Array σ}
    (hu : ∀ base' failures', base'.size = base.size → u.Carries fails found base' failures' →
      fails (base' ++ above) failures') :
    t.Carries fails found (base ++ above) failures := by
  induction t generalizing base failures above with
  | done l =>
    rw [done_append, preceded_iff] at h
    exact hu base _ rfl h
  | offer l a t ih =>
    intro above' hback
    rw [Array.append_assoc]
    refine h (above ++ above') fun base' failures' hsize hrest => ?_
    rw [← Array.append_assoc]
    refine hback (base' ++ above) failures' (by simp [hsize]) ?_
    exact ih hrest fun b f hb => hu b f (hb.trans hsize)

/-- A trace whose outcomes are passed on to a search that meets a trace itself, inside of a
snapshot. The snapshot may change when an outcome is passed on (from `before` to `after`); failing
into the changed one goes on with `tail`. -/
theorem enclosed {t : Trace L α} {k : α → Trace L β} {tail : Trace L β} {before after : σ} {n : Nat}
    (hfails : ∀ base failures, base.size = n → tail.Carries fails found' base failures →
      fails (base.push after) failures)
    (hfound : ∀ a ∈ t.values, ∀ (base : Array σ) snapshot above failures, base.size = n →
      snapshot = before ∨ snapshot = after →
      (k a).Carries fails found' (base.push after ++ above) failures →
      found a (base.push snapshot ++ above) failures)
    {base : Array σ} {failures : L} (hsize : base.size = n)
    (hbarren : t.values = [] → before = after)
    (h : (t.bind k ++ tail).Carries fails found' base failures) :
    t.Carries fails found (base.push before) failures := by
  suffices H : ∀ snapshot, snapshot = before ∨ snapshot = after →
      (t.values = [] → snapshot = after) →
      t.Carries fails found (base.push snapshot) failures from H before (.inl rfl) hbarren
  clear hbarren
  induction t generalizing base failures with
  | done l =>
    intro snapshot _ hbarren
    rw [hbarren rfl]
    rw [bind, done_append, preceded_iff] at h
    exact hfails base _ hsize h
  | offer l a t ih =>
    intro snapshot hs _ above hback
    rw [bind, ← preceded_append, preceded_iff, append_assoc] at h
    refine hfound a (by simp [values]) base snapshot above _ hsize hs ?_
    rw [Array.push_eq_append, Array.append_assoc]
    refine of_append h fun base' failures' hsize' hrest => ?_
    rw [← Array.append_assoc, ← Array.push_eq_append]
    refine hback _ _ (by simp [hsize']) ?_
    -- once an outcome is passed on, the snapshot has changed
    exact ih (fun b hb => hfound b (by simp [values, hb])) (hsize'.trans hsize) hrest after
      (.inr rfl)
      fun _ => rfl

/-- Every outcome of a trace replaced by the trace of a search that it is passed on to. -/
theorem of_bind {t : Trace L α} {k : α → Trace L β} {base : Array σ} {failures : L}
    (hfound : ∀ a ∈ t.values, ∀ base failures, (k a).Carries fails found' base failures →
      found a base failures)
    (h : (t.bind k).Carries fails found' base failures) : t.Carries fails found base failures := by
  induction t generalizing base failures with
  | done l => exact h
  | offer l a t ih =>
    intro above hback
    rw [bind, preceded_iff] at h
    refine hfound a (by simp [values]) _ _ (of_append h fun base' failures' hsize hrest => ?_)
    exact hback base' failures' hsize (ih (fun b hb => hfound b (by simp [values, hb])) hrest)

end

end Trace.Carries

end TextGrammar
