/-
How a search ends, apart from the number of steps it is allowed: `Machine.Ends`
says that from some number on the answer is always the same. A step carries it
back from the state after the step, and giving up carries it back from the
newest snapshot that leaves something to try.
-/
import Mathlib.Order.Filter.AtTopBot.Basic
import TextGrammar.Proofs.States
import TextGrammar.Proofs.Trace

open Filter (atTop)

namespace TextGrammar

variable {L : Type} [FailureLog L] {setting : Setting} {mode : Mode}
  {result : Seen L (Option Match)}

/-- What holds one step later from some number of steps on, holds from some number of steps on. -/
theorem eventually_of_succ {p : Nat → Prop} (h : ∀ᶠ n in atTop, p (n + 1)) :
    ∀ᶠ n in atTop, p n := by
  rwa [← Filter.map_add_atTop_eq_nat 1, Filter.eventually_map]

section

variable {ε α β : Type} {x : Nat → Except ε α} {f : Nat → α → Except ε β}

theorem eventually_bind_of_ok {a : α} {y : Except ε β} (hx : ∀ᶠ n in atTop, x n = .ok a)
    (hf : ∀ᶠ n in atTop, f n a = y) : ∀ᶠ n in atTop, x n >>= f n = y := by
  filter_upwards [hx, hf] with n hx hf
  rw [hx]
  exact hf

theorem eventually_bind_of_error {e : ε} (hx : ∀ᶠ n in atTop, x n = .error e) :
    ∀ᶠ n in atTop, x n >>= f n = .error e := by
  filter_upwards [hx] with n hx
  rw [hx]
  rfl

end

theorem Machine.run_succ (fuel : Nat) (m : Machine L) :
    Machine.run (fuel + 1) setting mode m =
      match m.step (runWithin fuel) setting mode with
      | .error stop => .error stop
      | .ok (.done result failures) => .ok ⟨result, failures⟩
      | .ok (.next next) => Machine.run fuel setting mode next := by
  rw [Machine.run]
  rfl

/-- What the search comes to from a step, within so many steps more. -/
def Step.answer (setting : Setting) (mode : Mode) (fuel : Nat) :
    Step L → Except Stop (Seen L (Option Match))
  | .next m => Machine.run fuel setting mode m
  | .done value failures => .ok ⟨value, failures⟩

/-- A run makes one step and goes on from what it leads to. -/
theorem Machine.run_eq_bind (fuel : Nat) (m : Machine L) :
    Machine.run (fuel + 1) setting mode m =
      m.step (runWithin fuel) setting mode >>= Step.answer setting mode fuel := by
  rw [Machine.run_succ]
  rcases m.step (runWithin fuel) setting mode with _ | _ | _ <;> rfl

/-- With enough steps the search from this state ends with the result. -/
def Machine.Ends (setting : Setting) (mode : Mode) (result : Seen L (Option Match))
    (m : Machine L) : Prop :=
  ∀ᶠ fuel in atTop, Machine.run fuel setting mode m = .ok result

/-- The search ends with the result from what a step leads to. -/
def Step.Ends (setting : Setting) (mode : Mode) (result : Seen L (Option Match)) : Step L → Prop
  | .next m => m.Ends setting mode result
  | .done value failures => ⟨value, failures⟩ = result

/-- A step that is the same with every large enough number of steps for the searches in it. -/
theorem Machine.Ends.of_eventually_step {m : Machine L} {s : Step L}
    (hs : ∀ᶠ fuel in atTop, m.step (runWithin fuel) setting mode = .ok s)
    (h : s.Ends setting mode result) : m.Ends setting mode result := by
  refine eventually_of_succ ?_
  simp only [Machine.run_eq_bind]
  refine eventually_bind_of_ok hs ?_
  cases s with
  | done value failures => exact .of_forall fun _ => congrArg Except.ok h
  | next m' => exact h

/-- A step without searches in it. -/
theorem Machine.Ends.of_step {m : Machine L} {s : Step L}
    (hs : ∀ run : Runner L, m.step run setting mode = .ok s) (h : s.Ends setting mode result) :
    m.Ends setting mode result :=
  .of_eventually_step (Filter.Eventually.of_forall fun _ => hs _) h

/-! ## Giving up -/

/-- The search ends with the result when it gives up with these snapshots and failures. -/
def Fails (setting : Setting) (mode : Mode) (result : Seen L (Option Match))
    (snapshots : Array Snapshot) (failures : L) : Prop :=
  (Machine.giveUp ⟨[], snapshots, 0, false, failures, []⟩).Ends setting mode result

/-- Giving up looks at nothing but the snapshots. -/
theorem Fails.giveUp {sessions : List Session} {snapshots : Array Snapshot} {offset : Nat}
    {forced : Bool} {failures : L} (h : Fails setting mode result snapshots failures) :
    (Machine.giveUp ⟨sessions, snapshots, offset, forced, failures, []⟩).Ends setting mode
      result := by
  have hsame : Machine.giveUp ⟨sessions, snapshots, offset, forced, failures, []⟩ =
      Machine.giveUp ⟨[], snapshots, 0, false, failures, []⟩ := Machine.giveUp_congr rfl rfl rfl
  rw [hsame]
  exact h

theorem Fails.empty {failures : L} (h : (⟨none, failures⟩ : Seen L (Option Match)) = result) :
    Fails setting mode result #[] failures := h

/-- Giving up with one snapshot more is to resume there, or else to give up without it. -/
theorem Fails.push {snapshots : Array Snapshot} {snapshot : Snapshot} {failures : L}
    (h : match Machine.resume ⟨[], snapshots, 0, false, failures, []⟩ snapshot with
      | some m => m.Ends setting mode result
      | none => Fails setting mode result snapshots failures) :
    Fails setting mode result (snapshots.push snapshot) failures := by
  have hback := Machine.giveUp_push (⟨[], snapshots, 0, false, failures, []⟩ : Machine L) snapshot
  cases hr : Machine.resume (⟨[], snapshots, 0, false, failures, []⟩ : Machine L) snapshot with
  | some m =>
    rw [hr] at h hback
    rw [Fails, hback]
    exact h
  | none =>
    rw [hr] at h hback
    rw [Fails, hback]
    exact h

end TextGrammar
