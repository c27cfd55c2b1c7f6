/-
Traces: what a backtracking search meets, in order. A trace lists outcomes, each
with the failures met since the outcome before it, and ends with the failures
met after the last one. Traces follow one another (`++`), and every outcome of a
trace can be replaced by a trace of its own (`bind`).
-/
import TextGrammar.Search.Tree

namespace TextGrammar

/-- Failures merge in the order in which they are met, however they are grouped. -/
class LawfulFailureLog (L : Type) [FailureLog L] : Prop where
  empty_merge (a : L) : FailureLog.merge FailureLog.empty a = a
  merge_empty (a : L) : FailureLog.merge a FailureLog.empty = a
  merge_assoc (a b c : L) :
    FailureLog.merge (FailureLog.merge a b) c = FailureLog.merge a (FailureLog.merge b c)

attribute [simp] LawfulFailureLog.empty_merge LawfulFailureLog.merge_empty

instance : LawfulFailureLog (Option Failure) where
  empty_merge a := by cases a <;> rfl
  merge_empty := furthest_none
  merge_assoc := furthest_assoc

/-- What a search meets, in order. -/
inductive Trace (L α : Type) where
  /-- There is no outcome left, only failures. -/
  | done (failures : L)
  /-- Failures, an outcome, and what comes after it. -/
  | offer (failures : L) (outcome : α) (later : Trace L α)

namespace Trace

variable {L α β γ : Type} [FailureLog L]

/-- The outcomes alone. -/
def values : Trace L α → List α
  | done _ => []
  | offer _ a later => a :: later.values

/-- The trace with failures met before it. -/
def preceded (failures : L) : Trace L α → Trace L α
  | done l => done (FailureLog.merge failures l)
  | offer l a later => offer (FailureLog.merge failures l) a later

def append : Trace L α → Trace L α → Trace L α
  | done l, u => u.preceded l
  | offer l a later, u => offer l a (later.append u)

instance : Append (Trace L α) := ⟨append⟩

/-- No outcome and no failure. -/
def nothing : Trace L α := done FailureLog.empty

/-- One outcome after some failures, and no failure after it. -/
def once (failures : L) (a : α) : Trace L α := offer failures a nothing

/-- One outcome and no failure. -/
def one (a : α) : Trace L α := once FailureLog.empty a

/-- The trace of a search with one answer. -/
def ofSeen (seen : Seen L (Option α)) : Trace L α :=
  match seen.value with
  | some a => once seen.failures a
  | none => done seen.failures

/-- Every outcome replaced by a trace of its own. -/
def bind : Trace L α → (α → Trace L β) → Trace L β
  | done l, _ => done l
  | offer l a later, k => (k a ++ later.bind k).preceded l

def map (f : α → β) : Trace L α → Trace L β
  | done l => done l
  | offer l a later => offer l (f a) (later.map f)

theorem done_append (l : L) (u : Trace L α) : done l ++ u = u.preceded l := rfl

theorem offer_append (l : L) (a : α) (t u : Trace L α) : offer l a t ++ u = offer l a (t ++ u) := rfl

/-! ## Laws -/

section

variable [LawfulFailureLog L]

@[simp] theorem preceded_empty (t : Trace L α) : t.preceded FailureLog.empty = t := by
  cases t <;> simp [preceded]

@[simp] theorem preceded_preceded (a b : L) (t : Trace L α) :
    (t.preceded b).preceded a = t.preceded (FailureLog.merge a b) := by
  cases t <;> simp [preceded, LawfulFailureLog.merge_assoc]

theorem preceded_append (l : L) (t u : Trace L α) : (t ++ u).preceded l = t.preceded l ++ u := by
  cases t with
  | done l' => rw [done_append, preceded_preceded, preceded, done_append]
  | offer l' a t => rfl

theorem append_assoc (t u v : Trace L α) : t ++ u ++ v = t ++ (u ++ v) := by
  induction t with
  | done l => rw [done_append, done_append, preceded_append]
  | offer l a t ih => rw [offer_append, offer_append, offer_append, ih]

@[simp] theorem append_nothing (t : Trace L α) : t ++ nothing = t := by
  induction t with
  | done l => simp [nothing, done_append, preceded]
  | offer l a t ih => rw [offer_append, ih]

theorem bind_preceded (l : L) (t : Trace L α) (k : α → Trace L β) :
    (t.preceded l).bind k = (t.bind k).preceded l := by
  cases t with
  | done l' => rfl
  | offer l' a t => rw [preceded, bind, bind, preceded_preceded]

theorem bind_append (t u : Trace L α) (k : α → Trace L β) :
    (t ++ u).bind k = t.bind k ++ u.bind k := by
  induction t with
  | done l => rw [done_append, bind_preceded]; rfl
  | offer l a t ih => rw [offer_append, bind, bind, ih, ← append_assoc, preceded_append]

theorem bind_assoc (t : Trace L α) (k : α → Trace L β) (j : β → Trace L γ) :
    (t.bind k).bind j = t.bind fun a => (k a).bind j := by
  induction t with
  | done l => rfl
  | offer l a t ih => rw [bind, bind_preceded, bind_append, ih, bind]

theorem once_bind (l : L) (a : α) (k : α → Trace L β) : (once l a).bind k = (k a).preceded l := by
  simp only [once, bind, nothing]
  rw [← nothing, append_nothing]

end

theorem map_bind (t : Trace L α) (f : α → β) (k : β → Trace L γ) :
    (t.map f).bind k = t.bind fun a => k (f a) := by
  induction t with
  | done l => rfl
  | offer l a t ih => simp only [map, bind, ih]

theorem bind_congr {t : Trace L α} {k k' : α → Trace L β} (h : ∀ a ∈ t.values, k a = k' a) :
    t.bind k = t.bind k' := by
  induction t with
  | done l => rfl
  | offer l a t ih =>
    simp only [values, List.forall_mem_cons] at h
    simp only [bind, h.1, ih h.2]

/-! ## Outcomes of a trace -/

omit [FailureLog L] in
@[simp] theorem values_done (l : L) : (done l : Trace L α).values = [] := rfl

@[simp] theorem values_nothing : (nothing : Trace L α).values = [] := rfl

@[simp] theorem values_once (l : L) (a : α) : (once l a).values = [a] := rfl

@[simp] theorem values_one (a : α) : (one a : Trace L α).values = [a] := rfl

@[simp] theorem values_preceded (l : L) (t : Trace L α) : (t.preceded l).values = t.values := by
  cases t <;> rfl

@[simp] theorem values_append (t u : Trace L α) : (t ++ u).values = t.values ++ u.values := by
  induction t with
  | done l => rw [done_append, values_preceded]; rfl
  | offer l a t ih => rw [offer_append, values, ih]; rfl

@[simp] theorem values_bind (t : Trace L α) (k : α → Trace L β) :
    (t.bind k).values = t.values.flatMap fun a => (k a).values := by
  induction t with
  | done l => rfl
  | offer l a t ih => simp only [bind, values_preceded, values_append, ih, values, List.flatMap_cons]

omit [FailureLog L] in
@[simp] theorem values_map (f : α → β) (t : Trace L α) : (t.map f).values = t.values.map f := by
  induction t with
  | done l => rfl
  | offer l a t ih => simp only [map, values, ih, List.map_cons]

@[simp] theorem values_ofSeen (seen : Seen L (Option α)) :
    (ofSeen seen).values = seen.value.toList := by
  simp only [ofSeen]
  split <;> simp_all

/-! ## The answer of a search -/

/-- How a search ends that meets this trace: with the first outcome that its mode accepts. Over
anything else it fails, for want of the end of the text. -/
def settle (mode : Mode) (size : Nat) : Trace L Match → Seen L (Option Match)
  | done l => ⟨none, l⟩
  | offer l m later =>
    if mode == .whole && m.stop != size then
      let rest := later.settle mode size
      ⟨rest.value, FailureLog.merge (FailureLog.merge l (FailureLog.of ⟨m.stop, .endOfInput, 0⟩))
        rest.failures⟩
    else ⟨some m, l⟩

theorem settle_beginning (size : Nat) (t : Trace L Match) :
    (t.settle .beginning size).value = t.values.head? := by
  cases t <;> rfl

theorem settle_whole (size : Nat) (t : Trace L Match) :
    (t.settle .whole size).value = t.values.find? (·.stop == size) := by
  induction t with
  | done l => rfl
  | offer l m t ih =>
    simp only [settle, values, List.find?_cons]
    by_cases h : m.stop = size
    · simp [h]
    · simp only [bne_iff_ne, ne_eq, h, not_false_eq_true, beq_self_eq_true, Bool.true_and, ite_true,
        ih, beq_eq_false_iff_ne.mpr h]

end Trace

end TextGrammar
