/-
Characters at an offset of a text, as lists: what a word needs to stand there,
what slices take, and what is left of the text from there on.
-/
import TextGrammar.Search.Length
import Mathlib.Data.List.Infix

namespace TextGrammar.Text

variable {text : Text} {offset start stop : Nat} {cs : List Char}

theorem toList_slice (text : Text) (start stop : Nat) :
    (text.slice start stop).toList = (text.toList.drop start).take (stop - start) := by
  rw [slice, Array.toList_extract, List.extract_eq_take_drop]

/-- A slice of a beginning of the text is one of the text. -/
theorem slice_beginning {size : Nat} (h : stop ≤ size) :
    (text.slice 0 size).slice start stop = text.slice start stop := by
  simp only [slice, Array.extract_extract, Nat.zero_add, Nat.min_eq_left h]

/-- The text has the characters at an offset if they are the first ones from there on. -/
theorem hasAt_iff : text.hasAt offset cs = true ↔ cs <+: text.toList.drop offset := by
  induction cs generalizing offset with
  | nil => exact ⟨fun _ => List.nil_prefix, fun _ => rfl⟩
  | cons c cs ih =>
    rw [hasAt, Bool.and_eq_true, beq_iff_eq, ih, ← Array.getElem?_toList, ← List.head?_drop,
      ← List.tail_drop]
    cases text.toList.drop offset with
    | nil =>
      constructor
      · exact fun h => nomatch h.1
      · exact fun h => nomatch List.prefix_nil.mp h
    | cons d ds =>
      rw [List.head?_cons, List.tail_cons, List.cons_prefix_cons, Option.some.injEq, eq_comm]

theorem hasAt_le (h : text.hasAt offset cs = true) (hoffset : offset ≤ text.size) :
    offset + cs.length ≤ text.size := by
  have hle := (hasAt_iff.mp h).length_le
  have hlength : text.toList.length = text.size := rfl
  rw [List.length_drop] at hle
  omega

theorem slice_of_hasAt (h : text.hasAt offset cs = true) :
    text.slice offset (offset + cs.length) = cs.toArray := by
  apply Array.toList_inj.mp
  rw [toList_slice, Nat.add_sub_cancel_left]
  exact (List.prefix_iff_eq_take.mp (hasAt_iff.mp h)).symm

/-- What is so of the character at an offset is so of any that is found there. -/
theorem only_at {c : Char} {p : Char → Prop} (h : text[offset]? = some c) (hc : p c) :
    ∀ d, text[offset]? = some d → p d := by
  intro d hd
  obtain rfl := Option.some.inj (h.symm.trans hd)
  exact hc

theorem no_other_at {c d : Char} (h : text[offset]? = some c) (hne : c ≠ d) :
    text[offset]? ≠ some d := fun hd => hne (Option.some.inj (h.symm.trans hd))

/-! ## What is left of a text -/

/-- The text has these characters from the offset on, and no more. -/
def LeftAt (text : Text) (offset : Nat) (cs : List Char) : Prop := text.toList.drop offset = cs

namespace LeftAt

variable {rest : List Char} {c : Char}

theorem ofString (s : String) : (Text.ofString s).LeftAt 0 s.toList := rfl

theorem head (h : text.LeftAt offset cs) : text[offset]? = cs.head? := by
  rw [← Array.getElem?_toList, ← List.head?_drop, h]

theorem of_get (h : text[offset]? = some c) :
    text.LeftAt offset (c :: text.toList.drop (offset + 1)) := by
  rw [← Array.getElem?_toList] at h
  obtain ⟨hlt, rfl⟩ := List.getElem?_eq_some_iff.mp h
  exact List.drop_eq_getElem_cons hlt

theorem get (h : text.LeftAt offset (c :: rest)) : text[offset]? = some c := h.head

theorem skip (h : text.LeftAt offset (cs ++ rest)) : text.LeftAt (offset + cs.length) rest := by
  rw [LeftAt, ← List.drop_drop, h, List.drop_left]

theorem next (h : text.LeftAt offset (c :: rest)) : text.LeftAt (offset + 1) rest := by
  rw [← List.singleton_append] at h
  exact h.skip

theorem slice (h : text.LeftAt offset (cs ++ rest)) :
    (text.slice offset (offset + cs.length)).toList = cs := by
  rw [toList_slice, h, Nat.add_sub_cancel_left, List.take_left]

theorem size (h : text.LeftAt offset cs) (hle : offset ≤ text.size) :
    offset + cs.length = text.size := by
  rw [← h, List.length_drop, Array.length_toList]
  omega

end LeftAt

end TextGrammar.Text
