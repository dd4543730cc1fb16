import Mathlib.Algebra.BigOperators.Group.Finset.Basic
import Mathlib.Algebra.Order.Ring.Nat

/-!
# Moving a list in pieces

A list is read in pieces, whose sizes are not known beforehand, until nothing more comes
(`cut`): what has been read is the list exactly if nothing comes only at its end
(`flatten_cut_iff`).

Pieces are moved one by one, and of each perhaps only a first part (`moved`), or through
a buffer, which keeps some of what it has taken for later (`Buffer.moved`). What arrives
is never longer than what was to be moved, so everything arrives only if each piece is
moved whole (`moved_eq_flatten_iff`, `Buffer.moved_eq_iff`): what one piece loses, no
other can make up for.
-/

namespace Pieces

variable {α : Type*} {quota : ℕ → Option ℕ} {size : ℕ → ℕ} {n q fuel : ℕ} {piece l held : List α}
  {pieces : List (List α)}

/-! ## Reading in pieces -/

/-- **A list as it is read**: at the `n`-th time the next `size n` elements, until nothing
comes. -/
def cut (size : ℕ → ℕ) : ℕ → ℕ → List α → List (List α)
  | 0, _, _ => []
  | fuel + 1, n, l =>
    if l.take (size n) = [] then []
    else l.take (size n) :: cut size fuel (n + 1) (l.drop (size n))

theorem ne_nil_of_mem_cut (h : piece ∈ cut size fuel n l) : piece ≠ [] := by
  induction fuel generalizing n l with
  | zero => exact absurd h List.not_mem_nil
  | succ fuel ih =>
    rw [cut] at h
    split at h
    · exact absurd h List.not_mem_nil
    · next hne =>
      rcases List.mem_cons.mp h with rfl | h
      · exact hne
      · exact ih h

/-- **What has been read is the list** exactly if nothing comes only when all of it has
come before. -/
theorem flatten_cut_iff (hfuel : l.length < fuel) :
    (cut size fuel n l).flatten = l
      ↔ ∀ m, size (n + m) = 0 → l.length ≤ (Finset.range m).sum fun j => size (n + j) := by
  induction fuel generalizing n l with
  | zero => exact absurd hfuel (Nat.not_lt_zero _)
  | succ fuel ih =>
    rw [cut]
    by_cases hl : l = []
    · subst hl
      rw [List.take_nil, if_pos rfl]
      exact ⟨fun _ m _ => Nat.zero_le _, fun _ => rfl⟩
    have hpos : 0 < l.length := List.length_pos_iff.mpr hl
    by_cases hzero : size n = 0
    · rw [hzero, List.take_zero, if_pos rfl]
      refine ⟨fun h => absurd h.symm hl, fun h => ?_⟩
      have hle : l.length ≤ 0 := h 0 hzero
      exact absurd hpos (Nat.not_lt_of_le hle)
    have htake : l.take (size n) ≠ [] := by
      rw [Ne, List.take_eq_nil_iff]
      exact not_or.mpr ⟨hzero, hl⟩
    have hdrop : (l.drop (size n)).length < fuel := by
      rw [List.length_drop]
      omega
    have hrest : (l.take (size n) ++ (cut size fuel (n + 1) (l.drop (size n))).flatten = l)
        ↔ (cut size fuel (n + 1) (l.drop (size n))).flatten = l.drop (size n) := by
      conv_lhs => rhs; rw [← List.take_append_drop (size n) l]
      exact List.append_right_inj _
    rw [if_neg htake, List.flatten_cons, hrest, ih hdrop]
    constructor
    · rintro h (_ | m) hm
      · exact absurd hm hzero
      · have hle := h m (by rwa [Nat.add_right_comm])
        rw [List.length_drop] at hle
        rw [Finset.sum_range_succ']
        simp only [Nat.add_right_comm n 1] at hle
        exact Nat.le_add_of_sub_le hle
    · intro h m hm
      have hle := h (m + 1) (by rwa [Nat.add_right_comm] at hm)
      rw [Finset.sum_range_succ'] at hle
      rw [List.length_drop]
      simp only [Nat.add_right_comm n 1]
      exact Nat.sub_le_of_le_add hle

/-! ## Piece by piece -/

/-- **What arrives of some pieces**: of the `n`-th, the first elements up to its quota.
Where there is no quota, nothing arrives any more. -/
def moved (quota : ℕ → Option ℕ) : ℕ → List (List α) → List α
  | _, [] => []
  | n, piece :: pieces =>
    match quota n with
    | some q => piece.take q ++ moved quota (n + 1) pieces
    | none => []

theorem moved_cons_some (h : quota n = some q) :
    moved quota n (piece :: pieces) = piece.take q ++ moved quota (n + 1) pieces := by
  rw [moved, h]

theorem moved_cons_none (h : quota n = none) : moved quota n (piece :: pieces) = [] := by
  rw [moved, h]

/-- No more arrives than was there. -/
theorem length_moved_le : (moved quota n pieces).length ≤ pieces.flatten.length := by
  induction pieces generalizing n with
  | nil => exact Nat.le_refl _
  | cons piece pieces ih =>
    cases hq : quota n with
    | none =>
      rw [moved_cons_none hq]
      exact Nat.zero_le _
    | some q =>
      rw [moved_cons_some hq, List.flatten_cons, List.length_append, List.length_append]
      exact Nat.add_le_add (List.length_take_le' _ _) ih

/-- The first piece and the others are moved whole, or not everything arrives. -/
theorem moved_cons_iff (hne : piece ≠ []) :
    moved quota n (piece :: pieces) = (piece :: pieces).flatten
      ↔ (∃ q, quota n = some q ∧ piece.length ≤ q)
        ∧ moved quota (n + 1) pieces = pieces.flatten := by
  rw [List.flatten_cons]
  cases hq : quota n with
  | none =>
    rw [moved_cons_none hq]
    constructor
    · intro h
      exact absurd (List.append_eq_nil_iff.mp h.symm).1 hne
    · rintro ⟨⟨q, hsome, -⟩, -⟩
      exact absurd hsome (Option.some_ne_none q).symm
  | some q =>
    rw [moved_cons_some hq]
    constructor
    · intro h
      have hlen := congrArg List.length h
      have hrest : (moved quota (n + 1) pieces).length ≤ pieces.flatten.length := length_moved_le
      rw [List.length_append, List.length_append, List.length_take] at hlen
      have hle : piece.length ≤ q := by omega
      rw [List.take_of_length_le hle] at h
      exact ⟨⟨q, rfl, hle⟩, List.append_cancel_left h⟩
    · rintro ⟨⟨q', hq', hle⟩, h⟩
      obtain rfl := Option.some.inj hq'
      rw [List.take_of_length_le hle, h]

/-- **Everything arrives exactly if each piece is moved whole.** -/
theorem moved_eq_flatten_iff (hne : ∀ piece ∈ pieces, piece ≠ []) :
    moved quota n pieces = pieces.flatten
      ↔ ∀ m piece, pieces[m]? = some piece → ∃ q, quota (n + m) = some q ∧ piece.length ≤ q := by
  induction pieces generalizing n with
  | nil => exact ⟨fun _ _ _ h => absurd h (by simp), fun _ => rfl⟩
  | cons piece pieces ih =>
    obtain ⟨hfirst, hothers⟩ := List.forall_mem_cons.mp hne
    rw [moved_cons_iff hfirst, ih hothers]
    constructor
    · rintro ⟨hq, h⟩ (_ | m) x hx
      · rw [List.getElem?_cons_zero] at hx
        obtain rfl := Option.some.inj hx
        exact hq
      · rw [List.getElem?_cons_succ] at hx
        rw [← Nat.add_assoc, Nat.add_right_comm]
        exact h m x hx
    · intro h
      refine ⟨h 0 piece rfl, fun m x hx => ?_⟩
      rw [Nat.add_assoc, Nat.add_comm 1 m]
      exact h (m + 1) x hx

/-- What has been read is a front part of the list. -/
theorem flatten_cut_prefix : (cut size fuel n l).flatten <+: l := by
  induction fuel generalizing n l with
  | zero => exact List.nil_prefix
  | succ fuel ih =>
    rw [cut]
    split
    · exact List.nil_prefix
    · rw [List.flatten_cons]
      conv_rhs => rw [← List.take_append_drop (size n) l]
      exact List.prefix_append_right_inj _ |>.mpr ih

/-- **A list that is read and moved in pieces** arrives exactly if nothing comes only at
its end, and each piece is moved whole. -/
theorem moved_cut_eq_iff {m : ℕ} (hfuel : l.length < fuel) :
    moved quota m (cut size fuel n l) = l
      ↔ (∀ j, size (n + j) = 0 → l.length ≤ (Finset.range j).sum fun i => size (n + i))
        ∧ ∀ j piece, (cut size fuel n l)[j]? = some piece →
          ∃ q, quota (m + j) = some q ∧ piece.length ≤ q := by
  have hne : ∀ piece ∈ cut size fuel n l, piece ≠ [] := fun _ => ne_nil_of_mem_cut
  rw [← flatten_cut_iff hfuel, ← moved_eq_flatten_iff hne]
  constructor
  · intro h
    have hle : (moved quota m (cut size fuel n l)).length ≤ _ := length_moved_le
    have hread : (cut size fuel n l).flatten = l :=
      flatten_cut_prefix.eq_of_length_le (by rwa [h] at hle)
    exact ⟨hread, h.trans hread.symm⟩
  · rintro ⟨hread, h⟩
    exact h.trans hread

/-! ## Through a buffer -/

/-- **How a buffer is filled and emptied**: how much of the `n`-th piece it takes, how
much of what it holds it then hands on, and how much of that arrives; and how much
arrives of what it holds in the end. -/
structure Buffer where
  take : ℕ → ℕ
  hand : ℕ → ℕ
  pass : ℕ → ℕ
  close : ℕ

variable {b : Buffer}

/-- **What arrives through a buffer.** What is handed on and does not arrive is lost. -/
def Buffer.moved (b : Buffer) : ℕ → List α → List (List α) → List α
  | _, held, [] => held.take b.close
  | n, held, piece :: pieces =>
    ((held ++ piece.take (b.take n)).take (b.hand n)).take (b.pass n)
      ++ b.moved (n + 1) ((held ++ piece.take (b.take n)).drop (b.hand n)) pieces

/-- **A buffer loses nothing**: each piece is taken whole, and all that is handed on
arrives, in the end too. -/
def Buffer.Whole (b : Buffer) : ℕ → List α → List (List α) → Prop
  | _, held, [] => held.length ≤ b.close
  | n, held, piece :: pieces =>
    piece.length ≤ b.take n ∧ ((held ++ piece).take (b.hand n)).length ≤ b.pass n
      ∧ b.Whole (n + 1) ((held ++ piece).drop (b.hand n)) pieces

/-- No more arrives than was held or taken. -/
theorem Buffer.length_moved_le (b : Buffer) (n : ℕ) (held : List α) (pieces : List (List α)) :
    (b.moved n held pieces).length ≤ held.length + pieces.flatten.length := by
  induction pieces generalizing n held with
  | nil =>
    rw [Buffer.moved]
    exact Nat.le_trans (List.length_take_le' _ _) (Nat.le_add_right _ _)
  | cons piece pieces ih =>
    have hrest := ih (n + 1) ((held ++ piece.take (b.take n)).drop (b.hand n))
    rw [Buffer.moved, List.flatten_cons]
    simp only [List.length_append, List.length_take, List.length_drop] at hrest ⊢
    omega

/-- **Everything arrives through a buffer exactly if it loses nothing.** -/
theorem Buffer.moved_eq_iff :
    b.moved n held pieces = held ++ pieces.flatten ↔ b.Whole n held pieces := by
  induction pieces generalizing n held with
  | nil =>
    rw [Buffer.moved, Buffer.Whole, List.flatten_nil, List.append_nil]
    exact List.take_eq_self_iff _
  | cons piece pieces ih =>
    rw [Buffer.moved, Buffer.Whole, ← ih, List.flatten_cons, ← List.append_assoc]
    constructor
    · intro h
      have hrest := b.length_moved_le (n + 1)
        ((held ++ piece.take (b.take n)).drop (b.hand n)) pieces
      have hlen := congrArg List.length h
      simp only [List.length_append, List.length_take, List.length_drop] at hrest hlen
      have htake : piece.length ≤ b.take n := by omega
      rw [List.take_of_length_le htake] at h
      have hpass : ((held ++ piece).take (b.hand n)).length ≤ b.pass n := by
        rw [List.length_take, List.length_append]
        omega
      rw [List.take_of_length_le hpass] at h
      refine ⟨htake, hpass, (List.append_right_inj ((held ++ piece).take (b.hand n))).mp ?_⟩
      rw [h, ← List.append_assoc, List.take_append_drop]
    · rintro ⟨htake, hpass, h⟩
      rw [List.take_of_length_le htake, List.take_of_length_le hpass, h, ← List.append_assoc,
        List.take_append_drop]

end Pieces
