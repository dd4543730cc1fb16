import LLPFilesystem.Bytes
import Mathlib.Data.List.Nodup

/-!
# Files made of pages

A file is kept in pages of equal size that lie anywhere; a list of page
numbers puts them in order. `paged` reads such a file as one piece of memory,
and `pagedList` is its contents, page after page. The two say the same
(`take_pagedList`).

Storing a block inside one page is storing it in the file
(`paged_blit`), provided no other page of the list is the same one; and two
adjacent blocks stored one after the other are one block (`Buf.blit_blit`). A
program that writes a file page by page is verified by these two facts.
-/

variable {α : Type*} {b i j n m : ℕ} {page page' : α → Buf} {c : α} {l l₁ l₂ : List α}

/-- A file, read as one piece of memory; past its last page there is zero. -/
def paged (b : ℕ) (page : α → Buf) (l : List α) : Buf := fun i =>
  match l[i / b]? with
  | some c => page c (i % b)
  | none => 0

/-- The contents of a file, page after page. -/
def pagedList (b : ℕ) (page : α → Buf) (l : List α) : List UInt8 :=
  l.flatMap fun c => (List.range b).map (page c)

theorem paged_of_some (h : l[i / b]? = some c) : paged b page l i = page c (i % b) := by
  rw [paged, h]

/-- Position `i` of page `j`. -/
theorem paged_add (hj : l[j]? = some c) (hi : i < b) :
    paged b page l (j * b + i) = page c i := by
  have hdiv : (j * b + i) / b = j := by
    rw [Nat.mul_comm, Nat.mul_add_div (Nat.zero_lt_of_lt hi), Nat.div_eq_of_lt hi,
      Nat.add_zero]
  rw [paged_of_some (hdiv.symm ▸ hj), Nat.mul_comm, Nat.mul_add_mod,
    Nat.mod_eq_of_lt hi]

/-- The part of a file from one of its pages on. -/
theorem paged_append_right (hb : 0 < b) (i : ℕ) :
    paged b page (l₁ ++ l₂) (l₁.length * b + i) = paged b page l₂ i := by
  have hdiv : (l₁.length * b + i) / b = l₁.length + i / b := by
    rw [Nat.mul_comm, Nat.mul_add_div hb]
  have hmod : (l₁.length * b + i) % b = i % b := by
    rw [Nat.mul_comm, Nat.mul_add_mod]
  unfold paged
  rw [hdiv, hmod, List.getElem?_append_right (Nat.le_add_right _ _),
    Nat.add_sub_cancel_left]

/-- The part of a file up to one of its pages. -/
theorem paged_append_left (hi : i < l₁.length * b) :
    paged b page (l₁ ++ l₂) i = paged b page l₁ i := by
  have hdiv : i / b < l₁.length := Nat.div_lt_of_lt_mul (Nat.mul_comm _ _ ▸ hi)
  unfold paged
  rw [List.getElem?_append_left hdiv]

/-- The file behind its first `j` pages. -/
theorem paged_drop (hb : 0 < b) (hj : j ≤ l.length) (i : ℕ) :
    paged b page (l.drop j) i = paged b page l (j * b + i) := by
  have h : paged b page (l.take j ++ l.drop j) ((l.take j).length * b + i)
      = paged b page (l.drop j) i := paged_append_right hb i
  rw [List.take_append_drop, List.length_take_of_le hj] at h
  exact h.symm

theorem paged_cons_of_lt (hi : i < b) : paged b page (c :: l) i = page c i := by
  have h : paged b page (c :: l) (0 * b + i) = page c i := paged_add rfl hi
  rwa [Nat.zero_mul, Nat.zero_add] at h

theorem paged_cons_add (hb : 0 < b) (i : ℕ) :
    paged b page (c :: l) (b + i) = paged b page l i := by
  have h : paged b page ([c] ++ l) ([c].length * b + i) = paged b page l i :=
    paged_append_right hb i
  rwa [List.length_singleton, Nat.one_mul] at h

/-- A file depends on its own pages only. -/
theorem paged_congr (hb : 0 < b) (h : ∀ c ∈ l, ∀ i < b, page' c i = page c i)
    (i : ℕ) : paged b page' l i = paged b page l i := by
  unfold paged
  cases hc : l[i / b]? with
  | none => rfl
  | some c => exact h c (List.mem_of_getElem? hc) _ (Nat.mod_lt _ hb)

/-- A file that has grown by pages of zeros. -/
theorem paged_append_zero (hb : 0 < b) (h : ∀ c ∈ l₁, ∀ i < b, page' c i = page c i)
    (h0 : ∀ c ∈ l₂, ∀ i < b, page' c i = 0) (i : ℕ) :
    paged b page' (l₁ ++ l₂) i = paged b page l₁ i := by
  unfold paged
  rcases Nat.lt_or_ge (i / b) l₁.length with hi | hi
  · rw [List.getElem?_append_left hi, List.getElem?_eq_getElem hi]
    exact h _ (List.getElem_mem hi) _ (Nat.mod_lt _ hb)
  · rw [List.getElem?_append_right hi, List.getElem?_eq_none hi]
    cases hc : l₂[i / b - l₁.length]? with
    | none => rfl
    | some c => exact h0 c (List.mem_of_getElem? hc) _ (Nat.mod_lt _ hb)

/-- A size that needs at most `n` pages fits in `n` pages. -/
theorem le_mul_of_pages_le {size : ℕ} (hb : 0 < b) (h : (size + b - 1) / b ≤ n) :
    size ≤ n * b := by
  have hlt : size + b - 1 < (n + 1) * b :=
    (Nat.div_lt_iff_lt_mul hb).mp (Nat.lt_succ_of_le h)
  rw [Nat.add_mul, Nat.one_mul] at hlt
  omega

/-! ## As a list -/

@[simp] theorem length_pagedList : (pagedList b page l).length = l.length * b := by
  induction l with
  | nil => simp [pagedList]
  | cons c l ih =>
    unfold pagedList at ih ⊢
    rw [List.flatMap_cons, List.length_append, List.length_map, List.length_range, ih,
      List.length_cons, Nat.add_mul, Nat.one_mul, Nat.add_comm]

/-- **The two readings of a file agree.** -/
theorem getElem?_pagedList (hi : i < l.length * b) :
    (pagedList b page l)[i]? = some (paged b page l i) := by
  have hb : 0 < b := Nat.pos_of_ne_zero fun h0 => by simp [h0] at hi
  induction l generalizing i with
  | nil => simp at hi
  | cons c l ih =>
    unfold pagedList at ih ⊢
    rw [List.flatMap_cons]
    rcases Nat.lt_or_ge i b with h | h
    · rw [List.getElem?_append_left (by simpa using h), paged_cons_of_lt h]
      simp [h]
    · obtain ⟨k, rfl⟩ := Nat.exists_eq_add_of_le h
      have hk : k < l.length * b := by
        rw [List.length_cons, Nat.add_mul, Nat.one_mul] at hi
        omega
      rw [List.getElem?_append_right (by simp), paged_cons_add hb, ← ih hk]
      simp

/-- The first bytes of a file. -/
theorem take_pagedList (hn : n ≤ l.length * b) :
    (pagedList b page l).take n = (List.range n).map (paged b page l) := by
  refine List.ext_getElem? (fun i => ?_)
  rcases Nat.lt_or_ge i n with hi | hi
  · rw [List.getElem?_take_of_lt hi, getElem?_pagedList (Nat.lt_of_lt_of_le hi hn)]
    simp [hi]
  · rw [List.getElem?_eq_none (by simp; omega), List.getElem?_eq_none (by simpa using hi)]

/-! ## Storing in a file -/

/-- **Storing in one page is storing in the file.** -/
theorem paged_blit {src : Buf} {o : ℕ} (hl : l.Nodup) (hj : l[j]? = some c)
    (ho : o + n ≤ b) (hc : ∀ i < b, page' c i = (page c).blit o src n i)
    (hne : ∀ d ∈ l, d ≠ c → ∀ i < b, page' d i = page d i) (hi : i < l.length * b) :
    paged b page' l i = (paged b page l).blit (j * b + o) src n i := by
  have hb : 0 < b := Nat.pos_of_ne_zero fun h0 => by simp [h0] at hi
  have hk : i / b < l.length := Nat.div_lt_of_lt_mul (Nat.mul_comm _ _ ▸ hi)
  have hd : l[i / b]? = some l[i / b] := List.getElem?_eq_getElem hk
  have hmod := Nat.mod_lt i hb
  have hdm := Nat.div_add_mod i b
  rw [Nat.mul_comm] at hdm
  by_cases hij : i / b = j
  · subst hij
    have hcd : l[i / b] = c := Option.some.inj (hd.symm.trans hj)
    rw [paged_of_some hj, hc _ hmod]
    unfold Buf.blit
    by_cases hin : o ≤ i % b ∧ i % b < o + n
    · rw [if_pos hin, if_pos (by omega)]
      exact congrArg src (by omega)
    · rw [if_neg hin, if_neg (by omega), paged_of_some hj]
  · -- a different page, which the block does not reach
    have hdc : l[i / b] ≠ c := fun h => hij (by
      have hjl : j < l.length := (List.getElem?_eq_some_iff.mp hj).1
      have hjc : l[j] = c := (List.getElem?_eq_some_iff.mp hj).2
      exact (List.Nodup.getElem_inj_iff hl).mp (h.trans hjc.symm))
    have hp : paged b page l i = page l[i / b] (i % b) := paged_of_some hd
    rw [paged_of_some hd, hne _ (List.getElem_mem hk) hdc _ hmod, ← hp]
    rcases Nat.lt_or_gt_of_ne hij with h | h
    · have hle : (i / b + 1) * b ≤ j * b := Nat.mul_le_mul_right b h
      rw [Nat.add_mul, Nat.one_mul] at hle
      rw [Buf.blit_of_lt (by omega)]
    · have hle : (j + 1) * b ≤ i / b * b := Nat.mul_le_mul_right b h
      rw [Nat.add_mul, Nat.one_mul] at hle
      rw [Buf.blit_of_le (by omega)]
