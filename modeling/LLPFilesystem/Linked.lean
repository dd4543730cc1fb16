import Mathlib.Data.List.Basic
import Mathlib.Data.List.Nodup
import Mathlib.Logic.Function.Basic

/-!
# Linked lists in a successor map

A table that stores, for every cell, the cell that follows it holds many
linked lists at once. `Linked next stop c l` says that walking the table
from `c` visits the cells `l`, in that order, and then arrives at the
terminator `stop`.

Only the successors of the cells of `l` matter, so every surgery on the
table is read through two facts: which successors it leaves alone
(`Linked.congr`), and which single one it redirects (`Linked.cut`,
`Linked.join`). Nothing is assumed about the rest of the table. A list that
arrives at the terminator visits no cell twice (`Linked.nodup`), so
termination already is acyclicity.
-/

variable {α : Type*} {next next' : α → α} {stop c d e : α} {l l' l₁ l₂ : List α}

/-- **A walk that terminates**: from `c` the successor map visits the cells
`l` and then arrives at `stop`. -/
def Linked (next : α → α) (stop : α) : α → List α → Prop
  | c, [] => c = stop
  | c, d :: l => c = d ∧ d ≠ stop ∧ Linked next stop (next d) l

namespace Linked

@[simp] theorem nil_iff : Linked next stop c [] ↔ c = stop := Iff.rfl

@[simp] theorem cons_iff :
    Linked next stop c (d :: l)
      ↔ c = d ∧ d ≠ stop ∧ Linked next stop (next d) l := Iff.rfl

/-- No cell of a list is its terminator. -/
theorem ne_stop (h : Linked next stop c l) : ∀ d ∈ l, d ≠ stop := by
  induction l generalizing c with
  | nil => intro d hd; exact absurd hd List.not_mem_nil
  | cons a l ih =>
    intro d hd
    rcases List.mem_cons.mp hd with rfl | hd
    · exact h.2.1
    · exact ih h.2.2 d hd

/-- A list that starts at the terminator is empty. -/
theorem eq_nil (h : Linked next stop stop l) : l = [] := by
  cases l with
  | nil => rfl
  | cons a l => exact absurd h.1.symm h.2.1

/-- A list that does not start at the terminator starts at its first cell. -/
theorem exists_cons (h : Linked next stop c l) (hc : c ≠ stop) :
    ∃ l', l = c :: l' ∧ Linked next stop (next c) l' := by
  cases l with
  | nil => exact absurd h hc
  | cons a l =>
    obtain ⟨rfl, -, hl⟩ := h
    exact ⟨l, rfl, hl⟩

/-- A list with a cell starts at its first cell. -/
theorem head_eq (h : Linked next stop c (d :: l)) : c = d := h.1

/-- A list starts at its first cell, or at the terminator when it is empty. -/
theorem eq_headD (h : Linked next stop c l) : c = l.headD stop := by
  cases l with
  | nil => exact h
  | cons a l => exact h.1

/-- **The walk is determined by where it starts.** -/
theorem unique (h : Linked next stop c l) (h' : Linked next stop c l') :
    l = l' := by
  induction l generalizing c l' with
  | nil =>
    rw [nil_iff] at h
    subst h
    exact h'.eq_nil.symm
  | cons a l ih =>
    obtain ⟨rfl, ha, hl⟩ := h
    obtain ⟨m, rfl, hm⟩ := h'.exists_cons ha
    rw [ih hl hm]

/-- The part of a list from one of its cells on is the list of that cell. -/
theorem suffix (h : Linked next stop c (l₁ ++ d :: l₂)) :
    Linked next stop d (d :: l₂) := by
  induction l₁ generalizing c with
  | nil =>
    obtain ⟨rfl, hl⟩ := h
    exact ⟨rfl, hl⟩
  | cons a l₁ ih => exact ih h.2.2

/-- What follows a cell of a list is the list of that cell's successor. -/
theorem rest (h : Linked next stop c (l₁ ++ d :: l₂)) :
    Linked next stop (next d) l₂ := h.suffix.2.2

/-- Each cell is followed by the next one of the list. -/
theorem next_getElem? (h : Linked next stop c l) {i : ℕ} (hi : l[i]? = some d)
    (hi' : l[i + 1]? = some e) : next d = e := by
  induction l generalizing c i with
  | nil => simp at hi
  | cons a l ih =>
    cases i with
    | zero =>
      obtain rfl : a = d := Option.some.inj hi
      cases l with
      | nil => simp at hi'
      | cons b l =>
        obtain rfl : b = e := Option.some.inj hi'
        exact h.2.2.1
    | succ i => exact ih h.2.2 hi hi'

/-- The last cell is followed by the terminator. -/
theorem next_last (h : Linked next stop c (l₁ ++ [d])) : next d = stop :=
  h.rest

/-- The only cell of a list is followed by the terminator. -/
theorem next_single (h : Linked next stop c [d]) : next d = stop := h.2.2

/-- **A walk that arrives visits no cell twice**: two visits of one cell
would be followed by the same walk, of two different lengths. -/
theorem nodup (h : Linked next stop c l) : l.Nodup := by
  induction l generalizing c with
  | nil => exact List.nodup_nil
  | cons a l ih =>
    refine List.nodup_cons.mpr ⟨fun ha => ?_, ih h.2.2⟩
    obtain ⟨s, t, rfl⟩ := List.append_of_mem ha
    have hlen := congrArg List.length (h.2.2.rest.unique (h.2.2 : Linked next stop (next a) _))
    simp only [List.length_append, List.length_cons] at hlen
    omega

/-- **A list depends on the successors of its own cells only.** -/
theorem congr (h : Linked next stop c l) (hn : ∀ d ∈ l, next' d = next d) :
    Linked next' stop c l := by
  induction l generalizing c with
  | nil => exact h
  | cons a l ih =>
    refine ⟨h.1, h.2.1, ?_⟩
    rw [hn a List.mem_cons_self]
    exact ih h.2.2 (fun d hd => hn d (List.mem_cons_of_mem a hd))

/-- **Cutting behind a cell**: redirecting its successor to the terminator
leaves the list up to it. -/
theorem cut (h : Linked next stop c (l₁ ++ d :: l₂)) (hd : next' d = stop)
    (hn : ∀ x ∈ l₁, next' x = next x) :
    Linked next' stop c (l₁ ++ [d]) := by
  induction l₁ generalizing c with
  | nil => exact ⟨h.1, h.2.1, hd⟩
  | cons a l₁ ih =>
    refine ⟨h.1, h.2.1, ?_⟩
    rw [hn a List.mem_cons_self]
    exact ih h.2.2 (fun x hx => hn x (List.mem_cons_of_mem a hx))

/-- **Joining two lists**: redirecting the last cell of the one to the first
cell of the other walks both. -/
theorem join (h : Linked next stop c (l₁ ++ [d])) (hd : next' d = e)
    (hn : ∀ x ∈ l₁, next' x = next x) (h' : Linked next' stop e l₂) :
    Linked next' stop c (l₁ ++ d :: l₂) := by
  induction l₁ generalizing c with
  | nil =>
    refine ⟨h.1, h.2.1, ?_⟩
    rw [hd]
    exact h'
  | cons a l₁ ih =>
    refine ⟨h.1, h.2.1, ?_⟩
    rw [hn a List.mem_cons_self]
    exact ih h.2.2 (fun x hx => hn x (List.mem_cons_of_mem a hx))

/-- **Consecutive cells**: a table in which every cell but the last names the
one behind it holds the list of all of them. -/
theorem range' {next : ℕ → ℕ} {stop a n : ℕ}
    (hn : ∀ d, a ≤ d → d < a + n → next d = d + 1) (hl : next (a + n) = stop)
    (hs : ∀ d, a ≤ d → d ≤ a + n → d ≠ stop) :
    Linked next stop a (List.range' a (n + 1)) := by
  induction n generalizing a with
  | zero => exact ⟨rfl, hs a (Nat.le_refl a) (Nat.le_refl a), hl⟩
  | succ n ih =>
    rw [List.range'_succ]
    refine ⟨rfl, hs a (Nat.le_refl a) (Nat.le_add_right a _), ?_⟩
    rw [hn a (Nat.le_refl a) (by omega)]
    refine ih (fun d hd hd' => hn d (by omega) (by omega)) ?_
      (fun d hd hd' => hs d (by omega) (by omega))
    rwa [show a + 1 + n = a + (n + 1) by omega]

end Linked
