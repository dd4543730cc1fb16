import Mathlib.Data.Multiset.Bind
import Mathlib.Logic.Relation

/-!
# A pool of cells and the lists that own them

What an allocator is for, apart from how it stores it: a pool of cells, each
of which is free or belongs to exactly one owner. The free cells and the
cells of every owner are kept in order, because the implementations of
interest keep them in linked lists; the owners themselves have no order.

The four things that happen to a pool are `Pool.Step`. A step only moves
cells (`Pool.Step.cells_eq`), so every run does (`Pool.Reachable.cells_eq`):
no cell is lost, duplicated or given to two owners, whatever the order of the
steps.
-/

variable {α : Type*}

/-- **A pool**: the free cells, and the cells of each owner. -/
structure Pool (α : Type*) where
  free : List α
  owners : Multiset (List α)

namespace Pool

/-- All the cells of a pool. -/
def cells (p : Pool α) : Multiset α :=
  (p.free : Multiset α) + p.owners.bind (fun o => (o : Multiset α))

/-- **What can happen to a pool.** -/
inductive Step : Pool α → Pool α → Prop where
  /-- The first free cells become a new owner. -/
  | alloc (l f : List α) (os : Multiset (List α)) (hl : l ≠ []) :
    Step ⟨l ++ f, os⟩ ⟨f, l ::ₘ os⟩
  /-- The first free cells are appended to an owner. -/
  | grow (l f o : List α) (os : Multiset (List α)) :
    Step ⟨l ++ f, o ::ₘ os⟩ ⟨f, (o ++ l) ::ₘ os⟩
  /-- The last cells of an owner become the first free ones. -/
  | cut (f o l : List α) (os : Multiset (List α)) (ho : o ≠ []) :
    Step ⟨f, (o ++ l) ::ₘ os⟩ ⟨l ++ f, o ::ₘ os⟩
  /-- All the cells of an owner become the first free ones. -/
  | release (f o : List α) (os : Multiset (List α)) :
    Step ⟨f, o ::ₘ os⟩ ⟨o ++ f, os⟩

variable {p q : Pool α} {f l o : List α} {os : Multiset (List α)} {c : α}

@[simp] theorem cells_cons :
    (Pool.mk f (o ::ₘ os)).cells = (o : Multiset α) + (Pool.mk f os).cells := by
  show (f : Multiset α) + (o ::ₘ os).bind _ = _
  rw [Multiset.cons_bind]
  exact add_left_comm _ _ _

@[simp] theorem cells_append :
    (Pool.mk (l ++ f) os).cells = (l : Multiset α) + (Pool.mk f os).cells := by
  show ((l ++ f : List α) : Multiset α) + _ = _
  rw [← Multiset.coe_add]
  exact add_assoc _ _ _

/-- **A step only moves cells.** -/
theorem Step.cells_eq (h : Step p q) : q.cells = p.cells := by
  cases h with
  | alloc l f os hl => rw [cells_cons, cells_append]
  | grow l f o os =>
    rw [cells_cons, cells_append, cells_cons, ← Multiset.coe_add, add_assoc]
    exact add_left_comm _ _ _
  | cut f o l os ho =>
    rw [cells_append, cells_cons, cells_cons, ← Multiset.coe_add, add_assoc]
    exact add_left_comm _ _ _
  | release f o os => rw [cells_append, cells_cons]

/-- The pools a run of steps reaches. -/
abbrev Reachable : Pool α → Pool α → Prop := Relation.ReflTransGen Step

/-- **A run only moves cells.** -/
theorem Reachable.cells_eq (h : Reachable p q) : q.cells = p.cells := by
  induction h with
  | refl => rfl
  | tail _ hs ih => exact hs.cells_eq.trans ih

/-! ## Cells of one owner are no one else's -/

theorem mem_cells : c ∈ p.cells ↔ c ∈ p.free ∨ ∃ o ∈ p.owners, c ∈ o := by
  unfold cells
  rw [Multiset.mem_add, Multiset.mem_bind]
  exact Iff.rfl

/-- A cell of an owner is not free. -/
theorem notMem_free (h : p.cells.Nodup) (ho : o ∈ p.owners) (hc : c ∈ o) :
    c ∉ p.free := fun hf =>
  Multiset.disjoint_left.mp (Multiset.nodup_add.mp h).2.2 hf
    (Multiset.mem_bind.mpr ⟨o, ho, hc⟩)

/-- **A cell of one owner belongs to no other.** -/
theorem notMem_other (h : (Pool.mk f (o ::ₘ os)).cells.Nodup) (hc : c ∈ o) :
    ∀ o' ∈ os, c ∉ o' := by
  intro o' ho' hc'
  rw [cells_cons] at h
  exact Multiset.disjoint_left.mp (Multiset.nodup_add.mp h).2.2 hc
    (mem_cells.mpr (Or.inr ⟨o', ho', hc'⟩))

/-- The cells of an owner are all different. -/
theorem nodup_owner (h : p.cells.Nodup) (ho : o ∈ p.owners) : o.Nodup := by
  obtain ⟨os, hos⟩ := Multiset.exists_cons_of_mem ho
  obtain ⟨f, os'⟩ := p
  subst hos
  rw [cells_cons] at h
  exact Multiset.coe_nodup.mp (Multiset.nodup_add.mp h).1

/-- The number of cells is the number of free ones and of each owner's. -/
theorem card_cells : p.cells.card = p.free.length + (p.owners.map List.length).sum := by
  unfold cells
  rw [Multiset.card_add, Multiset.card_bind, Multiset.coe_card]
  rfl

end Pool
