import Mathlib.Data.Finset.Lattice.Basic
import Mathlib.Data.Finset.Option

/-!
# A variable that holds a resource

A program keeps a resource in a variable. It may fill the variable, clear it, or
release what it holds; filling and clearing do not look at what it held, and what
they overwrite is lost. Nothing is out in the end exactly if no step overwrites a
resource and the last one is released (`Slot.run_out_eq_empty_iff`).
-/

/-- **A variable and what was lost**: the resource it holds, and those that are
out and no longer in it. -/
structure Slot (α : Type*) where
  held : Option α
  lost : Finset α

namespace Slot

/-- What a program does with the variable. -/
inductive Action (α : Type*) where
  | keep
  | fill (x : α)
  | clear
  | release

/-- Whether an action overwrites the variable. -/
def Action.Overwrites {α : Type*} : Action α → Prop
  | .fill _ | .clear => True
  | .keep | .release => False

variable {α : Type*} [DecidableEq α] {s : Slot α} {a : Action α} {actions : List (Action α)}

/-- The resources that are out. -/
def out (s : Slot α) : Finset α := s.lost ∪ s.held.toFinset

def act (s : Slot α) : Action α → Slot α
  | .keep => s
  | .fill x => ⟨some x, s.out⟩
  | .clear => ⟨none, s.out⟩
  | .release => ⟨none, s.lost⟩

def run (s : Slot α) (actions : List (Action α)) : Slot α := actions.foldl act s

/-- **Nothing is overwritten**, and nothing is held in the end. -/
def Tidy (s : Slot α) : List (Action α) → Prop
  | [] => s.held = none
  | a :: actions => (a.Overwrites → s.held = none) ∧ (s.act a).Tidy actions

theorem out_eq_empty_iff : s.out = ∅ ↔ s.lost = ∅ ∧ s.held = none := by
  rw [out, Finset.union_eq_empty]
  refine and_congr_right fun _ => ?_
  cases s.held with
  | none => exact ⟨fun _ => rfl, fun _ => rfl⟩
  | some x => exact ⟨fun h => absurd h (Finset.singleton_ne_empty x), fun h => nomatch h⟩

/-- A step loses nothing exactly if it overwrites nothing. -/
theorem act_lost_eq_empty_iff :
    (s.act a).lost = ∅ ↔ s.lost = ∅ ∧ (a.Overwrites → s.held = none) := by
  cases a with
  | keep => exact ⟨fun h => ⟨h, fun hf => hf.elim⟩, fun h => h.1⟩
  | release => exact ⟨fun h => ⟨h, fun hf => hf.elim⟩, fun h => h.1⟩
  | fill x => exact out_eq_empty_iff.trans (and_congr_right fun _ => ⟨fun h _ => h, fun h => h ⟨⟩⟩)
  | clear => exact out_eq_empty_iff.trans (and_congr_right fun _ => ⟨fun h _ => h, fun h => h ⟨⟩⟩)

/-- **Nothing is out in the end** exactly if nothing was lost before and the run is
tidy. -/
theorem run_out_eq_empty_iff :
    (s.run actions).out = ∅ ↔ s.lost = ∅ ∧ s.Tidy actions := by
  induction actions generalizing s with
  | nil => exact out_eq_empty_iff
  | cons a actions ih =>
    have hrun : s.run (a :: actions) = (s.act a).run actions := rfl
    rw [hrun, ih, act_lost_eq_empty_iff, and_assoc]
    rfl

end Slot
