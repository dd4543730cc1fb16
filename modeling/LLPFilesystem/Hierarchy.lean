import Mathlib.Data.List.Induction
import Mathlib.Logic.Function.Basic

/-!
# Hierarchies of directories

A hierarchy tells what each name in a directory stands for, and the contents of the objects
that are files. If no object has two names, and the root none, a path is the only one to
where it leads (`Hierarchy.walk_injective`). So a change at one object is a change at one
path of the tree that the paths make (`Hierarchy.tree_insert`, `Hierarchy.tree_remove`,
`Hierarchy.tree_setData`).

Objects, names and contents are of any types.
-/

variable {ι ν β : Type*}

/-- What a path of a tree leads to. -/
inductive Node (β : Type*) where
  | dir
  | file (data : β)
  deriving DecidableEq

/-- **A tree**: what each path leads to, if it leads anywhere. -/
abbrev FileTree (ν β : Type*) := List ν → Option (Node β)

/-- **A hierarchy**: the children of each directory under their names, and the contents of
each file. -/
structure Hierarchy (ι ν β : Type*) where
  root : ι
  child : ι → ν → Option ι
  data : ι → Option β

namespace Hierarchy

variable {h : Hierarchy ι ν β} {i j k : ι} {n m : ν} {p q : List ν} {d : Option β}

/-- Where a path leads, from an object on. -/
def walk (h : Hierarchy ι ν β) : ι → List ν → Option ι
  | i, [] => some i
  | i, n :: p => (h.child i n).bind fun j => h.walk j p

/-- What an object is. -/
def node (h : Hierarchy ι ν β) (i : ι) : Node β := (h.data i).elim .dir .file

/-- The tree of the paths from the root. -/
def tree (h : Hierarchy ι ν β) : FileTree ν β := fun p => (h.walk h.root p).map h.node

@[simp] theorem walk_nil (h : Hierarchy ι ν β) (i : ι) : h.walk i [] = some i := rfl

theorem walk_append (h : Hierarchy ι ν β) (i : ι) (p q : List ν) :
    h.walk i (p ++ q) = (h.walk i p).bind fun j => h.walk j q := by
  induction p generalizing i with
  | nil => rfl
  | cons n p ih =>
    rw [List.cons_append, walk, walk, Option.bind_assoc]
    congr 1
    funext j
    exact ih j

/-- A path ends with a name in the directory that the rest of it leads to. -/
theorem walk_concat (h : Hierarchy ι ν β) (i : ι) (p : List ν) (n : ν) :
    h.walk i (p ++ [n]) = (h.walk i p).bind fun j => h.child j n := by
  rw [walk_append]
  congr 1
  funext j
  simp [walk]

theorem walk_concat_eq_some :
    h.walk i (p ++ [n]) = some k ↔ ∃ j, h.walk i p = some j ∧ h.child j n = some k := by
  rw [walk_concat, Option.bind_eq_some_iff]

/-- **A proper hierarchy**: an object has at most one name, the root has none, and files
have no children. -/
structure Proper (h : Hierarchy ι ν β) : Prop where
  unique : ∀ {i j k m n}, h.child i m = some k → h.child j n = some k → i = j ∧ m = n
  rootless : ∀ i n, h.child i n ≠ some h.root
  leaf : ∀ i n, h.data i ≠ none → h.child i n = none

/-- **The paths to an object**: there is at most one. The last name of a path is the name of
the object, and so on upwards, until one path has reached the root, which has no name. -/
theorem walk_injective (hp : h.Proper) (hwalk : h.walk h.root p = some k)
    (hwalk' : h.walk h.root q = some k) : p = q := by
  induction p using List.reverseRecOn generalizing q k with
  | nil =>
    cases q using List.reverseRecOn with
    | nil => rfl
    | append_singleton q n =>
      obtain ⟨j, -, hn⟩ := walk_concat_eq_some.mp hwalk'
      cases hwalk
      exact absurd hn (hp.rootless j n)
  | append_singleton p m ih =>
    obtain ⟨i, hi, hm⟩ := walk_concat_eq_some.mp hwalk
    cases q using List.reverseRecOn with
    | nil =>
      cases hwalk'
      exact absurd hm (hp.rootless i m)
    | append_singleton q n =>
      obtain ⟨j, hj, hn⟩ := walk_concat_eq_some.mp hwalk'
      obtain ⟨rfl, rfl⟩ := hp.unique hm hn
      rw [ih hi hj]

/-- **The hierarchy of a root directory** without children. -/
def empty (r : ι) : Hierarchy ι ν β where
  root := r
  child _ _ := none
  data _ := none

/-- The tree with nothing in it. -/
def emptyTree : FileTree ν β
  | [] => some .dir
  | _ :: _ => none

theorem tree_empty (r : ι) : (empty r : Hierarchy ι ν β).tree = emptyTree := by
  funext p
  cases p <;> rfl

variable [DecidableEq ι] [DecidableEq ν]

/-! ## Changes -/

/-- The object `k` becomes a child, and gets contents. -/
def insert (h : Hierarchy ι ν β) (i : ι) (n : ν) (k : ι) (d : Option β) : Hierarchy ι ν β where
  root := h.root
  child j m := if j = i ∧ m = n then some k else h.child j m
  data := Function.update h.data k d

/-- A child is removed. -/
def remove (h : Hierarchy ι ν β) (i : ι) (n : ν) : Hierarchy ι ν β where
  root := h.root
  child j m := if j = i ∧ m = n then none else h.child j m
  data := h.data

/-- A file gets new contents. -/
def setData (h : Hierarchy ι ν β) (k : ι) (b : β) : Hierarchy ι ν β :=
  { h with data := Function.update h.data k (some b) }

/-- An object that no name stands for, and that has no children. -/
structure Fresh (h : Hierarchy ι ν β) (k : ι) : Prop where
  nameless : ∀ i n, h.child i n ≠ some k
  childless : ∀ n, h.child k n = none
  ne_root : k ≠ h.root

omit [DecidableEq ι] [DecidableEq ν] in
/-- No path leads to a fresh object. -/
theorem Fresh.walk_ne (hf : h.Fresh k) (p : List ν) : h.walk h.root p ≠ some k := by
  intro hwalk
  cases p using List.reverseRecOn with
  | nil => exact hf.ne_root (Option.some.inj hwalk).symm
  | append_singleton p n =>
    obtain ⟨j, -, hn⟩ := walk_concat_eq_some.mp hwalk
    exact hf.nameless j n hn

theorem walk_insert (hp : h.Proper) (hwalk : h.walk h.root p = some i)
    (hnone : h.child i n = none) (hf : h.Fresh k) (q : List ν) :
    (h.insert i n k d).walk h.root q = if q = p ++ [n] then some k else h.walk h.root q := by
  induction q using List.reverseRecOn with
  | nil => rw [if_neg (by simp)]; rfl
  | append_singleton q m ih =>
    rw [walk_concat, ih]
    by_cases hq : q = p ++ [n]
    · -- the fresh object has no children, and nothing was there before
      have hki : ¬ (k = i ∧ m = n) := fun hk => hf.walk_ne p (hk.1 ▸ hwalk)
      rw [if_pos hq, if_neg (by simp [hq]), walk_concat, hq, walk_concat, hwalk]
      show (if k = i ∧ m = n then some k else h.child k m)
        = ((some i).bind fun j => h.child j n).bind fun j => h.child j m
      rw [if_neg hki, hf.childless m, Option.bind_some, hnone]
      rfl
    · rw [if_neg hq, walk_concat]
      cases hj : h.walk h.root q with
      | none =>
        rw [if_neg]
        · rfl
        · intro heq
          rw [(List.append_inj_left' heq rfl), hwalk] at hj
          cases hj
      | some j =>
        show (if j = i ∧ m = n then some k else h.child j m) = _
        by_cases hjm : j = i ∧ m = n
        · obtain ⟨rfl, rfl⟩ := hjm
          rw [walk_injective hp hj hwalk, if_pos ⟨rfl, rfl⟩, if_pos rfl]
        · rw [if_neg hjm, if_neg]
          · rfl
          · intro heq
            obtain ⟨rfl, hm⟩ := List.append_inj' heq rfl
            rw [hwalk] at hj
            exact hjm ⟨(Option.some.inj hj).symm, List.singleton_inj.mp hm⟩

/-- **A fresh object under a new name** is a change at one path. -/
theorem tree_insert (hp : h.Proper) (hwalk : h.walk h.root p = some i)
    (hnone : h.child i n = none) (hf : h.Fresh k) :
    (h.insert i n k d).tree
      = Function.update h.tree (p ++ [n]) (some (d.elim .dir .file)) := by
  funext q
  rw [tree, show (h.insert i n k d).root = h.root from rfl, walk_insert hp hwalk hnone hf]
  by_cases hq : q = p ++ [n]
  · rw [if_pos hq, hq, Function.update_self, Option.map_some, node]
    show some ((Function.update h.data k d k).elim _ _) = _
    rw [Function.update_self]
  · rw [if_neg hq, Function.update_of_ne hq, tree]
    cases hj : h.walk h.root q with
    | none => rfl
    | some j =>
      have hjk : j ≠ k := fun hjk => hf.walk_ne q (hjk ▸ hj)
      rw [Option.map_some, Option.map_some, node, node]
      show some ((Function.update h.data k d j).elim _ _) = _
      rw [Function.update_of_ne hjk]

theorem walk_remove (hp : h.Proper) (hwalk : h.walk h.root p = some i)
    (hchild : h.child i n = some k) (hempty : ∀ m, h.child k m = none) (q : List ν) :
    (h.remove i n).walk h.root q = if q = p ++ [n] then none else h.walk h.root q := by
  induction q using List.reverseRecOn with
  | nil => rw [if_neg (by simp)]; rfl
  | append_singleton q m ih =>
    rw [walk_concat, ih]
    by_cases hq : q = p ++ [n]
    · rw [if_pos hq, if_neg (by simp [hq]), walk_concat, hq, walk_concat, hwalk,
        Option.bind_some, hchild, Option.bind_some, hempty m]
      rfl
    · rw [if_neg hq, walk_concat]
      cases hj : h.walk h.root q with
      | none => exact (ite_self _).symm
      | some j =>
        show (if j = i ∧ m = n then none else h.child j m) = _
        by_cases hjm : j = i ∧ m = n
        · obtain ⟨rfl, rfl⟩ := hjm
          rw [walk_injective hp hj hwalk, if_pos ⟨rfl, rfl⟩, if_pos rfl]
        · rw [if_neg hjm, if_neg]
          · rfl
          · intro heq
            obtain ⟨rfl, hm⟩ := List.append_inj' heq rfl
            rw [hwalk] at hj
            exact hjm ⟨(Option.some.inj hj).symm, List.singleton_inj.mp hm⟩

/-- **Removing a name** of an object without children is a change at one path. -/
theorem tree_remove (hp : h.Proper) (hwalk : h.walk h.root p = some i)
    (hchild : h.child i n = some k) (hempty : ∀ m, h.child k m = none) :
    (h.remove i n).tree = Function.update h.tree (p ++ [n]) none := by
  funext q
  rw [tree, show (h.remove i n).root = h.root from rfl, walk_remove hp hwalk hchild hempty]
  by_cases hq : q = p ++ [n]
  · rw [if_pos hq, hq, Function.update_self]
    rfl
  · rw [if_neg hq, Function.update_of_ne hq]
    rfl

omit [DecidableEq ν] in
theorem walk_setData (b : β) (i : ι) (q : List ν) : (h.setData k b).walk i q = h.walk i q := by
  induction q generalizing i with
  | nil => rfl
  | cons n q ih =>
    rw [walk, walk]
    congr 1
    funext j
    exact ih j

/-- **New contents of a file** are a change at one path. -/
theorem tree_setData (hp : h.Proper) (hwalk : h.walk h.root p = some k) (b : β) :
    (h.setData k b).tree = Function.update h.tree p (some (.file b)) := by
  funext q
  rw [tree, show (h.setData k b).root = h.root from rfl, walk_setData]
  by_cases hq : q = p
  · rw [hq, hwalk, Function.update_self, Option.map_some, node]
    show some ((Function.update h.data k (some b) k).elim _ _) = _
    rw [Function.update_self]
    rfl
  · rw [Function.update_of_ne hq, tree]
    cases hj : h.walk h.root q with
    | none => rfl
    | some j =>
      have hjk : j ≠ k := fun hjk => hq (walk_injective hp (hjk ▸ hj) hwalk)
      rw [Option.map_some, Option.map_some, node, node]
      show some ((Function.update h.data k (some b) j).elim _ _) = _
      rw [Function.update_of_ne hjk]

end Hierarchy
