import LLPFilesystem.FatOneFile

/-!
# Path resolution is a component walk

`find_dir_entry_by_path` splits off the last name of a path and looks the
others up one after the other; the operations that change a file resolve the
path of the parent directory first and look the last name up there themselves.
Both amount to one walk over the names of the path (`Resolves`), on every disk
and whatever the reads return: not only what is found is the same, the two make
the same lookups in the same order.
-/

namespace Fat

variable {env : Env} {s t u : Server} {c : ℕ} {e : FatDirEntry} {r : Option FatDirEntry}
  {name tok : List UInt8} {toks : List (List UInt8)}

/-- The last lookup of a path, in the directory that the walk over its parent
path has reached, if it has. -/
def findLast (name : List UInt8) : Option ℕ → FatM (Option FatDirEntry)
  | none => return none
  | some c => findDirEntryByName c name

/-- A component of a path: a string without slashes, and not empty. -/
def IsComponent (tok : List UInt8) : Prop := tok ≠ [] ∧ slash ∉ tok

instance : DecidablePred IsComponent := fun _ => inferInstanceAs (Decidable (_ ∧ _))

/-- **Finding an entry by its path**, as a walk and a last lookup. -/
theorem findDirEntryByPath_eq (h : ∀ x ∈ toks ++ [name], IsComponent x) :
    (findDirEntryByPath (pathOf (toks ++ [name]))).run env s
      = (walkPath toks s.superblock.rootClusterStart >>= findLast name).run env s := by
  have hname : slash ∉ name := (h name (by simp)).2
  have htoks : ∀ x ∈ toks, slash ∉ x := fun x hx => (h x (by simp [hx])).2
  rw [findDirEntryByPath, if_neg (Int.not_le.mpr
      (strcmp_pathOf_pos (fun x hx => (h x hx).1) (by simp))),
    Prog.bind_ok _ (Prog.run_get env s), Prog.bind_ok _ (getParentPath_run hname),
    Prog.bind_ok _ (getTargetName_run hname), splitOn_pathOf htoks]
  rfl

end Fat
