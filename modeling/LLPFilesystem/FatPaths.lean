import LLPFilesystem.FatScan
import LLPFilesystem.FatOwnership

/-!
# Resolving paths

A path is a row of names, each behind a slash. The code takes it apart byte
by byte and looks its names up one after the other, starting in the root
directory. `Server.Walk` is what that amounts to: it relates two directories,
given by their chains, by the names that lead from the one to the other. The
lookups of the operations are then computed from a walk
(`reads_findFirstClusterByPath`, `reads_findDirEntryByPath`,
`reads_lookupTarget`).
-/

namespace Fat

variable {env : Env} {s t : Server} {l l' l'' : List ℕ} {os : Multiset (List ℕ)}
  {e : FatDirEntry} {name tok : List UInt8} {toks : List (List UInt8)} {p : Pool ℕ}

/-! ## Paths as bytes -/

/-- The path of some names: each of them behind a slash. -/
def pathOf (toks : List (List UInt8)) : List UInt8 := toks.flatMap (slash :: ·)

/-- **A name**: a string without slashes, and not empty. -/
structure IsName (name : List UInt8) : Prop where
  ne_nil : name ≠ []
  noSlash : slash ∉ name
  noZero : 0 ∉ name

theorem pathOf_concat : pathOf (toks ++ [name]) = pathOf toks ++ slash :: name := by
  rw [pathOf, List.flatMap_append, List.flatMap_singleton]
  rfl

/-- Taking a path apart gives its names, behind the empty string in front of
the first slash. -/
theorem splitOn_pathOf (h : ∀ x ∈ toks, slash ∉ x) :
    (pathOf toks).splitOn slash = [] :: toks := by
  induction toks with
  | nil => rfl
  | cons tok toks ih =>
    have hcons : pathOf (tok :: toks) = [] ++ slash :: (tok ++ pathOf toks) := rfl
    rw [hcons, List.splitOn_append_cons_self_of_not_mem (List.not_mem_nil)]
    have htok := h tok List.mem_cons_self
    have hih := ih (fun x hx => h x (List.mem_cons_of_mem tok hx))
    cases toks with
    | nil =>
      show [] :: (tok ++ []).splitOn slash = _
      rw [List.append_nil, List.splitOn_eq_singleton htok]
    | cons tok' toks =>
      have hcons' : pathOf (tok' :: toks) = [] ++ slash :: (tok' ++ pathOf toks) := rfl
      rw [hcons', List.splitOn_append_cons_self_of_not_mem (List.not_mem_nil)] at hih
      rw [hcons', List.nil_append, List.splitOn_append_cons_self_of_not_mem htok,
        (List.cons.inj hih).2]

/-- The path of some names comes after the root directory in the order of
`strcmp`; the empty path does not. -/
theorem strcmp_pathOf_pos (h : ∀ x ∈ toks, x ≠ []) (hne : toks ≠ []) :
    0 < strcmp (pathOf toks) [slash] := by
  obtain ⟨tok, toks, rfl⟩ := List.exists_cons_of_ne_nil hne
  obtain ⟨a, as, rfl⟩ := List.exists_cons_of_ne_nil (h tok List.mem_cons_self)
  show (0 : ℤ) < if slash < slash then _ else if slash < slash then _
    else strcmp (a :: _) []
  rw [if_neg (by decide), if_neg (by decide)]
  exact Int.one_pos

/-- The search for the last slash ends behind it. -/
theorem nameStart_run {pre : List UInt8} (h : slash ∉ name) {k : ℕ}
    (hk : k ≤ name.length) :
    (nameStart (pre ++ slash :: name) (pre.length + 1 + k)).run env s
      = .ok (pre.length + 1) s := by
  induction k with
  | zero =>
    rw [nameStart, if_pos (by simp)]
    rfl
  | succ k ih =>
    have hget : (pre ++ slash :: name)[pre.length + 1 + k]? = name[k]? := by
      rw [List.getElem?_append_right (by omega),
        show pre.length + 1 + k - pre.length = k + 1 by omega, List.getElem?_cons_succ]
    have hne : ¬ name[k]? = some slash := fun hs => h (List.mem_of_getElem? hs)
    rw [← Nat.add_assoc, nameStart, hget, if_neg hne]
    exact ih (Nat.le_of_succ_le hk)

theorem getParentPath_run (h : slash ∉ name) :
    (getParentPath (pathOf (toks ++ [name]))).run env s = .ok (pathOf toks) s := by
  rw [pathOf_concat, getParentPath, List.length_append, List.length_cons,
    Nat.add_comm name.length, ← Nat.add_assoc,
    Prog.bind_ok _ (nameStart_run h (Nat.le_refl _)), Nat.add_sub_cancel, List.take_left]
  rfl

theorem getTargetName_run (h : slash ∉ name) :
    (getTargetName (pathOf (toks ++ [name]))).run env s = .ok name s := by
  rw [pathOf_concat, getTargetName, List.length_append, List.length_cons,
    Nat.add_comm name.length, ← Nat.add_assoc,
    Prog.bind_ok _ (nameStart_run h (Nat.le_refl _)),
    show (pathOf toks ++ slash :: name).drop ((pathOf toks).length + 1) = name by simp]
  rfl

theorem reads_getParentPath (h : slash ∉ name) :
    s.Reads env (getParentPath (pathOf (toks ++ [name]))) (pathOf toks) :=
  fun k => ⟨k, getParentPath_run h⟩

theorem reads_getTargetName (h : slash ∉ name) :
    s.Reads env (getTargetName (pathOf (toks ++ [name]))) name :=
  fun k => ⟨k, getTargetName_run h⟩

/-! ## Walks -/

/-- **The names `toks` lead from one directory to another**, each directory
being one of the chains `os`. -/
inductive Server.Walk (s : Server) (env : Env) (os : Multiset (List ℕ)) :
    List (List UInt8) → List ℕ → List ℕ → Prop where
  | nil (l : List ℕ) : Walk s env os [] l l
  | cons {tok : List UInt8} {toks : List (List UInt8)} {l l' l'' : List ℕ}
    {e : FatDirEntry} (hl : l ∈ os) (hlook : s.lookup env l tok = some e)
    (htype : e.type = dirEntryTypeSubdir)
    (hfirst : e.firstCluster.toNat = l'.headD endOfChain)
    (hw : Walk s env os toks l' l'') : Walk s env os (tok :: toks) l l''

/-- The last step of a walk. -/
theorem Server.Walk.exists_last (h : s.Walk env os (toks ++ [tok]) l l'') :
    ∃ l' e, s.Walk env os toks l l' ∧ l' ∈ os ∧ s.lookup env l' tok = some e
      ∧ e.type = dirEntryTypeSubdir
      ∧ e.firstCluster.toNat = l''.headD endOfChain := by
  induction toks generalizing l with
  | nil =>
    cases h with
    | cons hl hlook htype hfirst hw =>
      cases hw
      exact ⟨l, _, .nil l, hl, hlook, htype, hfirst⟩
  | cons tok' toks ih =>
    cases h with
    | cons hl hlook htype hfirst hw =>
      obtain ⟨m, e, hm, hrest⟩ := ih hw
      exact ⟨m, e, .cons hl hlook htype hfirst hm, hrest⟩

/-- **A walk goes the same way** on a server where the directories, which may
have grown, keep the entries that the walk goes through. -/
theorem Server.Walk.map {dirs : Multiset (List ℕ)} {g : List ℕ → List ℕ}
    (hmem : ∀ l ∈ os, g l ∈ dirs)
    (hhead : ∀ l, (g l).headD endOfChain = l.headD endOfChain)
    (hlook : ∀ l ∈ os, ∀ tok ∈ toks, ∀ e, e.type = dirEntryTypeSubdir →
      s.lookup env l tok = some e → t.lookup env (g l) tok = some e)
    (h : s.Walk env os toks l l') : t.Walk env dirs toks (g l) (g l') := by
  induction h with
  | nil l => exact .nil _
  | cons hl hl' htype hfirst hw ih =>
    refine .cons (hmem _ hl) (hlook _ hl _ List.mem_cons_self _ htype hl') htype
      (hfirst.trans (hhead _).symm) (ih (fun l hl tok htok => hlook l hl tok ?_))
    exact List.mem_cons_of_mem _ htok

/-- A walk goes the same way after more reads. -/
theorem Server.Walk.preads (h : s.Walk env os toks l l') (k : ℕ) :
    ({ s with preads := k } : Server).Walk env os toks l l' :=
  map (s := s) (g := id) (fun _ hl => hl) (fun _ => rfl) (fun _ _ _ _ _ _ hlook => hlook) h

/-- Looking a name up in an owner's chain. -/
theorem Server.Owns.reads_find (h : s.Owns p) (hr : env.ReadsFull) (hl : l ∈ p.owners)
    (name : List UInt8) :
    s.Reads env (findDirEntryByName (l.headD endOfChain) name) (s.lookup env l name) :=
  reads_findDirEntryByName hr h.geometry (h.chain hl) (h.owners l hl).1 name

theorem reads_walkPath (h : s.Owns p) (hr : env.ReadsFull)
    (hos : ∀ l ∈ os, l ∈ p.owners) (hw : s.Walk env os toks l l') :
    s.Reads env (walkPath toks (l.headD endOfChain)) (some (l'.headD endOfChain)) := by
  induction hw with
  | nil l => exact .pure s env _
  | cons hl hlook htype hfirst hw ih =>
    refine (h.reads_find hr (hos _ hl) _).bind ?_
    rw [hlook]
    dsimp only
    rw [if_neg (not_not_intro htype), hfirst]
    exact ih

/-- **Finding an entry by its path** is looking its name up in the directory
the rest of the path leads to. -/
theorem reads_findDirEntryByPath (h : s.Owns p) (hr : env.ReadsFull)
    (hos : ∀ l ∈ os, l ∈ p.owners) (hn : IsName name) (ht : ∀ x ∈ toks, IsName x)
    (hroot : l.headD endOfChain = s.superblock.rootClusterStart)
    (hw : s.Walk env os toks l l') (hl : l' ∈ os) :
    s.Reads env (findDirEntryByPath (pathOf (toks ++ [name]))) (s.lookup env l' name) := by
  have hnames : ∀ x ∈ toks ++ [name], x ≠ [] := by
    intro x hx
    rcases List.mem_append.mp hx with hx | hx
    · exact (ht x hx).ne_nil
    · rw [List.mem_singleton.mp hx]
      exact hn.ne_nil
  rw [findDirEntryByPath, if_neg (Int.not_le.mpr (strcmp_pathOf_pos hnames (by simp)))]
  refine Server.Reads.get_bind (fun k => (reads_getParentPath hn.noSlash).bind
    ((reads_getTargetName hn.noSlash).bind ?_))
  rw [splitOn_pathOf (fun x hx => (ht x hx).noSlash)]
  show s.Reads env (walkPath toks s.superblock.rootClusterStart >>= _) _
  rw [← hroot]
  exact (reads_walkPath h hr hos hw).bind (h.reads_find hr (hos _ hl) name)

/-- **The first cluster of a directory**, by its path. -/
theorem reads_findFirstClusterByPath (h : s.Owns p) (hr : env.ReadsFull)
    (hos : ∀ l ∈ os, l ∈ p.owners) (ht : ∀ x ∈ toks, IsName x)
    (hroot : l.headD endOfChain = s.superblock.rootClusterStart)
    (hw : s.Walk env os toks l l') :
    s.Reads env (findFirstClusterByPath (pathOf toks)) (l'.headD endOfChain) := by
  refine Server.Reads.get_bind (fun k => ?_)
  dsimp only
  rcases toks.eq_nil_or_concat with rfl | ⟨toks', tok, rfl⟩
  · cases hw
    rw [if_neg (by decide), hroot]
    exact .pure s env _
  · rw [List.concat_eq_append] at *
    obtain ⟨m, e, hm, hmos, hlook, htype, hfirst⟩ := hw.exists_last
    have htok : IsName tok := ht tok (by simp)
    have ht' : ∀ x ∈ toks', IsName x := fun x hx => ht x (by simp [hx])
    rw [if_pos (strcmp_pathOf_pos (fun x hx => (ht x hx).ne_nil) (by simp))]
    refine (reads_findDirEntryByPath h hr hos htok ht' hroot hm hmos).bind ?_
    rw [hlook, ← hfirst]
    exact .pure s env _

/-- **The lookup every operation on a file starts with.** -/
theorem reads_lookupTarget (h : s.Owns p) (hr : env.ReadsFull)
    (hos : ∀ l ∈ os, l ∈ p.owners) (hn : IsName name) (ht : ∀ x ∈ toks, IsName x)
    (hroot : l.headD endOfChain = s.superblock.rootClusterStart)
    (hw : s.Walk env os toks l l') (hl : l' ∈ os)
    (hlook : s.lookup env l' name = some e) :
    s.Reads env (lookupTarget (pathOf (toks ++ [name]))) (l'.headD endOfChain, e) := by
  refine (reads_getParentPath hn.noSlash).bind ((reads_getTargetName hn.noSlash).bind
    ((reads_findFirstClusterByPath h hr hos ht hroot hw).bind
      ((h.reads_find hr (hos _ hl) name).bind ?_)))
  rw [hlook]
  exact .pure s env _

/-! ## Paths that lead to an entry -/

/-- **A path leads to an entry**: its names lead from the root directory to the directory
`l`, where the last name is found with the entry `e`. The directories are among the chains
`os`. -/
structure Server.Leads (s : Server) (env : Env) (os dirs : Multiset (List ℕ))
    (toks : List (List UInt8)) (l : List ℕ) (name : List UInt8) (e : FatDirEntry) : Prop where
  dirs_owned : ∀ d ∈ dirs, d ∈ os
  names : ∀ x ∈ toks, IsName x
  isName : IsName name
  walk : ∃ r ∈ dirs, r.headD endOfChain = s.superblock.rootClusterStart
    ∧ s.Walk env dirs toks r l
  parent : l ∈ dirs
  found : s.lookup env l name = some e

section Leads

variable {dirs : Multiset (List ℕ)}

/-- The entry is what `find_dir_entry_by_path` finds. -/
theorem Server.Leads.reads_find (hpath : s.Leads env os dirs toks l name e) (h : s.Owns p)
    (hr : env.ReadsFull) (hos : ∀ d ∈ os, d ∈ p.owners) :
    s.Reads env (findDirEntryByPath (pathOf (toks ++ [name]))) (some e) := by
  obtain ⟨r, -, hroot, hwalk⟩ := hpath.walk
  rw [← hpath.found]
  exact reads_findDirEntryByPath h hr (fun d hd => hos d (hpath.dirs_owned d hd)) hpath.isName
    hpath.names hroot hwalk hpath.parent

/-- The entry and its directory are what the operations on files look up. -/
theorem Server.Leads.reads_lookupTarget (hpath : s.Leads env os dirs toks l name e)
    (h : s.Owns p) (hr : env.ReadsFull) (hos : ∀ d ∈ os, d ∈ p.owners) :
    s.Reads env (lookupTarget (pathOf (toks ++ [name]))) (l.headD endOfChain, e) := by
  obtain ⟨r, -, hroot, hwalk⟩ := hpath.walk
  exact Fat.reads_lookupTarget h hr (fun d hd => hos d (hpath.dirs_owned d hd)) hpath.isName
    hpath.names hroot hwalk hpath.parent hpath.found

end Leads

end Fat
