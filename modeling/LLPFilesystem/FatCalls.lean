import LLPFilesystem.FatInit

/-!
# Calls on a tree

The calls that change the file system, what the kernel has looked up before it makes them
(`Call.Enabled`), and what they do to a tree of directories and files (`Call.Does`). A call
may be refused for want of space only if fewer clusters are free than the file would need
(`Op.clusters`), and every other refusal is about what the path leads to.

On a server that holds a hierarchy, a call that returns does to its tree what the call does
(`Server.Holds.call`).
-/

namespace Fat

variable {env : Env} {s t u : Server} {b c d k n size offset free : ℕ} {r : ℤ}
  {f l l' o pl : List ℕ} {os dirs : Multiset (List ℕ)} {e : FatDirEntry} {x : ℕ × ℕ}
  {buf : Buf} {name : List UInt8} {toks : List (List UInt8)} {type : UInt16}
  {h : Hierarchy ℕ (List UInt8) (List UInt8)} {op : FatM ℤ}

/-- A tree of named directories and files. -/
abbrev Tree := FileTree (List UInt8) (List UInt8)

/-- **The operations that change the file system.** -/
inductive Op where
  | mkdir
  | mknod (mode : ℕ)
  | create (mode : ℕ)
  | unlink
  | rmdir
  /-- Write the first `size` bytes of the buffer at `offset`. -/
  | write (buf : Buf) (size offset : ℕ)
  /-- Set the length. -/
  | truncate (size : ℕ)

/-- The operation that FUSE calls for a path. -/
def Op.code (path : List UInt8) : Op → FatM ℤ
  | mkdir => fatMkdir path
  | mknod mode => fatMknod path mode
  | create mode => fatCreate path mode
  | unlink => fatUnlink path
  | rmdir => fatRmdir path
  | write buf size offset => fatWrite path buf size offset
  | truncate size => fatTruncate path size

/-- The clusters of `b` bytes that an operation needs at most. -/
def Op.clusters (b : ℕ) : Op → ℕ
  | mkdir | mknod _ | create _ => 1
  | unlink | rmdir => 0
  | write _ size offset => (offset + size - 1) / b + 1
  | truncate size => (size - 1) / b + 1

/-- **A call**: an operation on a name in a directory. -/
structure Call where
  dir : List (List UInt8)
  name : List UInt8
  op : Op

/-- The names on the path of a call. -/
def Call.names (c : Call) : List (List UInt8) := c.dir ++ [c.name]

def Call.code (c : Call) : FatM ℤ := c.op.code (pathOf c.names)

/-! ## What the kernel has looked up -/

/-- What the lookup of a path finds. -/
def Server.Finds (s : Server) (env : Env) (path : List UInt8) (a : Option FatDirEntry) : Prop :=
  ∃ t, (findDirEntryByPath path).run env s = .ok a t

/-- The path leads to a directory. -/
def Server.IsDir (s : Server) (env : Env) (toks : List (List UInt8)) : Prop :=
  toks = [] ∨ ∃ e, s.Finds env (pathOf toks) (some e) ∧ e.type = dirEntryTypeSubdir

/-- **A directory takes a new name**: the name fits into an entry, the first free slot lies
inside its cluster, and if there is none, the last free cluster is not the only one. -/
structure Server.Takes (s : Server) (env : Env) (dir : List (List UInt8)) (name : List UInt8) :
    Prop where
  fits : NameFits name
  inside : ∀ c t l x, (findParentCluster (pathOf dir)).run env s = .ok c t → s.Chain c l →
    s.findSlot env l FatDirEntry.isFree = some x → s.Inside x
  room : ∀ c t l f, (findParentCluster (pathOf dir)).run env s = .ok c t → s.Chain c l →
    s.findSlot env l FatDirEntry.isFree = none →
    s.Chain s.superblock.freeClusterStart f → f.length ≠ 1

/-- **When a call may be made**: its directory is one, the name is not there yet if it is to
be made, and otherwise it is there, as a file if it is written or truncated. -/
def Op.Enabled (env : Env) (s : Server) (dir : List (List UInt8)) (name : List UInt8) :
    Op → Prop
  | mkdir | mknod _ | create _ => s.IsDir env dir
    ∧ s.Finds env (pathOf (dir ++ [name])) none ∧ s.Takes env dir name
  | unlink | rmdir => ∃ e, s.Finds env (pathOf (dir ++ [name])) (some e)
  | write _ size offset => 0 < size ∧ offset + size < 2 ^ 32
    ∧ ∃ e, s.Finds env (pathOf (dir ++ [name])) (some e) ∧ e.type = dirEntryTypeFile
  -- the number of zeros is not what `-ENOMEM` is as an `unsigned int`
  | truncate size => size < 2 ^ 32
    ∧ ∃ e, s.Finds env (pathOf (dir ++ [name])) (some e) ∧ e.type = dirEntryTypeFile
      ∧ size ≠ e.size.toNat + (2 ^ 32 - 12)

structure Call.Enabled (env : Env) (s : Server) (c : Call) : Prop where
  names : ∀ n ∈ c.names, ChildName n
  op : c.op.Enabled env s c.dir c.name

theorem Call.Enabled.dirNames {c : Call} (hen : c.Enabled env s) : ∀ x ∈ c.dir, ChildName x :=
  fun x hx => hen.names x (List.mem_append_left _ hx)

theorem Call.Enabled.childName {c : Call} (hen : c.Enabled env s) : ChildName c.name :=
  hen.names c.name (List.mem_append_right _ (List.mem_singleton_self _))

/-! ## What a call does to a tree -/

/-- **Overwriting**: the bytes are in their place, behind the old ones or a gap of any bytes,
and the rest is what it was. -/
def Overwritten (old : List UInt8) (offset : ℕ) (bytes new : List UInt8) : Prop :=
  ∃ gap : List UInt8, gap.length = offset - old.length
    ∧ new = (old ++ gap).take offset ++ bytes ++ old.drop (offset + bytes.length)

/-- Bytes that are blitted over others overwrite them. -/
theorem overwritten_blit {dst : Buf} (old : List UInt8) (offset size : ℕ)
    (hold : old = (List.range old.length).map dst) :
    Overwritten old offset ((List.range size).map buf)
      ((List.range (max old.length (offset + size))).map (dst.blit offset buf size)) := by
  set n := old.length with hn
  refine ⟨(List.range (offset - n)).map fun i => dst (n + i), by simp [hn], ?_⟩
  have hext : old ++ (List.range (offset - n)).map (fun i => dst (n + i))
      = (List.range (max n offset)).map dst := by
    rw [show max n offset = n + (offset - n) by omega, List.range_add, List.map_append, ← hold,
      List.map_map]
    rfl
  rw [hext, show max n (offset + size) = max (max n offset) (offset + size) by omega,
    Buf.map_range_blit (Nat.le_max_right n offset), List.length_map, List.length_range]
  congr 1
  -- behind the bytes the gap does not count
  rcases Nat.le_total n offset with hle | hle
  · rw [List.drop_eq_nil_of_le (by simp; omega), List.drop_eq_nil_of_le (by omega)]
  · rw [Nat.max_eq_left hle, ← hold]

/-- **What an operation does to a path of a tree**, if `free` clusters of `b` bytes are free:
what it returns, and what the path leads to then. -/
inductive Op.Does (b free : ℕ) (T : Tree) (p : List (List UInt8)) :
    Op → ℤ → Option (Node (List UInt8)) → Prop where
  | mkdir (hp : T p = none) : Does b free T p mkdir 0 (some .dir)
  | mknod (mode : ℕ) (hmode : sIsreg mode = true) (hp : T p = none) :
    Does b free T p (mknod mode) 0 (some (.file []))
  | create (mode : ℕ) (hmode : sIsreg (mode ||| sIfreg) = true) (hp : T p = none) :
    Does b free T p (create mode) 0 (some (.file []))
  | unlink (old : List UInt8) (hp : T p = some (.file old)) : Does b free T p unlink 0 none
  | rmdir (hp : T p = some .dir) (hempty : ∀ n, T (p ++ [n]) = none) :
    Does b free T p rmdir 0 none
  | write (buf : Buf) (size offset : ℕ) (old new : List UInt8) (hp : T p = some (.file old))
    (hnew : Overwritten old offset ((List.range size).map buf) new) :
    Does b free T p (write buf size offset) size (some (.file new))
  | truncate (n : ℕ) (old : List UInt8) (hp : T p = some (.file old)) :
    Does b free T p (truncate n) 0
      (some (.file ((old ++ List.replicate (n - old.length) 0).take n)))
  /-- There is no space. -/
  | full (op : Op) (r : ℤ) (hfull : free < op.clusters b) (hr : r < 0) :
    Does b free T p op r (T p)
  /-- There is no space, and `fat_create` does not say so. -/
  | fullCreate (mode : ℕ) (hfull : free < 1) : Does b free T p (create mode) 0 (T p)
  | notRegular (mode : ℕ) (hmode : sIsreg mode = false) :
    Does b free T p (mknod mode) (-eacces) (T p)
  | notRegularCreate (mode : ℕ) (hmode : sIsreg (mode ||| sIfreg) = false) :
    Does b free T p (create mode) 0 (T p)
  | isDir (hp : T p = some .dir) : Does b free T p unlink (-1) (T p)
  | notDir (old : List UInt8) (r : ℤ) (hp : T p = some (.file old)) (hr : r < 0) :
    Does b free T p rmdir r (T p)
  | notEmpty (n : List UInt8) (hp : T p = some .dir) (hn : T (p ++ [n]) ≠ none) :
    Does b free T p rmdir (-enotempty) (T p)

/-- **What a call does to a tree**: it is a change at its path, which is in a directory. -/
def Call.Does (b free : ℕ) (T : Tree) (c : Call) (r : ℤ) (T' : Tree) : Prop :=
  T c.dir = some .dir ∧ ∃ node, c.op.Does b free T c.names r node
    ∧ T' = Function.update T c.names node

/-- **The server holds the tree**, on a disk with this superblock but for the free list: it is
the tree of a hierarchy that the server holds. -/
def Server.HoldsTree (s : Server) (env : Env) (sb : Superblock) (T : Tree) : Prop :=
  ∃ h f os dirs, s.Holds env h f os dirs ∧ (∃ v, s.superblock = { sb with freeClusterStart := v })
    ∧ h.tree = T

/-- The one `unsigned int` that is `-ENOMEM` as an `int`. -/
theorem eq_of_i32_neg (hk : k < 2 ^ 32) (h : i32 k = -enomem) : k = 2 ^ 32 - 12 := by
  unfold i32 enomem at h
  have hmod := Int.bmod_emod (x := (k : ℤ)) (m := 2 ^ 32)
  rw [h] at hmod
  omega

/-! ## Lookups in a hierarchy -/

namespace Server.Holds

/-- **What the kernel has found** is what the hierarchy has. -/
theorem found {a : Option FatDirEntry} (hh : s.Holds env h f os dirs) (hr : env.ReadsFull)
    (hnames : ∀ x ∈ toks, ChildName x) (hname : ChildName name)
    (hf : s.Finds env (pathOf (toks ++ [name])) a) : Found s env h dirs toks name a := by
  obtain ⟨a', hreads, hfound⟩ := hh.reads_find hr hnames hname
  obtain ⟨k, hk⟩ := hreads.run
  obtain ⟨t, ht⟩ := hf
  rw [hk] at ht
  obtain rfl := (Outcome.ok.inj ht).1
  exact hfound

/-- A path that leads to an entry of a directory. -/
theorem walk_dir (hh : s.Holds env h f os dirs) (hl : l ∈ dirs) (hn : ChildName name)
    (hwalk : h.walk h.root toks = some (l.headD endOfChain))
    (hlook : s.lookup env l name = some e) :
    h.walk h.root (toks ++ [name]) = some e.firstCluster.toNat :=
  Hierarchy.walk_concat_eq_some.mpr ⟨_, hwalk, hh.child_of_lookup hl hn hlook⟩

/-- **The path of a directory** leads to one in the hierarchy. -/
theorem exists_dirAt (hh : s.Holds env h f os dirs) (hr : env.ReadsFull)
    (hnames : ∀ x ∈ toks, ChildName x) (hdir : s.IsDir env toks) :
    ∃ l ∈ dirs, h.walk h.root toks = some (l.headD endOfChain) := by
  have hwf := hh.wellFormed
  rcases hdir with rfl | ⟨e, hf, htype⟩
  · obtain ⟨r, hr', hroot⟩ := hwf.root
    exact ⟨r, hr', congrArg some (hh.root.trans hroot.symm)⟩
  · rcases toks.eq_nil_or_concat with rfl | ⟨toks', n, rfl⟩
    · obtain ⟨r, hr', hroot⟩ := hwf.root
      exact ⟨r, hr', congrArg some (hh.root.trans hroot.symm)⟩
    · rw [List.concat_eq_append] at *
      have hn : ChildName n := hnames n (by simp)
      cases hh.found hr (fun x hx => hnames x (by simp [hx])) hn hf with
      | entry l e hl hwalk hlook =>
        cases hh.object l hl n hn e hlook with
        | dir _ l' hl' hhead =>
          exact ⟨l', hl', by rw [hh.walk_dir hl hn hwalk hlook, hhead]⟩
        | file htype' => rw [htype] at htype'; exact absurd htype' (by decide)

/-- The walk on the disk to a directory of the hierarchy. -/
theorem exists_walk_to (hh : s.Holds env h f os dirs) (hl : l ∈ dirs)
    (hwalk : h.walk h.root toks = some (l.headD endOfChain)) :
    ∃ r ∈ dirs, r.headD endOfChain = s.superblock.rootClusterStart ∧ s.Walk env dirs toks r l := by
  have hwf := hh.wellFormed
  obtain ⟨-, l', hl', hhead, hw⟩ := hh.exists_walk hwalk (hh.dirData l hl)
  obtain rfl := hwf.owns.eq_of_head (hwf.owned l' hl') (hwf.owned l hl) hhead
  exact hw

/-- **The parent directory of a path that leads nowhere.** -/
theorem exists_parent (hh : s.Holds env h f os dirs) (hr : env.ReadsFull)
    (hnames : ∀ x ∈ toks, ChildName x) (hname : ChildName name) (hdir : s.IsDir env toks)
    (hf : s.Finds env (pathOf (toks ++ [name])) none) :
    ∃ pl ∈ dirs, h.walk h.root toks = some (pl.headD endOfChain)
      ∧ s.HasParent env f os dirs toks pl name := by
  have hwf := hh.wellFormed
  obtain ⟨pl, hpl, hwalk⟩ := hh.exists_dirAt hr hnames hdir
  refine ⟨pl, hpl, hwalk, hwf.owns, hwf.owned, fun x hx => (hnames x hx).isName, hname.isName,
    hh.exists_walk_to hpl hwalk, hpl, ?_⟩
  cases hh.found hr hnames hname hf with
  | missing hnone =>
    cases hlook : s.lookup env pl name with
    | none => rfl
    | some e =>
      rw [hh.walk_dir hpl hname hwalk hlook] at hnone
      cases hnone

/-- **The file of a path.** -/
theorem exists_file (hh : s.Holds env h f os dirs) (hr : env.ReadsFull)
    (hnames : ∀ x ∈ toks, ChildName x) (hname : ChildName name)
    (hf : s.Finds env (pathOf (toks ++ [name])) (some e)) (htype : e.type = dirEntryTypeFile) :
    ∃ o os' pl x, os = o ::ₘ os' ∧ s.FileAt env toks name f o os' dirs pl x e
      ∧ h.walk h.root toks = some (pl.headD endOfChain)
      ∧ h.tree (toks ++ [name]) = some (.file (s.contents o e.size.toNat)) := by
  have hwf := hh.wellFormed
  cases hh.found hr hnames hname hf with
  | entry pl e hpl hwalk hlook =>
    cases hh.object pl hpl name hname e hlook with
    | dir htype' => rw [htype] at htype'; exact absurd htype' (by decide)
    | file _ o ho hhead hcovers hdata =>
      obtain ⟨x, hx, hxe, hxn, hin, -, hu⟩ := hh.exists_child_slot hpl hname hlook
      obtain ⟨os', rfl⟩ := Multiset.exists_cons_of_mem ho
      have hne : ∀ l ∈ dirs, l ∈ os' := fun l hl =>
        (Multiset.mem_cons.mp (hwf.owned l hl)).resolve_left
          (hh.file_ne_dir hl (by rw [hhead, hdata]; exact Option.some_ne_none _))
      refine ⟨o, os', pl, x, rfl, ⟨⟨hwf.owns, hne pl hpl, hhead, ?_, hxe, hin, htype⟩, hcovers,
        hxn, fun y hy => (hnames y hy).isName, hname.isName, hne, hpl,
        hh.exists_walk_to hpl hwalk⟩, hwalk, ?_⟩
      · exact Server.findSlot_of_unique hx (by rw [hxe]; exact beq_self_eq_true _)
          fun y hy hyn => hu y hy ((eq_of_beq hyn).trans hxn)
      · rw [Hierarchy.tree, hh.walk_dir hpl hname hwalk hlook, Option.map_some, Hierarchy.node,
          hdata]
        rfl

/-! ## Creations -/

/-- **A creation with a free cluster** puts the object into the tree. -/
theorem make (hh : s.Holds env h (d :: f) os dirs) (hr : env.Reliable) (hpl : pl ∈ dirs)
    (hwalk : h.walk h.root toks = some (pl.headD endOfChain))
    (hp : s.HasParent env (d :: f) os dirs toks pl name) (hn : ChildName name)
    (ht : s.Takes env toks name) (htype : type = dirEntryTypeFile ∨ type = dirEntryTypeSubdir) :
    ∃ t, (addDirEntry (pathOf (toks ++ [name])) type).run env s = .ok 0 t
      ∧ t.HoldsTree env s.superblock (Function.update h.tree (toks ++ [name])
        (some (if type = dirEntryTypeSubdir then .dir else .file []))) := by
  have hwf := hh.wellFormed
  obtain ⟨k₁, hparent⟩ := hp.directory.findParentCluster_run hr.reads
  have hchain := hwf.owns.chain (hwf.owned pl hpl)
  obtain ⟨k₀, hk₀⟩ := hp.addDirEntry_run hr.reads type
  obtain ⟨os, rfl⟩ := Multiset.exists_cons_of_mem (hwf.owned pl hpl)
  have hh₀ := hh.preads k₀
  have hp₀ := hp.preads k₀
  have hroom : s.findSlot env pl FatDirEntry.isFree = none → f ≠ [] := by
    rintro hnone rfl
    exact ht.room _ _ pl _ hparent hchain hnone hwf.owns.freeChain rfl
  obtain ⟨t, x, k, hrun, hm, -⟩ := createEntry_made hr hp₀.owns hp₀.root_owned ht.fits
    (fun x hx => ht.inside _ _ pl x hparent hchain hx) hroom type
  have hins : ({ s with preads := k₀ } : Server).Inserts t env h d f pl os dirs x k name type :=
    ⟨hh₀, hpl, hn, hp₀.absent, ht.fits, htype, hm⟩
  refine ⟨t, hk₀.trans hrun, _, _, _, _, hins.holds, hm.superblock, ?_⟩
  rw [Hierarchy.tree_insert hh.proper hwalk (hh.child_of_not_found hpl hp.absent) hh.fresh]
  congr 2
  split <;> rfl

/-- **What a creation does** when it returns. -/
theorem make_cases (hh : s.Holds env h f os dirs) (hr : env.Reliable) (hpl : pl ∈ dirs)
    (hwalk : h.walk h.root toks = some (pl.headD endOfChain))
    (hp : s.HasParent env f os dirs toks pl name) (hn : ChildName name)
    (ht : s.Takes env toks name) (htype : type = dirEntryTypeFile ∨ type = dirEntryTypeSubdir)
    (hrun : (do
      let free ← hasFreeCluster
      if free then addDirEntry (pathOf (toks ++ [name])) type
      else return -enomem : FatM ℤ).run env s = .ok r t) :
    f = [] ∧ r = -enomem ∧ t = s
      ∨ r = 0 ∧ t.HoldsTree env s.superblock
        (Function.update h.tree (toks ++ [name])
          (some (if type = dirEntryTypeSubdir then .dir else .file []))) := by
  rw [Prog.bind_ok _ (hasFreeCluster_run hh.wellFormed.owns hp.root_owned)] at hrun
  cases f with
  | nil =>
    obtain ⟨rfl, rfl⟩ := Outcome.ok.inj hrun
    exact Or.inl ⟨rfl, rfl, rfl⟩
  | cons d f =>
    rw [decide_eq_true (List.cons_ne_nil d f), if_pos rfl] at hrun
    obtain ⟨t', hrun', ht'⟩ := hh.make hr hpl hwalk hp hn ht htype
    rw [hrun] at hrun'
    obtain ⟨rfl, rfl⟩ := Outcome.ok.inj hrun'
    exact Or.inr ⟨rfl, ht'⟩

/-! ## Deletions -/

/-- A directory that is not empty has a child. -/
theorem exists_child (hh : s.Holds env h f os dirs) (hl : l ∈ dirs)
    (hne : ¬ s.EmptyDir env l) : ∃ n, h.child (l.headD endOfChain) n ≠ none := by
  unfold Server.EmptyDir at hne
  push Not at hne
  obtain ⟨x, hx, hc⟩ := hne
  have hn := hh.named l hl x hx ((Bool.eq_false_or_eq_true _).resolve_right hc)
  cases hlook : s.lookup env l (s.slotEntry env x).nameStr with
  | none => exact absurd rfl (Server.lookup_eq_none.mp hlook x hx)
  | some e =>
    refine ⟨(s.slotEntry env x).nameStr, ?_⟩
    rw [hh.child_of_lookup hl hn hlook]
    exact Option.some_ne_none _

/-- **What an entry is a deletion of**: its object is gone from the tree. -/
theorem erase (hh : s.Holds env h f os dirs) (hr : env.Reliable) (hpl : pl ∈ dirs)
    (hwalk : h.walk h.root toks = some (pl.headD endOfChain)) (hn : ChildName name)
    (hlook : s.lookup env pl name = some e)
    (hempty : ∀ o ∈ dirs, o.headD endOfChain = e.firstCluster.toNat → s.EmptyDir env o) (k : ℕ) :
    ∃ t, (do
        freeClusterChain e.firstCluster.toNat
        updateDirEntry (pl.headD endOfChain) e true).run env { s with preads := k } = .ok 0 t
      ∧ t.HoldsTree env s.superblock
        (Function.update h.tree (toks ++ [name]) none) := by
  have hwf := hh.wellFormed
  obtain ⟨x, o, os', hx, rfl, -, hu, rfl, hfirst⟩ := hwf.exists_slot hpl hlook
    hn.isName.ne_nil hn.notDot hn.notDotdot
  have hname := (Server.lookup_eq_some hlook).1
  obtain ⟨t, hrun, hrem⟩ := removeEntry_removed (s := { s with preads := k }) hr
    (hwf.owns.preads k) hx fun y hy hyn => hu y hy (by
      rw [← hname]
      exact hyn)
  have hrems : ({ s with preads := k } : Server).Removes t env h f pl o os' dirs x name :=
    ⟨hh.preads k, hpl, hn, hx, hlook, hfirst, fun ho => hempty o ho hfirst.symm, hrem⟩
  refine ⟨t, ?_, _, _, _, _, hrems.holds, hrem.superblock, ?_⟩
  · rw [hfirst]
    exact hrun
  · exact Hierarchy.tree_remove hh.proper hwalk (hh.child_of_lookup hpl hn hlook)
      (hh.childless hempty)

/-- What a path leads to that has an entry. -/
theorem tree_entry (hh : s.Holds env h f os dirs) (hpl : pl ∈ dirs)
    (hwalk : h.walk h.root toks = some (pl.headD endOfChain)) (hn : ChildName name)
    (hlook : s.lookup env pl name = some e) :
    e.type = dirEntryTypeSubdir ∧ h.tree (toks ++ [name]) = some .dir
        ∧ (∃ o ∈ dirs, o.headD endOfChain = e.firstCluster.toNat)
      ∨ e.type = dirEntryTypeFile
        ∧ (∃ o ∈ os, o.headD endOfChain = e.firstCluster.toNat ∧ o ∉ dirs
          ∧ e.size.toNat ≤ o.length * s.superblock.bytePerCluster
          ∧ h.tree (toks ++ [name]) = some (.file (s.contents o e.size.toNat))) := by
  have hpath := hh.walk_dir hpl hn hwalk hlook
  rw [Hierarchy.tree, hpath, Option.map_some, Hierarchy.node]
  cases hh.object pl hpl name hn e hlook with
  | dir htype o ho hhead =>
    refine Or.inl ⟨htype, ?_, o, ho, hhead⟩
    rw [← hhead, hh.dirData o ho]
    rfl
  | file htype o ho hhead hcovers hdata =>
    refine Or.inr ⟨htype, o, ho, hhead, fun hod => ?_, hcovers, ?_⟩
    · exact hh.file_ne_dir hod (by rw [hhead, hdata]; exact Option.some_ne_none _) rfl
    · rw [hdata]
      rfl

/-- The tree has a directory where a directory is. -/
theorem tree_dir (hh : s.Holds env h f os dirs) (hpl : pl ∈ dirs)
    (hwalk : h.walk h.root toks = some (pl.headD endOfChain)) : h.tree toks = some .dir := by
  rw [Hierarchy.tree, hwalk, Option.map_some, Hierarchy.node, hh.dirData pl hpl]
  rfl

/-- The lookup of the target of an operation. -/
theorem lookupTarget_run (hh : s.Holds env h f os dirs) (hr : env.ReadsFull) (hpl : pl ∈ dirs)
    (hwalk : h.walk h.root toks = some (pl.headD endOfChain))
    (hnames : ∀ x ∈ toks, ChildName x) (hn : ChildName name)
    (hlook : s.lookup env pl name = some e) :
    ∃ k, (lookupTarget (pathOf (toks ++ [name]))).run env s
      = .ok (pl.headD endOfChain, e) { s with preads := k } := by
  have hwf := hh.wellFormed
  obtain ⟨r, -, hroot, hw⟩ := hh.exists_walk_to hpl hwalk
  exact (reads_lookupTarget hwf.owns hr hwf.owned hn.isName (fun x hx => (hnames x hx).isName)
    hroot hw hpl hlook).run

/-- The tree is held after more reads. -/
theorem holdsTree (hh : s.Holds env h f os dirs) (ht : s.ReadTo t) :
    t.HoldsTree env s.superblock h.tree := by
  obtain ⟨k, rfl⟩ := ht
  exact ⟨h, f, os, dirs, hh.preads k, ⟨_, rfl⟩, rfl⟩

/-- **What `fat_unlink` does.** -/
theorem unlink_cases (hh : s.Holds env h f os dirs) (hr : env.Reliable) (hpl : pl ∈ dirs)
    (hwalk : h.walk h.root toks = some (pl.headD endOfChain))
    (hnames : ∀ x ∈ toks, ChildName x) (hn : ChildName name)
    (hlook : s.lookup env pl name = some e) :
    ∃ r t, (fatUnlink (pathOf (toks ++ [name]))).run env s = .ok r t
      ∧ ((∃ old, h.tree (toks ++ [name]) = some (.file old)) ∧ r = 0
          ∧ t.HoldsTree env s.superblock
            (Function.update h.tree (toks ++ [name]) none)
        ∨ h.tree (toks ++ [name]) = some .dir ∧ r = -1 ∧ s.ReadTo t) := by
  obtain ⟨k, hk⟩ := hh.lookupTarget_run hr.reads hpl hwalk hnames hn hlook
  rw [fatUnlink, Prog.bind_ok _ hk]
  dsimp only
  rcases hh.tree_entry hpl hwalk hn hlook with
    ⟨htype, hdir, -⟩ | ⟨htype, o, ho, hhead, hod, -, hfile⟩
  · rw [if_pos (by rw [htype]; decide)]
    exact ⟨-1, _, rfl, Or.inr ⟨hdir, rfl, k, rfl⟩⟩
  · rw [if_neg (not_not_intro htype)]
    obtain ⟨t, hrun, ht⟩ := hh.erase hr hpl hwalk hn hlook (fun o' ho' hhead' => by
      have hwf := hh.wellFormed
      rw [hwf.owns.eq_of_head (hwf.owned o' ho') ho (hhead'.trans hhead.symm)] at ho'
      exact absurd ho' hod) k
    exact ⟨0, t, hrun, Or.inl ⟨⟨_, hfile⟩, rfl, ht⟩⟩

/-- **What `fat_rmdir` does.** -/
theorem rmdir_cases (hh : s.Holds env h f os dirs) (hr : env.Reliable) (hpl : pl ∈ dirs)
    (hwalk : h.walk h.root toks = some (pl.headD endOfChain))
    (hnames : ∀ x ∈ toks, ChildName x) (hn : ChildName name)
    (hlook : s.lookup env pl name = some e) :
    ∃ r t, (fatRmdir (pathOf (toks ++ [name]))).run env s = .ok r t
      ∧ (h.tree (toks ++ [name]) = some .dir ∧ (∀ m, h.tree (toks ++ [name] ++ [m]) = none)
          ∧ r = 0 ∧ t.HoldsTree env s.superblock
            (Function.update h.tree (toks ++ [name]) none)
        ∨ h.tree (toks ++ [name]) = some .dir ∧ (∃ m, h.tree (toks ++ [name] ++ [m]) ≠ none)
          ∧ r = -enotempty ∧ s.ReadTo t
        ∨ (∃ old, h.tree (toks ++ [name]) = some (.file old)) ∧ r < 0 ∧ s.ReadTo t) := by
  have hwf := hh.wellFormed
  have hpath := hh.walk_dir hpl hn hwalk hlook
  obtain ⟨k, hk⟩ := hh.lookupTarget_run hr.reads hpl hwalk hnames hn hlook
  rw [fatRmdir, Prog.bind_ok _ hk]
  dsimp only
  rcases hh.tree_entry hpl hwalk hn hlook with
    ⟨htype, hdir, o, ho, hhead⟩ | ⟨htype, o, ho, hhead, -, -, hfile⟩
  · obtain ⟨k', hempty⟩ := (reads_isDirEmpty (o := o) hr.reads hwf.owns (hwf.owned o ho)) k
    rw [hhead] at hempty
    rw [Prog.bind_ok _ hempty]
    by_cases he : s.EmptyDir env o
    · rw [decide_eq_true he, if_pos rfl, if_neg (not_not_intro htype)]
      have hempty' : ∀ o' ∈ dirs, o'.headD endOfChain = e.firstCluster.toNat →
          s.EmptyDir env o' := fun o' ho' hhead' => by
        rwa [hwf.owns.eq_of_head (hwf.owned o' ho') (hwf.owned o ho) (hhead'.trans hhead.symm)]
      obtain ⟨t, hrun, ht⟩ := hh.erase hr hpl hwalk hn hlook hempty' k'
      refine ⟨0, t, hrun, Or.inl ⟨hdir, fun m => ?_, rfl, ht⟩⟩
      rw [Hierarchy.tree, Hierarchy.walk_concat, hpath, Option.bind_some, hh.childless hempty' m]
      rfl
    · rw [decide_eq_false he, if_neg (by decide)]
      obtain ⟨m, hm⟩ := hh.exists_child ho he
      rw [hhead] at hm
      refine ⟨_, _, rfl, Or.inr (Or.inl ⟨hdir, ⟨m, ?_⟩, rfl, k', rfl⟩)⟩
      rw [Hierarchy.tree, Hierarchy.walk_concat, hpath, Option.bind_some]
      exact fun hc => hm (Option.map_eq_none_iff.mp hc)
  · obtain ⟨k', hempty⟩ := (reads_isDirEmpty (o := o) hr.reads hwf.owns ho) k
    rw [hhead] at hempty
    rw [Prog.bind_ok _ hempty]
    by_cases he : s.EmptyDir env o
    · rw [decide_eq_true he, if_pos rfl, if_pos (by rw [htype]; decide)]
      exact ⟨_, _, rfl, Or.inr (Or.inr ⟨⟨_, hfile⟩, by decide, k', rfl⟩)⟩
    · rw [decide_eq_false he, if_neg (by decide)]
      exact ⟨_, _, rfl, Or.inr (Or.inr ⟨⟨_, hfile⟩, by decide, k', rfl⟩)⟩

/-! ## Writes -/

/-- **A file at a path that is a file there again** has new contents in the tree. -/
theorem rewrite {f' o' : List ℕ} {e' : FatDirEntry} (hh : s.Holds env h f (o ::ₘ os) dirs)
    (hfile : s.FileAt env toks name f o os dirs pl x e)
    (hfile' : t.FileAt env toks name f' o' os dirs pl x e') (hn : ChildName name)
    (hwalk : h.walk h.root toks = some (pl.headD endOfChain))
    (hhead : o'.headD endOfChain = o.headD endOfChain)
    (hsb : ∃ v, t.superblock = (s.setFree v).superblock)
    (hothers : ∀ l ∈ os, ∀ y ∈ s.slots l, y ≠ x → t.slotEntry env y = s.slotEntry env y)
    (hall : ∀ c, c ∈ f ∨ c ∈ o → c ∈ f' ∨ c ∈ o') :
    t.HoldsTree env s.superblock (Function.update h.tree (toks ++ [name])
      (some (.file (t.contents o' e'.size.toNat)))) := by
  have hlook : s.lookup env pl name = some e := hfile.nameStr_eq ▸ hfile.file.lookup
  have hb := Server.bytePerCluster_of_setFree hsb
  have hfirst : e'.firstCluster = e.firstCluster :=
    UInt32.toNat_inj.mp (by rw [← hfile'.file.head, hhead, hfile.file.head])
  have hset : s.Rewrites t env h f f' o o' os dirs pl x e e' :=
    ⟨hh, hfile.file, hfile.parent, hfile.nameStr_eq.symm ▸ hn, hfile'.file.owns, hhead, hsb,
      hfile'.file.entry, hfile'.nameStr_eq.trans hfile.nameStr_eq.symm, hfirst,
      hfile'.file.type.trans hfile.file.type.symm, hothers, hb ▸ hfile'.covers, hall⟩
  exact ⟨_, _, _, _, hset.holds, hsb,
    Hierarchy.tree_setData hh.proper (hh.walk_dir hfile.parent hn hwalk hlook) _⟩

/-- Clusters that move from the free list to a chain. -/
theorem mem_grown (k : ℕ) (hc : c ∈ f ∨ c ∈ o) : c ∈ f.drop k ∨ c ∈ o ++ f.take k := by
  rw [List.mem_append]
  rcases hc with hc | hc
  · rw [← List.take_append_drop k f, List.mem_append] at hc
    exact hc.elim (fun hc => Or.inr (Or.inr hc)) Or.inl
  · exact Or.inr (Or.inl hc)

/-- The head of a chain that has grown. -/
theorem headD_grown (hfile : s.FileAt env toks name f o os dirs pl x e) (g : List ℕ) :
    (o ++ g).headD endOfChain = o.headD endOfChain := by
  obtain ⟨a, o', rfl⟩ := List.exists_cons_of_length_pos hfile.file.length_pos
  rfl

/-- **What `fat_write` does** when it returns. -/
theorem write_cases (hh : s.Holds env h f (o ::ₘ os) dirs) (hr : env.Reliable)
    (hfile : s.FileAt env toks name f o os dirs pl x e) (hn : ChildName name)
    (hwalk : h.walk h.root toks = some (pl.headD endOfChain)) (hsize : 0 < size)
    (hsum : offset + size < 2 ^ 32)
    (hrun : (fatWrite (pathOf (toks ++ [name])) buf size offset).run env s = .ok r t) :
    r = size ∧ (∃ new, Overwritten (s.contents o e.size.toNat) offset
          ((List.range size).map buf) new
        ∧ t.HoldsTree env s.superblock
          (Function.update h.tree (toks ++ [name]) (some (.file new))))
      ∨ f.length < (offset + size - 1) / s.superblock.bytePerCluster + 1 ∧ r = -enomem
        ∧ s.ReadTo t := by
  rcases hfile.fatWrite_cases hr hsize hsum hrun with ⟨hf, rfl, hw⟩ | ⟨hf, rfl, ht⟩
  · obtain ⟨e', hfile', hsize'⟩ := hfile.written hw hf
    refine Or.inl ⟨rfl, _, ?_, hh.rewrite hfile hfile' hn hwalk (headD_grown hfile _)
      hw.superblock (fun l hl y hy hyx => hw.slotEntry_other hfile.file hl hy hyx)
      fun c => mem_grown _⟩
    have hlen : (s.contents o e.size.toNat).length = e.size.toNat := length_contents hfile.covers
    have hmax := hfile'.covers
    rw [hsize'] at hmax
    rw [hsize', Server.contents_eq hmax]
    rw [hw.bytePerCluster] at hmax
    have hbytes : (List.range (max e.size.toNat (offset + size))).map
          (t.fileBuf (o ++ f.take (s.lacking o (offset + size))))
        = (List.range (max (s.contents o e.size.toNat).length (offset + size))).map
          ((s.fileBuf o).blit offset buf size) := by
      rw [hlen]
      exact List.map_congr_left fun i hi =>
        hw.bytes i (Nat.lt_of_lt_of_le (List.mem_range.mp hi) hmax)
    rw [hbytes]
    refine overwritten_blit _ offset size ?_
    rw [hlen]
    exact Server.contents_eq hfile.covers
  · exact Or.inr ⟨Nat.lt_of_lt_of_le hf (Nat.sub_le _ _), rfl, ht⟩

/-- **What `fat_truncate` does** when it returns. -/
theorem truncate_cases (hh : s.Holds env h f (o ::ₘ os) dirs) (hr : env.Reliable)
    (hfile : s.FileAt env toks name f o os dirs pl x e) (hn : ChildName name)
    (hwalk : h.walk h.root toks = some (pl.headD endOfChain))
    (htree : h.tree (toks ++ [name]) = some (.file (s.contents o e.size.toNat)))
    (hn32 : n < 2 ^ 32) (hne : n ≠ e.size.toNat + (2 ^ 32 - 12))
    (hrun : (fatTruncate (pathOf (toks ++ [name])) n).run env s = .ok r t) :
    r = 0 ∧ t.HoldsTree env s.superblock
        (Function.update h.tree (toks ++ [name]) (some (.file
          ((s.contents o e.size.toNat
            ++ List.replicate (n - (s.contents o e.size.toNat).length) 0).take n))))
      ∨ f.length < (n - 1) / s.superblock.bytePerCluster + 1 ∧ r = -1 ∧ s.ReadTo t := by
  have hlen : (s.contents o e.size.toNat).length = e.size.toNat := length_contents hfile.covers
  rw [hlen]
  rcases hfile.fatTruncate_outcome hr hn32 hrun with
    ⟨ht, rfl, rfl⟩ | ⟨ht, hlt, hf, rfl⟩ | ⟨hlt, hf, rfl, hw⟩ | ⟨hlt, rfl, hs⟩
  · -- the length is what it was, and so is the tree
    refine Or.inl ⟨rfl, ?_⟩
    rw [Nat.sub_self, List.replicate_zero, List.append_nil, List.take_of_length_le hlen.le,
      ← htree, Function.update_eq_self]
    exact hh.holdsTree ht
  · refine Or.inr ⟨Nat.lt_of_lt_of_le hf (Nat.sub_le _ _), ?_, ht⟩
    rw [if_neg]
    intro hres
    exact hne (by rw [← eq_of_i32_neg (k := n - e.size.toNat) (by omega) hres]; omega)
  · obtain ⟨e', hfile', hsize'⟩ := hfile.extended hw hf hlt
    have hcov := hfile'.covers
    rw [hsize', hw.bytePerCluster] at hcov
    have hrew := hh.rewrite hfile hfile' hn hwalk (headD_grown hfile _) hw.superblock
      (fun l hl y hy hyx => hw.slotEntry_other hfile.file hl hy hyx) fun c => mem_grown _
    rw [hsize', hw.contents_extend (Nat.le_of_lt hlt) hfile.covers hcov] at hrew
    exact Or.inl ⟨rfl, hrew⟩
  · obtain ⟨e', hfile', hsize'⟩ := hfile.shrunk hs hlt
    have hhead : (o.take (n / s.superblock.bytePerCluster + 1)).headD endOfChain
        = o.headD endOfChain := by
      obtain ⟨a, o', rfl⟩ := List.exists_cons_of_length_pos hfile.file.length_pos
      rfl
    have hrew := hh.rewrite hfile hfile' hn hwalk hhead hs.superblock
      (fun l hl y hy hyx => hs.slotEntry_other hfile.file hl hy hyx) fun c hc => by
        rw [List.mem_append]
        rcases hc with hc | hc
        · exact Or.inl (Or.inr hc)
        · rw [← List.take_append_drop (n / s.superblock.bytePerCluster + 1) o,
            List.mem_append] at hc
          exact hc.elim Or.inr fun hc => Or.inl (Or.inl hc)
    rw [hsize', hs.contents_shrink hfile.file hlt hfile.covers] at hrew
    exact Or.inl ⟨rfl, hrew⟩

/-! ## One call -/

/-- **A creation does to the tree what it does.** -/
theorem make_does (hh : s.Holds env h f os dirs) (hr : env.Reliable)
    (hnames : ∀ x ∈ toks, ChildName x) (hn : ChildName name) (hdir : s.IsDir env toks)
    (hf : s.Finds env (pathOf (toks ++ [name])) none) (ht : s.Takes env toks name)
    (htype : type = dirEntryTypeFile ∨ type = dirEntryTypeSubdir)
    (hrun : (do
      let free ← hasFreeCluster
      if free then addDirEntry (pathOf (toks ++ [name])) type
      else return -enomem : FatM ℤ).run env s = .ok r t) :
    h.tree toks = some .dir ∧ (f = [] ∧ r = -enomem ∧ t = s
      ∨ r = 0 ∧ h.tree (toks ++ [name]) = none
        ∧ t.HoldsTree env s.superblock (Function.update h.tree (toks ++ [name])
          (some (if type = dirEntryTypeSubdir then .dir else .file [])))) := by
  obtain ⟨pl, hpl, hwalk, hp⟩ := hh.exists_parent hr.reads hnames hn hdir hf
  refine ⟨hh.tree_dir hpl hwalk, ?_⟩
  rcases hh.make_cases hr hpl hwalk hp hn ht htype hrun with hfull | ⟨hr0, hT⟩
  · exact Or.inl hfull
  · refine Or.inr ⟨hr0, ?_, hT⟩
    cases hh.found hr.reads hnames hn hf with
    | missing hnone => rw [Hierarchy.tree, hnone]; rfl

/-- **What `fat_mknod` does to the tree.** -/
theorem mknod_does {mode : ℕ} (hh : s.Holds env h f os dirs) (hr : env.Reliable)
    (hnames : ∀ x ∈ toks, ChildName x) (hn : ChildName name) (hdir : s.IsDir env toks)
    (hf : s.Finds env (pathOf (toks ++ [name])) none) (ht : s.Takes env toks name)
    (hrun : (fatMknod (pathOf (toks ++ [name])) mode).run env s = .ok r t) :
    h.tree toks = some .dir ∧ (sIsreg mode = false ∧ r = -eacces ∧ t = s
      ∨ f = [] ∧ r = -enomem ∧ t = s
      ∨ sIsreg mode = true ∧ r = 0 ∧ h.tree (toks ++ [name]) = none
        ∧ t.HoldsTree env s.superblock
          (Function.update h.tree (toks ++ [name]) (some (.file [])))) := by
  rw [fatMknod] at hrun
  cases hmode : sIsreg mode with
  | false =>
    rw [hmode, if_neg (by decide)] at hrun
    obtain ⟨rfl, rfl⟩ := Outcome.ok.inj hrun
    obtain ⟨pl, hpl, hwalk, -⟩ := hh.exists_parent hr.reads hnames hn hdir hf
    exact ⟨hh.tree_dir hpl hwalk, Or.inl ⟨rfl, rfl, rfl⟩⟩
  | true =>
    rw [hmode, if_pos rfl] at hrun
    obtain ⟨htree, hfull | ⟨hr0, hnone, hT⟩⟩ :=
      hh.make_does hr hnames hn hdir hf ht (Or.inl rfl) hrun
    · exact ⟨htree, Or.inr (Or.inl hfull)⟩
    · rw [if_neg (by decide)] at hT
      exact ⟨htree, Or.inr (Or.inr ⟨rfl, hr0, hnone, hT⟩)⟩

/-- **A call does to the tree what the call does**: if it returns, the server holds the tree
that the call leaves. -/
theorem call {c : Call} (hh : s.Holds env h f os dirs) (hr : env.Reliable)
    (hen : c.Enabled env s) (hrun : c.code.run env s = .ok r t) :
    ∃ T, t.HoldsTree env s.superblock T
      ∧ c.Does s.superblock.bytePerCluster f.length h.tree r T := by
  obtain ⟨dir, name, op⟩ := c
  have hnames := hen.dirNames
  have hn := hen.childName
  have hop := hen.op
  -- an operation that changes nothing, and one that changes what the path leads to
  have hsame : ∀ {op : Op}, h.tree dir = some .dir → s.ReadTo t →
      op.Does s.superblock.bytePerCluster f.length h.tree (dir ++ [name]) r
        (h.tree (dir ++ [name])) →
      ∃ T, t.HoldsTree env s.superblock T
        ∧ (Call.mk dir name op).Does s.superblock.bytePerCluster f.length h.tree r T :=
    fun hdir ht hdoes => ⟨h.tree, hh.holdsTree ht, hdir, _, hdoes,
      (Function.update_eq_self _ _).symm⟩
  have hchange : ∀ {op : Op} {node}, h.tree dir = some .dir →
      t.HoldsTree env s.superblock
        (Function.update h.tree (dir ++ [name]) node) →
      op.Does s.superblock.bytePerCluster f.length h.tree (dir ++ [name]) r node →
      ∃ T, t.HoldsTree env s.superblock T
        ∧ (Call.mk dir name op).Does s.superblock.bytePerCluster f.length h.tree r T :=
    fun hdir ht hdoes => ⟨_, ht, hdir, _, hdoes, rfl⟩
  cases op with
  | mkdir =>
    obtain ⟨hdir, hf, htakes⟩ := hop
    obtain ⟨htree, ⟨rfl, rfl, rfl⟩ | ⟨rfl, hnone, hT⟩⟩ :=
      hh.make_does hr hnames hn hdir hf htakes (Or.inr rfl) hrun
    · exact hsame htree ⟨_, rfl⟩ (.full _ _ Nat.one_pos (by decide))
    · rw [if_pos rfl] at hT
      exact hchange htree hT (.mkdir hnone)
  | mknod mode =>
    obtain ⟨hdir, hf, htakes⟩ := hop
    obtain ⟨htree, ⟨hmode, rfl, rfl⟩ | ⟨rfl, rfl, rfl⟩ | ⟨hmode, rfl, hnone, hT⟩⟩ :=
      hh.mknod_does hr hnames hn hdir hf htakes hrun
    · exact hsame htree ⟨_, rfl⟩ (.notRegular mode hmode)
    · exact hsame htree ⟨_, rfl⟩ (.full _ _ Nat.one_pos (by decide))
    · exact hchange htree hT (.mknod mode hmode hnone)
  | create mode =>
    obtain ⟨hdir, hf, htakes⟩ := hop
    obtain ⟨r', t', hmk, hret⟩ := Prog.bind_eq_ok_iff.mp hrun
    obtain ⟨rfl, rfl⟩ := Outcome.ok.inj hret
    obtain ⟨htree, ⟨hmode, -, rfl⟩ | ⟨rfl, -, rfl⟩ | ⟨hmode, -, hnone, hT⟩⟩ :=
      hh.mknod_does hr hnames hn hdir hf htakes hmk
    · exact hsame htree ⟨_, rfl⟩ (.notRegularCreate mode hmode)
    · exact hsame htree ⟨_, rfl⟩ (.fullCreate mode Nat.one_pos)
    · exact hchange htree hT (.create mode hmode hnone)
  | unlink =>
    obtain ⟨e, hf⟩ := hop
    cases hh.found hr.reads hnames hn hf with
    | entry pl e hpl hwalk hlook =>
      obtain ⟨r', t', hrun', hcases⟩ := hh.unlink_cases hr hpl hwalk hnames hn hlook
      have heq := hrun.symm.trans hrun'
      obtain ⟨rfl, rfl⟩ := Outcome.ok.inj heq
      have htree := hh.tree_dir hpl hwalk
      rcases hcases with ⟨⟨old, hold⟩, rfl, hT⟩ | ⟨hd, rfl, ht⟩
      · exact hchange htree hT (.unlink old hold)
      · exact hsame htree ht (.isDir hd)
  | rmdir =>
    obtain ⟨e, hf⟩ := hop
    cases hh.found hr.reads hnames hn hf with
    | entry pl e hpl hwalk hlook =>
      obtain ⟨r', t', hrun', hcases⟩ := hh.rmdir_cases hr hpl hwalk hnames hn hlook
      have heq := hrun.symm.trans hrun'
      obtain ⟨rfl, rfl⟩ := Outcome.ok.inj heq
      have htree := hh.tree_dir hpl hwalk
      rcases hcases with ⟨hd, hempty, rfl, hT⟩ | ⟨hd, ⟨m, hm⟩, rfl, ht⟩ | ⟨⟨old, hold⟩, hneg, ht⟩
      · exact hchange htree hT (.rmdir hd hempty)
      · exact hsame htree ht (.notEmpty m hd hm)
      · exact hsame htree ht (.notDir old _ hold hneg)
  | write buf size offset =>
    obtain ⟨hsize, hsum, e, hf, htype⟩ := hop
    obtain ⟨o, os', pl, x, rfl, hfile, hwalk, hold⟩ := hh.exists_file hr.reads hnames hn hf htype
    have htree := hh.tree_dir hfile.parent hwalk
    rcases hh.write_cases hr hfile hn hwalk hsize hsum hrun with
      ⟨rfl, new, hnew, hT⟩ | ⟨hfull, rfl, ht⟩
    · exact hchange htree hT (.write buf size offset _ new hold hnew)
    · exact hsame htree ht (.full _ _ hfull (by decide))
  | truncate size =>
    obtain ⟨hn32, e, hf, htype, hne⟩ := hop
    obtain ⟨o, os', pl, x, rfl, hfile, hwalk, hold⟩ := hh.exists_file hr.reads hnames hn hf htype
    have htree := hh.tree_dir hfile.parent hwalk
    rcases hh.truncate_cases hr hfile hn hwalk hold hn32 hne hrun with
      ⟨rfl, hT⟩ | ⟨hfull, rfl, ht⟩
    · exact hchange htree hT (.truncate size _ hold)
    · exact hsame htree ht (.full _ _ hfull (by decide))

end Server.Holds

end Fat
