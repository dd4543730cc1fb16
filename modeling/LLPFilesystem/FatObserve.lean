import LLPFilesystem.FatCalls
import LLPFilesystem.FatListing
import LLPFilesystem.FatRead

/-!
# What a tree looks like from outside

The operations that look at the file system, on a server that holds a tree: `fat_getattr`,
`fat_access` and `fat_open` find exactly the paths of the tree and tell directories from
files, the size of a file is the length of its contents, `fat_read` returns them from any
cluster boundary on, and `fat_readdir` lists the children of a directory
(`Server.Holds.shows`). None of them changes anything.
-/

namespace Fat

variable {env : Env} {s t : Server} {b c size offset : ℕ} {f l o pl : List ℕ}
  {os dirs : Multiset (List ℕ)} {e : FatDirEntry} {buf : Buf} {name n : List UInt8}
  {toks p : List (List UInt8)} {h : Hierarchy ℕ (List UInt8) (List UInt8)} {T : Tree}

/-- The path of these names, as FUSE passes it: the one of the root directory is `"/"`. -/
def fusePath (toks : List (List UInt8)) : List UInt8 :=
  if toks = [] then [slash] else pathOf toks

/-- The attributes of a directory. -/
def Stat.IsDir (st : Stat) (b : ℕ) : Prop :=
  st.mode = sIfdir ||| sIrwxa ∧ st.nlink = 2 ∧ ∃ k, st.size = b * k ∧ 0 < k

/-- The attributes of a file with these contents. -/
def Stat.IsFile (st : Stat) (bytes : List UInt8) : Prop :=
  st.mode = sIfreg ||| sIrwxa ∧ st.nlink = 2 ∧ st.size = bytes.length

/-- **The server shows the tree**: what the operations find at a path is what the tree has
there. -/
structure Server.Shows (s : Server) (env : Env) (b : ℕ) (T : Tree) : Prop where
  missing : ∀ p, (∀ n ∈ p, ChildName n) → T p = none →
    s.Reads env (fatGetattr (fusePath p)) (-enoent, none)
      ∧ s.Reads env (fatAccess (fusePath p)) (-enoent)
      ∧ s.Reads env (fatOpen (fusePath p)) (-enoent)
  dir : ∀ p, (∀ n ∈ p, ChildName n) → T p = some .dir →
    (∃ st : Stat, st.IsDir b ∧ s.Reads env (fatGetattr (fusePath p)) (0, some st))
      ∧ s.Reads env (fatAccess (fusePath p)) 0
      ∧ ∃ taken, s.Reads env (fatReaddir (fusePath p) 0 fun _ _ => true) (0, taken)
        ∧ (taken.map Prod.fst).Nodup
        ∧ ∀ n, ChildName n → (n ∈ taken.map Prod.fst ↔ T (p ++ [n]) ≠ none)
  file : ∀ p bytes, (∀ n ∈ p, ChildName n) → T p = some (.file bytes) →
    (∃ st : Stat, st.IsFile bytes ∧ s.Reads env (fatGetattr (fusePath p)) (0, some st))
      ∧ s.Reads env (fatAccess (fusePath p)) 0 ∧ s.Reads env (fatOpen (fusePath p)) 0
      ∧ ∀ buf size offset, size < 2 ^ 31 → b ∣ offset →
        ∃ r buf' t, (fatRead (fusePath p) buf size offset).run env s = .ok (r, buf') t
          ∧ r = (min size (bytes.length - offset) : ℕ)
          ∧ (List.range r.toNat).map buf' = (bytes.drop offset).take r.toNat

theorem fusePath_concat : fusePath (toks ++ [name]) = pathOf (toks ++ [name]) :=
  if_neg (by simp)

/-- The path of a name is not `"/"`. -/
theorem strcmp_fusePath (hnames : ∀ x ∈ toks ++ [name], ChildName x) :
    strcmp (pathOf (toks ++ [name])) [slash] ≠ 0 := by
  have hpos := strcmp_pathOf_pos (fun x hx => (hnames x hx).isName.ne_nil)
    (show toks ++ [name] ≠ [] by simp)
  exact fun h0 => absurd (h0 ▸ hpos) (by decide)

/-- Counting the clusters of a directory. -/
theorem Server.Chain.reads_count (hg : s.superblock.Geometry) (hc : s.Chain c l) :
    s.Reads env (countClusterInChain c) l.length := fun k =>
  ⟨k, countClusterInChain_run (s := { s with preads := k }) hg (hc.preads k)⟩

/-- The slots of a chain are all different. -/
theorem Server.nodup_slots (hl : l.Nodup) : (s.slots l).Nodup := by
  refine List.nodup_flatMap.mpr ⟨fun c _ => ?_, hl.imp fun hne => ?_⟩
  · exact (List.nodup_range' dirEntrySize (by decide)).map fun a b hab => (Prod.mk.inj hab).2
  · intro x hx hx'
    obtain ⟨a, -, rfl⟩ := List.mem_map.mp hx
    obtain ⟨b, -, hb⟩ := List.mem_map.mp hx'
    exact hne (Prod.mk.inj hb).1.symm

namespace Server.Holds

/-- The size of a directory. -/
theorem u32_size (hh : s.Holds env h f os dirs) (hl : l ∈ dirs) :
    u32 (s.superblock.bytePerCluster * l.length) = s.superblock.bytePerCluster * l.length := by
  have hwf := hh.wellFormed
  obtain ⟨os', rfl⟩ := Multiset.exists_cons_of_mem (hwf.owned l hl)
  have hlt := hwf.owns.bytes_lt
  rw [Nat.mul_comm] at hlt
  exact u32_of_lt (Nat.lt_trans hlt (by decide))

/-- **A path that leads nowhere.** -/
theorem shows_missing (hh : s.Holds env h f os dirs) (hr : env.ReadsFull)
    (hnames : ∀ n ∈ p, ChildName n) (hp : h.tree p = none) :
    s.Reads env (fatGetattr (fusePath p)) (-enoent, none)
      ∧ s.Reads env (fatAccess (fusePath p)) (-enoent)
      ∧ s.Reads env (fatOpen (fusePath p)) (-enoent) := by
  rcases p.eq_nil_or_concat with rfl | ⟨toks, name, rfl⟩
  · cases hp
  · rw [List.concat_eq_append] at *
    have hn : ChildName name := hnames name (by simp)
    obtain ⟨a, hreads, hfound⟩ := hh.reads_find hr
      (fun x hx => hnames x (List.mem_append_left _ hx)) hn
    have ha : a = none := by
      cases hfound with
      | missing => rfl
      | entry l e hl hwalk hlook =>
        rw [Hierarchy.tree, hh.walk_dir hl hn hwalk hlook] at hp
        cases hp
    subst ha
    have hne := strcmp_fusePath hnames
    rw [fusePath_concat]
    refine ⟨?_, ?_, hreads.bind (.pure s env _)⟩
    · refine Server.Reads.get_bind fun k => ?_
      rw [if_neg hne]
      exact hreads.bind (.pure s env _)
    · rw [fatAccess, if_neg hne]
      exact hreads.bind (.pure s env _)

/-- **The entry of a path** that leads somewhere. -/
theorem reads_entry (hh : s.Holds env h f os dirs) (hr : env.ReadsFull)
    (hnames : ∀ n ∈ toks ++ [name], ChildName n) (hp : h.tree (toks ++ [name]) ≠ none) :
    ∃ l e, l ∈ dirs ∧ h.walk h.root toks = some (l.headD endOfChain)
      ∧ s.lookup env l name = some e
      ∧ s.Reads env (findDirEntryByPath (pathOf (toks ++ [name]))) (some e) := by
  have hn : ChildName name := hnames name (by simp)
  obtain ⟨a, hreads, hfound⟩ := hh.reads_find hr
      (fun x hx => hnames x (List.mem_append_left _ hx)) hn
  cases hfound with
  | missing hwalk => rw [Hierarchy.tree, hwalk] at hp; exact absurd rfl hp
  | entry l e hl hwalk hlook => exact ⟨l, e, hl, hwalk, hlook, hreads⟩

/-- **A path that leads to a file**: its entry and its chain. -/
theorem exists_file_at {bytes : List UInt8} (hh : s.Holds env h f os dirs) (hr : env.ReadsFull)
    (hnames : ∀ n ∈ p, ChildName n) (hp : h.tree p = some (.file bytes)) :
    strcmp (fusePath p) [slash] ≠ 0 ∧ ∃ e, s.Reads env (findDirEntryByPath (fusePath p)) (some e)
      ∧ e.type = dirEntryTypeFile ∧ h.walk h.root p = some e.firstCluster.toNat
      ∧ ∃ o ∈ os, o.headD endOfChain = e.firstCluster.toNat
        ∧ e.size.toNat ≤ o.length * s.superblock.bytePerCluster
        ∧ s.contents o e.size.toNat = bytes := by
  rcases p.eq_nil_or_concat with rfl | ⟨toks, name, rfl⟩
  · obtain ⟨r, hr', hroot⟩ := hh.wellFormed.root
    have hdir : h.tree [] = some .dir :=
      hh.tree_dir hr' (congrArg some (hh.root.trans hroot.symm))
    rw [hdir] at hp
    cases hp
  · rw [List.concat_eq_append] at *
    have hn : ChildName name := hnames name (by simp)
    obtain ⟨l, e, hl, hwalk, hlook, hreads⟩ :=
      hh.reads_entry hr hnames (by rw [hp]; exact Option.some_ne_none _)
    rw [fusePath_concat]
    rcases hh.tree_entry hl hwalk hn hlook with ⟨-, hdir, -⟩ | ⟨htype, o, ho, hhead, -, hcov, hfile⟩
    · rw [hp] at hdir
      cases hdir
    · rw [hp] at hfile
      exact ⟨strcmp_fusePath hnames, e, hreads, htype, hh.walk_dir hl hn hwalk hlook, o, ho, hhead,
        hcov, (Node.file.inj (Option.some.inj hfile)).symm⟩

/-- The attributes of a file. -/
theorem reads_getattr_file {bytes : List UInt8} (hh : s.Holds env h f os dirs)
    (hr : env.ReadsFull) (hnames : ∀ n ∈ p, ChildName n) (hp : h.tree p = some (.file bytes)) :
    ∃ st : Stat, st.IsFile bytes ∧ h.walk h.root p = some st.ino
      ∧ s.Reads env (fatGetattr (fusePath p)) (0, some st) := by
  obtain ⟨hne, e, hreads, htype, hwalk, o, -, -, hcov, rfl⟩ := hh.exists_file_at hr hnames hp
  refine ⟨⟨sIrwxa ||| sIfreg, 2, e.firstCluster.toNat, e.size.toNat, e.time⟩,
    ⟨rfl, rfl, (length_contents hcov).symm⟩, hwalk, Server.Reads.get_bind fun k => ?_⟩
  rw [if_neg hne]
  refine hreads.bind ?_
  dsimp only
  rw [if_neg (by rw [htype]; decide), if_pos htype]
  exact .pure s env _

/-- **What the operations find at a path that leads to a file.** -/
theorem shows_file {bytes : List UInt8} (hh : s.Holds env h f os dirs) (hr : env.ReadsFull)
    (hnames : ∀ n ∈ p, ChildName n) (hp : h.tree p = some (.file bytes)) :
    (∃ st : Stat, st.IsFile bytes ∧ s.Reads env (fatGetattr (fusePath p)) (0, some st))
      ∧ s.Reads env (fatAccess (fusePath p)) 0 ∧ s.Reads env (fatOpen (fusePath p)) 0
      ∧ ∀ buf size offset, size < 2 ^ 31 → s.superblock.bytePerCluster ∣ offset →
        ∃ r buf' t, (fatRead (fusePath p) buf size offset).run env s = .ok (r, buf') t
          ∧ r = (min size (bytes.length - offset) : ℕ)
          ∧ (List.range r.toNat).map buf' = (bytes.drop offset).take r.toNat := by
  obtain ⟨st, hst, -, hattr⟩ := hh.reads_getattr_file hr hnames hp
  obtain ⟨hne, e, hreads, -, -, o, ho, hhead, hcov, rfl⟩ := hh.exists_file_at hr hnames hp
  refine ⟨⟨st, hst, hattr⟩, ?_, hreads.bind (.pure s env _), fun buf size offset hsize hdvd => ?_⟩
  · rw [fatAccess, if_neg hne]
    exact hreads.bind (.pure s env _)
  · obtain ⟨k, hk⟩ := hreads.run
    have hread : s.ReadsContents env o e (fusePath p) buf size offset :=
      (hh.wellFormed.owns.readsContents_iff hr ho hhead hcov hk hsize).mpr
        (Or.inl (Nat.mod_eq_zero_of_dvd hdvd))
    obtain ⟨r, buf', t, hrun, hr', hbytes⟩ := hread
    refine ⟨r, buf', t, hrun, ?_, hbytes⟩
    rw [hr', length_contents hcov]
    omega

/-- **The directory of a path.** -/
theorem exists_dir_at (hh : s.Holds env h f os dirs) (hp : h.tree p = some .dir) :
    ∃ l ∈ dirs, h.walk h.root p = some (l.headD endOfChain) := by
  obtain ⟨c, hc, hnode⟩ := Option.map_eq_some_iff.mp hp
  have hd : h.data c = none := by
    unfold Hierarchy.node at hnode
    cases hd : h.data c with
    | none => rfl
    | some b =>
      rw [hd] at hnode
      cases hnode
  obtain ⟨-, l, hl, rfl, -⟩ := hh.exists_walk hc hd
  exact ⟨l, hl, hc⟩

/-- The names in a directory are all different. -/
theorem nodup_liveNames (hh : s.Holds env h f os dirs) (hl : l ∈ dirs) :
    (s.liveNames env l).Nodup := by
  have hwf := hh.wellFormed
  have hnd : (s.slots l).Nodup := Server.nodup_slots (Pool.nodup_owner hwf.owns.nodup
    (hwf.owned l hl))
  refine List.Nodup.map_on (fun x hx y hy hxy => ?_) (hnd.filter _)
  obtain ⟨hx, hlive⟩ := List.mem_filter.mp hx
  refine (hwf.unique l hl x hx y (List.mem_filter.mp hy).1 (fun hnil => ?_) hxy.symm).symm
  rw [FatDirEntry.isFree_iff.mpr hnil] at hlive
  cases hlive

/-- The live names of a directory that are names of children are its children. -/
theorem mem_liveNames (hh : s.Holds env h f os dirs) (hl : l ∈ dirs) (hn : ChildName n) :
    n ∈ s.liveNames env l ↔ h.child (l.headD endOfChain) n ≠ none := by
  constructor
  · intro hmem
    obtain ⟨x, hx, rfl⟩ := List.mem_map.mp hmem
    cases hlook : s.lookup env l (s.slotEntry env x).nameStr with
    | none => exact absurd rfl (Server.lookup_eq_none.mp hlook x (List.mem_filter.mp hx).1)
    | some e =>
      rw [hh.child_of_lookup hl hn hlook]
      exact Option.some_ne_none _
  · intro hne
    obtain ⟨k, hk⟩ := Option.ne_none_iff_exists'.mp hne
    obtain ⟨-, l', hl', hhead, e, he, -⟩ := (hh.child _ _ _).mp hk
    have hwf := hh.wellFormed
    obtain rfl := hwf.owns.eq_of_head (hwf.owned l' hl') (hwf.owned l hl) hhead
    obtain ⟨hname, x, hx, rfl⟩ := Server.lookup_eq_some he
    refine List.mem_map.mpr ⟨x, List.mem_filter.mpr ⟨hx, ?_⟩, hname⟩
    rw [Bool.not_eq_true', Bool.eq_false_iff]
    exact fun hfree => hn.isName.ne_nil (hname ▸ FatDirEntry.nameStr_of_isFree hfree)

/-- The number of the clusters of a directory. -/
theorem reads_count (hh : s.Holds env h f os dirs) (hl : l ∈ dirs) :
    s.Reads env (countClusterInChain (l.headD endOfChain)) l.length :=
  (hh.wellFormed.owns.chain (hh.wellFormed.owned l hl)).reads_count
    hh.wellFormed.owns.geometry

/-- The entry of a directory. -/
theorem reads_entry_dir (hh : s.Holds env h f os dirs) (hr : env.ReadsFull)
    (hnames : ∀ n ∈ toks ++ [name], ChildName n) (hl : l ∈ dirs)
    (hwalk : h.walk h.root (toks ++ [name]) = some (l.headD endOfChain)) :
    ∃ e, e.type = dirEntryTypeSubdir ∧ e.firstCluster.toNat = l.headD endOfChain
      ∧ s.Reads env (findDirEntryByPath (pathOf (toks ++ [name]))) (some e) := by
  have hn : ChildName name := hnames name (by simp)
  have hp : h.tree (toks ++ [name]) = some .dir := hh.tree_dir hl hwalk
  obtain ⟨pl, e, hpl, hwalk', hlook, hreads⟩ :=
    hh.reads_entry hr hnames (by rw [hp]; exact Option.some_ne_none _)
  have hfirst : e.firstCluster.toNat = l.headD endOfChain :=
    Option.some.inj ((hh.walk_dir hpl hn hwalk' hlook).symm.trans hwalk)
  rcases hh.tree_entry hpl hwalk' hn hlook with ⟨htype, -⟩ | ⟨-, o, -, -, -, -, hfile⟩
  · exact ⟨e, htype, hfirst, hreads⟩
  · rw [hp] at hfile
    cases hfile

/-- The attributes of a directory. -/
theorem reads_getattr_dir (hh : s.Holds env h f os dirs) (hr : env.ReadsFull)
    (hnames : ∀ n ∈ p, ChildName n) (hl : l ∈ dirs)
    (hwalk : h.walk h.root p = some (l.headD endOfChain)) :
    (∃ st : Stat, st.IsDir s.superblock.bytePerCluster ∧ st.ino = l.headD endOfChain
        ∧ s.Reads env (fatGetattr (fusePath p)) (0, some st))
      ∧ s.Reads env (fatAccess (fusePath p)) 0 := by
  have hwf := hh.wellFormed
  have hcount := hh.reads_count hl
  have hpos : 0 < l.length := List.length_pos_of_ne_nil (hwf.owns.owners l (hwf.owned l hl)).1
  rcases p.eq_nil_or_concat with rfl | ⟨toks, name, rfl⟩
  · have hroot : s.superblock.rootClusterStart = l.headD endOfChain := by
      rw [← hh.root]
      exact Option.some.inj hwalk
    refine ⟨⟨⟨sIfdir ||| sIrwxa, 2, s.superblock.rootClusterStart,
      s.superblock.bytePerCluster * l.length, 0⟩, ⟨rfl, rfl, l.length, rfl, hpos⟩, hroot, ?_⟩,
      .pure s env _⟩
    refine Server.Reads.get_bind fun k => ?_
    rw [fusePath, if_pos rfl, if_pos (by decide)]
    refine Server.Reads.bind (a := l.length) (by rw [hroot]; exact hcount) ?_
    dsimp only
    rw [hh.u32_size hl]
    exact .pure s env _
  · rw [List.concat_eq_append] at *
    obtain ⟨e, htype, hfirst, hreads⟩ := hh.reads_entry_dir hr hnames hl hwalk
    have hne := strcmp_fusePath hnames
    rw [fusePath_concat]
    refine ⟨⟨⟨sIrwxa ||| sIfdir, 2, e.firstCluster.toNat,
      s.superblock.bytePerCluster * l.length, e.time⟩, ⟨rfl, rfl, l.length, rfl, hpos⟩, hfirst, ?_⟩,
      ?_⟩
    · refine Server.Reads.get_bind fun k => ?_
      rw [if_neg hne]
      refine hreads.bind ?_
      dsimp only
      rw [if_pos htype]
      refine Server.Reads.bind (a := l.length) (by rw [hfirst]; exact hcount) ?_
      rw [hh.u32_size hl]
      exact .pure s env _
    · rw [fatAccess, if_neg hne]
      exact hreads.bind (.pure s env _)

/-- **A directory is listed.** -/
theorem reads_readdir (hh : s.Holds env h f os dirs) (hr : env.ReadsFull)
    (hnames : ∀ n ∈ p, ChildName n) (hl : l ∈ dirs)
    (hwalk : h.walk h.root p = some (l.headD endOfChain)) :
    ∃ taken, s.Reads env (fatReaddir (fusePath p) 0 fun _ _ => true) (0, taken)
      ∧ taken.map Prod.fst = s.liveNames env l := by
  have hwf := hh.wellFormed
  obtain ⟨r, -, hroot, hw⟩ := hh.exists_walk_to hl hwalk
  have hpath : s.Reads env (findFirstClusterByPath (fusePath p)) (l.headD endOfChain) := by
    unfold fusePath
    split
    · next hp =>
      rw [hp] at hwalk
      rw [← Option.some.inj hwalk, hh.root]
      exact reads_findFirstCluster_root s env
    · exact reads_findFirstClusterByPath hwf.owns hr hwf.owned
        (fun x hx => (hnames x hx).isName) hroot hw
  refine ⟨s.listed env (s.slots l) 0, fun k => ?_, Server.listed_names _⟩
  obtain ⟨u, hrun, k', rfl⟩ := fatReaddir_run (g := 0) hr hwf.owns (hwf.owned l hl) hpath ⟨k, rfl⟩
    (Nat.zero_le _) (Or.inr (Or.inl hwf.owns.geometry.page_pos)) fun _ _ => true
  rw [Paging.offer_all] at hrun
  exact ⟨k', hrun⟩

/-- **A server that holds a tree shows it.** -/
theorem shows (hh : s.Holds env h f os dirs) (hr : env.ReadsFull) :
    s.Shows env s.superblock.bytePerCluster h.tree where
  missing _ hnames hp := hh.shows_missing hr hnames hp
  dir p hnames hp := by
    obtain ⟨l, hl, hwalk⟩ := hh.exists_dir_at hp
    obtain ⟨⟨st, hst, -, hattr⟩, haccess⟩ := hh.reads_getattr_dir hr hnames hl hwalk
    obtain ⟨taken, htaken, hlist⟩ := hh.reads_readdir hr hnames hl hwalk
    refine ⟨⟨st, hst, hattr⟩, haccess, taken, htaken, hlist ▸ hh.nodup_liveNames hl, fun n hn => ?_⟩
    rw [hlist, hh.mem_liveNames hl hn, Hierarchy.tree, Hierarchy.walk_concat, hwalk,
      Option.bind_some, ne_eq, ne_eq, Option.map_eq_none_iff]
  file _ _ hnames hp := hh.shows_file hr hnames hp

end Server.Holds

end Fat
