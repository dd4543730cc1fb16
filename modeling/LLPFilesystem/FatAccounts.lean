import LLPFilesystem.FatRefinement

/-!
# Every cluster is accounted for

What a check of the whole disk finds after any run of calls: each cluster is on the free
list, or it is in the chain of exactly one path (`clusters_accounted`). Nothing is lost, and
nothing is shared. And a call that may be made comes back, unless it asks for exactly one
cluster more than there is (`call_returns_iff`).
-/

namespace Fat

variable {env : Env} {s s₀ t u : Server} {c k n size offset : ℕ} {evs : List Event}
  {f l o : List ℕ} {os dirs : Multiset (List ℕ)} {name : List UInt8}
  {p p' toks : List (List UInt8)} {h : Hierarchy ℕ (List UInt8) (List UInt8)}

/-! ## Clusters and paths -/

/-- **A path uses a cluster**: the cluster is in the chain of what the path leads to. -/
def Server.Uses (s : Server) (env : Env) (p : List (List UInt8)) (c : ℕ) : Prop :=
  (∀ n ∈ p, ChildName n) ∧ ∃ st : Stat, s.Reads env (fatGetattr (fusePath p)) (0, some st)
    ∧ ∃ l, s.Chain st.ino l ∧ c ∈ l

namespace Server.Holds

/-- The names on a path that leads somewhere. -/
theorem names_of_walk (hh : s.Holds env h f os dirs) (hwalk : h.walk h.root p = some k) :
    ∀ n ∈ p, ChildName n := by
  induction p using List.reverseRecOn generalizing k with
  | nil => exact fun n hn => absurd hn List.not_mem_nil
  | append_singleton p m ih =>
    obtain ⟨j, hj, hm⟩ := Hierarchy.walk_concat_eq_some.mp hwalk
    intro n hn
    rcases List.mem_append.mp hn with hn | hn
    · exact ih hj n hn
    · rw [List.mem_singleton.mp hn]
      exact ((hh.child _ _ _).mp hm).1

/-- What a path leads to has a chain. -/
theorem owner_of_walk (hh : s.Holds env h f os dirs) (hwalk : h.walk h.root p = some k) :
    ∃ o ∈ os, o.headD endOfChain = k := by
  have hwf := hh.wellFormed
  cases p using List.reverseRecOn with
  | nil =>
    obtain ⟨r, hr, hroot⟩ := hwf.root
    exact ⟨r, hwf.owned r hr, hroot.trans (hh.root.symm.trans (Option.some.inj hwalk))⟩
  | append_singleton p m =>
    obtain ⟨j, hj, hm⟩ := Hierarchy.walk_concat_eq_some.mp hwalk
    obtain ⟨hn, l, hl, rfl, e, he, rfl⟩ := (hh.child _ _ _).mp hm
    obtain ⟨x, hx, rfl, -, -, hxc, -⟩ := hh.exists_child_slot hl hn he
    obtain ⟨o, ho, hhead⟩ := hwf.heads l hl x hx hxc
    exact ⟨o, Multiset.mem_of_mem_erase ho, hhead.symm⟩

/-- The attributes of a path name the first cluster of what it leads to. -/
theorem reads_getattr (hh : s.Holds env h f os dirs) (hr : env.ReadsFull)
    (hwalk : h.walk h.root p = some k) :
    ∃ st : Stat, st.ino = k ∧ s.Reads env (fatGetattr (fusePath p)) (0, some st) := by
  have hnames := hh.names_of_walk hwalk
  cases hnode : h.node k with
  | dir =>
    have hp : h.tree p = some .dir := by rw [Hierarchy.tree, hwalk, Option.map_some, hnode]
    obtain ⟨l, hl, hwalk'⟩ := hh.exists_dir_at hp
    obtain ⟨⟨st, -, hino, hattr⟩, -⟩ := hh.reads_getattr_dir hr hnames hl hwalk'
    exact ⟨st, hino.trans (Option.some.inj (hwalk'.symm.trans hwalk)), hattr⟩
  | file bytes =>
    have hp : h.tree p = some (.file bytes) := by
      rw [Hierarchy.tree, hwalk, Option.map_some, hnode]
    obtain ⟨st, -, hino, hattr⟩ := hh.reads_getattr_file hr hnames hp
    exact ⟨st, Option.some.inj (hino.symm.trans hwalk), hattr⟩

/-- **A path uses the clusters of its owner.** -/
theorem uses_iff (hh : s.Holds env h f os dirs) (hr : env.ReadsFull) :
    s.Uses env p c ↔ ∃ o ∈ os, h.walk h.root p = some (o.headD endOfChain) ∧ c ∈ o := by
  have howns := hh.wellFormed.owns
  constructor
  · rintro ⟨hnames, st, hattr, l, hl, hc⟩
    cases hwalk : h.walk h.root p with
    | none =>
      obtain ⟨k, hk⟩ := (hh.shows_missing hr hnames (by rw [Hierarchy.tree, hwalk]; rfl)).1.run
      obtain ⟨k', hk'⟩ := hattr.run
      rw [hk] at hk'
      exact absurd (Prod.mk.inj (Outcome.ok.inj hk').1).2 (by simp)
    | some i =>
      obtain ⟨o, ho, rfl⟩ := hh.owner_of_walk hwalk
      obtain ⟨st', hino, hattr'⟩ := hh.reads_getattr hr hwalk
      obtain ⟨k, hk⟩ := hattr.run
      obtain ⟨k', hk'⟩ := hattr'.run
      rw [hk] at hk'
      obtain rfl := Option.some.inj (Prod.mk.inj (Outcome.ok.inj hk').1).2
      rw [hino] at hl
      rw [hl.linked.unique (howns.chain ho).linked] at hc
      exact ⟨o, ho, rfl, hc⟩
  · rintro ⟨o, ho, hwalk, hc⟩
    obtain ⟨st, hino, hattr⟩ := hh.reads_getattr hr hwalk
    exact ⟨hh.names_of_walk hwalk, st, hattr, o, hino ▸ howns.chain ho, hc⟩

/-- **A cluster is free, or one path uses it.** -/
theorem accounted (hh : s.Holds env h f os dirs) (hr : env.ReadsFull)
    (hc : s.superblock.IsData c) :
    c ∈ f ∧ (∀ p, ¬ s.Uses env p c) ∨ c ∉ f ∧ ∃! p, s.Uses env p c := by
  have howns := hh.wellFormed.owns
  by_cases hf : c ∈ f
  · refine Or.inl ⟨hf, fun p hp => ?_⟩
    obtain ⟨o, ho, -, hco⟩ := (hh.uses_iff hr).mp hp
    exact Pool.notMem_free (p := ⟨f, os⟩) howns.nodup ho hco hf
  · obtain ⟨o, ho, hco⟩ := (hh.covered c hc).resolve_left hf
    obtain ⟨p, hp⟩ := hh.reached o ho
    refine Or.inr ⟨hf, p, (hh.uses_iff hr).mpr ⟨o, ho, hp, hco⟩, fun p' hp' => ?_⟩
    obtain ⟨o', ho', hwalk', hco'⟩ := (hh.uses_iff hr).mp hp'
    rw [howns.owner_unique ho' ho hco' hco] at hwalk'
    exact Hierarchy.walk_injective hh.proper hwalk' hp

end Server.Holds

/-- **Every cluster is accounted for.** After any run of calls on a fresh disk, each enabled when
it is made (`Call.Enabled`), a cluster behind the table is on the free list, which is as long as
`fat_statfs` says, and no path uses it, or it is not, and exactly one path does. -/
theorem clusters_accounted (hr : env.Reliable) (hzero : s₀.fatDisk = fun _ => 0)
    (hinit : (fatInit false).run env s₀ = .ok () s) (hrun : Run env s evs t) :
    ∃ f, t.Chain t.superblock.freeClusterStart f ∧ fatStatfs.run env t = .ok f.length t
      ∧ ∀ c, 4 ≤ c → c < 2560 →
        c ∈ f ∧ (∀ p, ¬ t.Uses env p c) ∨ c ∉ f ∧ ∃! p, t.Uses env p c := by
  obtain ⟨T, -, h, f, os, dirs, hh, ⟨v, hv⟩, -⟩ := hrun.holdsTree hr hzero hinit
  have howns := hh.wellFormed.owns
  refine ⟨f, howns.freeChain, fatStatfs_run howns, fun c hc hc' => hh.accounted hr.reads ?_⟩
  rw [hv]
  exact ⟨hc, hc'⟩

/-- The directory `/a` on a fresh disk has a cluster, and so has the root directory. -/
theorem clusters_accounted_fresh :
    ∃ s t, (fatInit false).run .ideal .blank = .ok () s
      ∧ Run .ideal s [⟨⟨[], [97], .mkdir⟩, 2555, 0⟩] t
      ∧ ∃ f, t.Chain t.superblock.freeClusterStart f
        ∧ fatStatfs.run .ideal t = .ok f.length t
        ∧ ∀ c, 4 ≤ c → c < 2560 →
          c ∈ f ∧ (∀ p, ¬ t.Uses .ideal p c) ∨ c ∉ f ∧ ∃! p, t.Uses .ideal p c := by
  obtain ⟨s, t, hinit, hrun⟩ := mkdir_fresh Env.ideal_reliable
    (show Server.blank.fatDisk = fun _ => 0 from rfl)
  exact ⟨s, t, hinit, hrun, clusters_accounted Env.ideal_reliable rfl hinit hrun⟩

/-! ## Calls that come back -/

/-- **What `update_file` does when it does not return**: it asks for exactly one cluster more
than there is. -/
theorem Server.FileAt.updateFile_returns_iff {pl : List ℕ} {x : ℕ × ℕ} {e : FatDirEntry}
    (hf : s.FileAt env toks name f o os dirs pl x e) (hr : env.Reliable)
    (hsize : 0 < size) (hsum : offset + size < 2 ^ 32) (buf : Buf) :
    (∃ r t, (updateFile (pl.headD endOfChain) e buf size offset).run env s = .ok r t)
      ↔ (offset + size - 1) / s.superblock.bytePerCluster + 1 ≠ o.length + f.length + 1 := by
  have hfile := hf.file
  have hfinal : finalByteToWrite size offset = offset + size - 1 := by
    rw [finalByteToWrite_eq hsize, Nat.mod_eq_of_lt (by omega)]
  set need := (offset + size - 1) / s.superblock.bytePerCluster + 1 with hneed
  rcases Nat.lt_trichotomy need (o.length + f.length + 1) with hlt | heq | hgt
  · obtain ⟨t, hrun, -⟩ := updateFile_run hr hfile buf hsize hsum (by omega)
    exact iff_of_true ⟨_, t, hrun⟩ (Nat.ne_of_lt hlt)
  · refine iff_of_false ?_ (not_not_intro heq)
    rintro ⟨r, t, hrun⟩
    rw [updateFile_stop hfile.owns hfile.head hfile.type (by rw [hfinal, ← hneed, heq])] at hrun
    cases hrun
  · exact iff_of_true ⟨_, s, updateFile_refused hfile.owns hfile.head hfile.type
      (by rw [hfinal]; exact hgt) buf⟩ (Nat.ne_of_gt hgt)

/-- **An operation asks for one cluster more than there is**, with what the file has and what
is free. -/
def Op.OneShort (env : Env) (s : Server) (path : List UInt8) : Op → Prop
  | write _ size offset => ∃ e o f, s.Finds env path (some e) ∧ s.Chain e.firstCluster.toNat o
    ∧ s.Chain s.superblock.freeClusterStart f
    ∧ (offset + size - 1) / s.superblock.bytePerCluster + 1 = o.length + f.length + 1
  | truncate size => ∃ e o f, s.Finds env path (some e) ∧ s.Chain e.firstCluster.toNat o
    ∧ s.Chain s.superblock.freeClusterStart f ∧ e.size.toNat < size
    ∧ (size - 1) / s.superblock.bytePerCluster + 1 = o.length + f.length + 1
  | _ => False

/-- The entry and the chains of a file at a path are determined. -/
theorem Server.FileAt.unique {pl : List ℕ} {x : ℕ × ℕ} {e e' : FatDirEntry} {o' f' : List ℕ}
    (hf : s.FileAt env toks name f o os dirs pl x e) (hr : env.ReadsFull)
    (hfind : s.Finds env (pathOf (toks ++ [name])) (some e'))
    (ho : s.Chain e'.firstCluster.toNat o') (hfree : s.Chain s.superblock.freeClusterStart f') :
    e' = e ∧ o' = o ∧ f' = f := by
  have howns := hf.file.owns
  obtain ⟨k, hk⟩ := (hf.reads_find hr).run
  obtain ⟨t, ht⟩ := hfind
  rw [hk] at ht
  obtain rfl := Option.some.inj (Outcome.ok.inj ht).1
  rw [← hf.file.head] at ho
  exact ⟨rfl, ho.linked.unique (howns.chain (Multiset.mem_cons_self _ _)).linked,
    hfree.linked.unique howns.freeChain.linked⟩

namespace Server.Holds

/-- **A write comes back** unless it is one cluster short. -/
theorem write_returns_iff {buf : Buf} (hh : s.Holds env h f os dirs) (hr : env.Reliable)
    (hnames : ∀ x ∈ toks, ChildName x) (hn : ChildName name)
    (hen : (Op.write buf size offset).Enabled env s toks name) :
    (∃ r t, (fatWrite (pathOf (toks ++ [name])) buf size offset).run env s = .ok r t)
      ↔ ¬ (Op.write buf size offset).OneShort env s (pathOf (toks ++ [name])) := by
  obtain ⟨hsize, hsum, e, hf, htype⟩ := hen
  obtain ⟨o, os', pl, x, rfl, hfile, -, -⟩ := hh.exists_file hr.reads hnames hn hf htype
  have howns := hh.wellFormed.owns
  have hchain : s.Chain e.firstCluster.toNat o :=
    hfile.file.head ▸ howns.chain (Multiset.mem_cons_self _ _)
  obtain ⟨k, hk⟩ := hfile.lookupTarget_run hr.reads
  have hiff : (Op.write buf size offset).OneShort env s (pathOf (toks ++ [name]))
      ↔ (offset + size - 1) / s.superblock.bytePerCluster + 1 = o.length + f.length + 1 := by
    constructor
    · rintro ⟨e', o', f', hf', ho', hfree, hneed⟩
      obtain ⟨-, rfl, rfl⟩ := hfile.unique hr.reads hf' ho' hfree
      exact hneed
    · exact fun hneed => ⟨e, o, f, hf, hchain, howns.freeChain, hneed⟩
  rw [fatWrite, Prog.bind_ok _ hk, hiff]
  exact (hfile.preads k).updateFile_returns_iff hr hsize hsum buf

/-- **Truncating comes back** unless it is one cluster short. -/
theorem truncate_returns_iff (hh : s.Holds env h f os dirs) (hr : env.Reliable)
    (hnames : ∀ x ∈ toks, ChildName x) (hn : ChildName name)
    (hen : (Op.truncate n).Enabled env s toks name) :
    (∃ r t, (fatTruncate (pathOf (toks ++ [name])) n).run env s = .ok r t)
      ↔ ¬ (Op.truncate n).OneShort env s (pathOf (toks ++ [name])) := by
  obtain ⟨hn32, e, hf, htype, -⟩ := hen
  obtain ⟨o, os', pl, x, rfl, hfile, -, -⟩ := hh.exists_file hr.reads hnames hn hf htype
  have howns := hh.wellFormed.owns
  have hchain : s.Chain e.firstCluster.toNat o :=
    hfile.file.head ▸ howns.chain (Multiset.mem_cons_self _ _)
  have hiff : (Op.truncate n).OneShort env s (pathOf (toks ++ [name]))
      ↔ e.size.toNat < n
        ∧ (n - 1) / s.superblock.bytePerCluster + 1 = o.length + f.length + 1 := by
    constructor
    · rintro ⟨e', o', f', hf', ho', hfree, hneed⟩
      obtain ⟨rfl, rfl, rfl⟩ := hfile.unique hr.reads hf' ho' hfree
      exact hneed
    · exact fun hneed => ⟨e, o, f, hf, hchain, howns.freeChain, hneed⟩
  obtain ⟨k, hk⟩ := hfile.lookupTarget_run hr.reads
  rw [fatTruncate, Prog.bind_ok _ hk, hiff]
  dsimp only
  unfold truncateFile
  rcases Nat.lt_trichotomy n e.size.toNat with hlt | rfl | hgt
  · rw [if_neg (Nat.ne_of_lt hlt), if_neg (Nat.lt_asymm hlt)]
    obtain ⟨t, hrun, -⟩ := shrinkFile_run hr (hfile.preads k).file hlt hfile.covers
    exact iff_of_true ⟨0, t, hrun⟩ fun hc => Nat.lt_asymm hlt hc.1
  · rw [if_pos rfl]
    exact iff_of_true ⟨0, _, rfl⟩ fun hc => Nat.lt_irrefl _ hc.1
  · rw [if_neg (Nat.ne_of_gt hgt), if_pos hgt]
    have hsum : e.size.toNat + (n - e.size.toNat) = n := by omega
    have hzeros : sub32 (u32 n) e.size.toNat = n - e.size.toNat := by
      rw [u32_of_lt hn32, sub32_of_le hn32 (Nat.le_of_lt hgt)]
    have hup := (hfile.preads k).updateFile_returns_iff hr (show 0 < n - e.size.toNat by omega)
      (show e.size.toNat + (n - e.size.toNat) < 2 ^ 32 by omega) fun _ => 0
    rw [hsum] at hup
    rw [extendFile, hzeros, iff_true_intro hgt, true_and]
    refine Iff.trans ⟨?_, ?_⟩ hup
    · rintro ⟨r, t, hrun⟩
      obtain ⟨r', t', hrun', -⟩ := Prog.bind_eq_ok_iff.mp hrun
      exact ⟨r', t', hrun'⟩
    · rintro ⟨r, t, hrun⟩
      rw [Prog.bind_ok _ hrun]
      exact ⟨_, t, rfl⟩

/-- **A creation comes back.** -/
theorem make_returns {type : UInt16} (hh : s.Holds env h f os dirs) (hr : env.Reliable)
    (hnames : ∀ x ∈ toks, ChildName x) (hn : ChildName name) (hdir : s.IsDir env toks)
    (hf : s.Finds env (pathOf (toks ++ [name])) none) (ht : s.Takes env toks name)
    (htype : type = dirEntryTypeFile ∨ type = dirEntryTypeSubdir) :
    ∃ r t, (do
      let free ← hasFreeCluster
      if free then addDirEntry (pathOf (toks ++ [name])) type
      else return -enomem : FatM ℤ).run env s = .ok r t := by
  obtain ⟨pl, hpl, hwalk, hp⟩ := hh.exists_parent hr.reads hnames hn hdir hf
  rw [Prog.bind_ok _ (hasFreeCluster_run hh.wellFormed.owns hp.root_owned)]
  cases f with
  | nil => exact ⟨_, _, rfl⟩
  | cons d f =>
    obtain ⟨t, hrun, -⟩ := hh.make hr hpl hwalk hp hn ht htype
    rw [decide_eq_true (List.cons_ne_nil d f), if_pos rfl]
    exact ⟨0, t, hrun⟩

/-- **A call comes back** unless it is one cluster short. -/
theorem call_returns_iff {c : Call} (hh : s.Holds env h f os dirs) (hr : env.Reliable)
    (hen : c.Enabled env s) :
    (∃ r t, c.code.run env s = .ok r t) ↔ ¬ c.op.OneShort env s (pathOf c.names) := by
  obtain ⟨dir, name, op⟩ := c
  have hnames := hen.dirNames
  have hn := hen.childName
  have hop := hen.op
  have hmknod : ∀ mode : ℕ, (Op.mknod mode).Enabled env s dir name →
      ∃ r t, (fatMknod (pathOf (dir ++ [name])) mode).run env s = .ok r t := by
    rintro mode ⟨hdir, hf, htakes⟩
    rw [fatMknod]
    split
    · exact hh.make_returns hr hnames hn hdir hf htakes (Or.inl rfl)
    · exact ⟨_, _, rfl⟩
  cases op with
  | mkdir =>
    obtain ⟨hdir, hf, htakes⟩ := hop
    exact iff_of_true (hh.make_returns hr hnames hn hdir hf htakes (Or.inr rfl)) not_false
  | mknod mode => exact iff_of_true (hmknod mode hop) not_false
  | create mode =>
    obtain ⟨r, t, hrun⟩ := hmknod (mode ||| sIfreg) hop
    refine iff_of_true ⟨0, t, ?_⟩ not_false
    show (fatCreate (pathOf (dir ++ [name])) mode).run env s = _
    rw [fatCreate, Prog.bind_ok _ hrun]
    rfl
  | unlink =>
    obtain ⟨e, hf⟩ := hop
    cases hh.found hr.reads hnames hn hf with
    | entry pl e hpl hwalk hlook =>
      obtain ⟨r, t, hrun, -⟩ := hh.unlink_cases hr hpl hwalk hnames hn hlook
      exact iff_of_true ⟨r, t, hrun⟩ not_false
  | rmdir =>
    obtain ⟨e, hf⟩ := hop
    cases hh.found hr.reads hnames hn hf with
    | entry pl e hpl hwalk hlook =>
      obtain ⟨r, t, hrun, -⟩ := hh.rmdir_cases hr hpl hwalk hnames hn hlook
      exact iff_of_true ⟨r, t, hrun⟩ not_false
  | write buf size offset => exact hh.write_returns_iff hr hnames hn hop
  | truncate n => exact hh.truncate_returns_iff hr hnames hn hop

end Server.Holds

/-- **When a call comes back.** After any run of calls on a fresh disk, a call that is enabled
(`Call.Enabled`), as those of the run were, returns, with a result or a refusal, unless it
writes or extends a file that would need exactly one cluster more than it has and are free. -/
theorem calls_return_iff {c : Call} (hr : env.Reliable) (hzero : s₀.fatDisk = fun _ => 0)
    (hinit : (fatInit false).run env s₀ = .ok () s) (hrun : Run env s evs t)
    (hen : c.Enabled env t) :
    (∃ r u, c.code.run env t = .ok r u) ↔ ¬ c.op.OneShort env t (pathOf c.names) := by
  obtain ⟨T, -, h, f, os, dirs, hh, -, -⟩ := hrun.holdsTree hr hzero hinit
  exact hh.call_returns_iff hr hen

/-- Making the directory `/a` on a fresh disk comes back. -/
theorem calls_return_iff_fresh :
    ∃ s, (fatInit false).run .ideal .blank = .ok () s
      ∧ ((∃ r u, (Call.mk [] [97] .mkdir).code.run .ideal s = .ok r u)
        ↔ ¬ Op.mkdir.OneShort .ideal s (pathOf [[97]])) := by
  obtain ⟨s, hinit, -, hen⟩ := mkdir_enabled_fresh Env.ideal_reliable
    (show Server.blank.fatDisk = fun _ => 0 from rfl)
  exact ⟨s, hinit, calls_return_iff Env.ideal_reliable rfl hinit (.nil s) hen⟩

end Fat
