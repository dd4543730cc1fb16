import LLPFilesystem.FatFileRuns
import LLPFilesystem.FatRead
import LLPFilesystem.FatDirectory

/-!
# The recorded size and the chain

A file that `fat_mknod` has made keeps a chain of at least one cluster, and a
size that its chain holds, through every run of writes and truncations, granted
or refused. So the loops over the chain stay in it (`Server.StaysInChain`): they
return, which a walk past the end does not; what is read depends on the clusters
of the chain alone, and nothing but these is written.

The 103rd entry of a directory cluster would stick out of it, and have no first
cluster to read back; the `fat_mknod` that tries to make it does not return
(`createEntry_outside`), so it makes no such file.
-/

namespace Fat

variable {env : Env} {s t u : Server} {c k n size offset : ℕ} {f l o pl : List ℕ}
  {os dirs : Multiset (List ℕ)} {x y : ℕ × ℕ} {e e' : FatDirEntry} {buf : Buf}
  {name path : List UInt8} {toks : List (List UInt8)} {r : ℤ}

/-- **The loops stay in the chain `o`.** Reading finds its first cluster in the
chain, and on any disk with the same table and the same clusters of the chain it
returns and fills the buffer with the same bytes. Once the chain has been grown
to `o'`, storing the data finds its first cluster there, returns, and changes no
other cluster. Shrinking finds the new last cluster in the chain. -/
structure Server.StaysInChain (s : Server) (env : Env) (f o pl : List ℕ)
    (e : FatDirEntry) : Prop where
  read : ∀ buf size offset, offset < e.size.toNat → size ≠ 0 →
    (∃ c ∈ o, (skipClusters (u32 offset / s.superblock.bytePerCluster)
      e.firstCluster.toNat).run env s = .ok c s)
    ∧ ∃ out, ∀ t, s.SameTable t →
      (∀ c ∈ o, ∀ i < s.superblock.bytePerCluster, t.cluster c i = s.cluster c i) →
      t.Reads env (readFile e buf size offset) out
  write : ∀ buf size offset, 0 < size → offset + size < 2 ^ 32 →
    s.lacking o (offset + size) ≤ f.length →
    ∃ u t o', u.Chain e.firstCluster.toNat o'
      ∧ (updateFile (pl.headD endOfChain) e buf size offset).run env s
        = (do
          writeData e.firstCluster.toNat buf size offset
          return (size : ℤ) : FatM ℤ).run env u
      ∧ (∃ c ∈ o', (skipClusters (u32 offset / u.superblock.bytePerCluster)
        e.firstCluster.toNat).run env u = .ok c u)
      ∧ (writeData e.firstCluster.toNat buf size offset).run env u = .ok () t
      ∧ ∀ c ∉ o', ∀ i < u.superblock.bytePerCluster, t.cluster c i = u.cluster c i
  shrink : ∀ n < e.size.toNat,
    ∃ c ∈ o, (skipClusters (u32 n / s.superblock.bytePerCluster)
      e.firstCluster.toNat).run env s = .ok c s

/-- The cluster of a position in a chain is one of its clusters. -/
theorem skipClusters_mem (env : Env) (hg : s.superblock.Geometry) (h : s.Chain c l)
    (hn : n < l.length * s.superblock.bytePerCluster) (hn32 : n < 2 ^ 32) :
    ∃ d ∈ l, (skipClusters (u32 n / s.superblock.bytePerCluster) c).run env s = .ok d s := by
  have hj : n / s.superblock.bytePerCluster < l.length :=
    (Nat.div_lt_iff_lt_mul hg.page_pos).mpr hn
  refine ⟨l[n / s.superblock.bytePerCluster], List.getElem_mem hj, ?_⟩
  rw [u32_of_lt hn32]
  exact skipClusters_getElem? env hg h (List.getElem?_eq_getElem hj)

/-- What a read copies depends on the clusters of the chain. -/
theorem Server.readBuf_congr (hb : 0 < s.superblock.bytePerCluster)
    (hsb : t.superblock = s.superblock)
    (h : ∀ c ∈ o, ∀ i < s.superblock.bytePerCluster, t.cluster c i = s.cluster c i)
    (buf : Buf) (offset n : ℕ) : t.readBuf o buf offset n = s.readBuf o buf offset n := by
  have hfile : ∀ m : List ℕ, (∀ c ∈ m, c ∈ o) → t.fileBuf m = s.fileBuf m := fun m hm => by
    unfold Server.fileBuf
    rw [hsb]
    exact funext (paged_congr hb (fun c hc i hi => h c (hm c hc) i hi))
  unfold Server.readBuf
  dsimp only
  rw [hsb, hfile o (fun c hc => hc),
    hfile (o.drop (offset / _)) (fun c hc => List.mem_of_mem_drop hc)]

/-- Reading with any size is reading nothing, or reading with a size below
`2 ^ 31`. -/
theorem readFile_size (hsize : e.size.toNat < 2 ^ 31) (hoff : offset < e.size.toNat)
    (hn : u32 n ≠ 0) (buf : Buf) :
    readFile e buf n offset = readFile e buf (min (u32 n) (2 ^ 31 - 1)) offset := by
  have hlt := u32_lt n
  have hsub : sub32 e.size.toNat (u32 offset) = e.size.toNat - offset := by
    rw [u32_of_lt (by omega), sub32_of_le (by omega) (by omega)]
  have hmin : u32 (min (u32 n) (2 ^ 31 - 1)) = min (u32 n) (2 ^ 31 - 1) :=
    u32_of_lt (by omega)
  have hn0 : n ≠ 0 := fun h => hn (by rw [h]; exact u32_of_lt (by decide))
  unfold readFile
  rw [if_neg (not_or.mpr ⟨Nat.not_le.mpr hoff, hn0⟩),
    if_neg (not_or.mpr ⟨Nat.not_le.mpr hoff, by omega⟩), hsub, hmin,
    show min (e.size.toNat - offset) (min (u32 n) (2 ^ 31 - 1))
      = min (e.size.toNat - offset) (u32 n) by omega]

/-- **Reading stays in the chain**, whatever the size of the buffer. -/
theorem reads_readFile_inChain (hr : env.ReadsFull) (hg : s.superblock.Geometry)
    (h : s.Chain e.firstCluster.toNat o)
    (hcovers : e.size.toNat ≤ o.length * s.superblock.bytePerCluster)
    (hsize : e.size.toNat < 2 ^ 31) (hoff : offset < e.size.toNat) (hn : n ≠ 0) (buf : Buf) :
    ∃ out, ∀ t, s.SameTable t →
      (∀ c ∈ o, ∀ i < s.superblock.bytePerCluster, t.cluster c i = s.cluster c i) →
      t.Reads env (readFile e buf n offset) out := by
  have hb := hg.page_pos
  by_cases hn0 : u32 n = 0
  · -- a multiple of `2 ^ 32` is read as nothing
    refine ⟨(0, buf), fun t ht _ => ?_⟩
    have hg' := ht.geometry hg
    have hsb : t.superblock.bytePerCluster = s.superblock.bytePerCluster := by
      rw [ht.superblock]
    have hj : offset / t.superblock.bytePerCluster < o.length :=
      (Nat.div_lt_iff_lt_mul (hsb ▸ hb)).mpr (by rw [hsb]; omega)
    rw [readFile, if_neg (not_or.mpr ⟨Nat.not_le.mpr hoff, hn⟩)]
    refine Server.Reads.get_bind (fun k => ?_)
    dsimp only
    rw [hn0, Nat.min_zero, u32_of_lt (by omega)]
    refine (reads_skipClusters hg' (ht.chain h) (List.getElem?_eq_getElem hj)).bind
      (Server.Reads.bind (a := buf) ?_ ?_)
    · rw [readLoop, if_pos rfl]
      exact .pure t env buf
    · rw [i32_of_lt (by decide)]
      exact .pure t env _
  · rw [readFile_size hsize hoff hn0 buf]
    set m := min (min (u32 n) (2 ^ 31 - 1)) (e.size.toNat - offset) with hm
    refine ⟨((m : ℕ), s.readBuf o buf offset m), fun t ht hclus => ?_⟩
    have hcov' : e.size.toNat ≤ o.length * t.superblock.bytePerCluster := by
      rw [ht.superblock]
      exact hcovers
    have hreads := reads_readFile hr (ht.geometry hg) (ht.chain h) hcov' hoff
      (show 0 < min (u32 n) (2 ^ 31 - 1) by omega) (by omega) buf
    rw [← hm, Server.readBuf_congr hb ht.superblock hclus] at hreads
    exact hreads

/-- **The loops over the chain of a file stay in it.** -/
theorem Server.FileAt.staysInChain (h : s.FileAt env toks name f o os dirs pl x e)
    (hr : env.Reliable) : s.StaysInChain env f o pl e := by
  have hfile := h.file
  have hg := hfile.owns.geometry
  have hchain : s.Chain e.firstCluster.toNat o := by
    rw [← hfile.head]
    exact hfile.owns.chain (Multiset.mem_cons_self _ _)
  have hcap : e.size.toNat < 2 ^ 31 := Nat.lt_of_le_of_lt h.covers hfile.owns.bytes_lt
  refine ⟨fun buf size offset hoff hsize => ⟨?_, ?_⟩, fun buf size offset hsize hsum hf => ?_,
    fun n hn => ?_⟩
  · exact skipClusters_mem env hg hchain (Nat.lt_of_lt_of_le hoff h.covers) (by omega)
  · exact reads_readFile_inChain hr.reads hg hchain h.covers hcap hoff hsize buf
  · have hle := s.le_lacking o (offset + size)
    obtain ⟨u, hp, hchain', hbytes, hrun⟩ :=
      updateFile_prepared hr hfile buf hsize hsum (by omega)
    rw [hfile.head] at hchain' hrun
    obtain ⟨t, hwrite, hst⟩ := writeData_run hr hp.owns.geometry hchain' buf hsize
      (by omega) (by omega) hbytes
    exact ⟨u, t, _, hchain', hrun,
      skipClusters_mem env hp.owns.geometry hchain' (by omega) (by omega), hwrite,
      hst.others⟩
  · exact skipClusters_mem env hg hchain (Nat.lt_of_lt_of_le hn h.covers) (by omega)

/-- **The recorded size never exceeds the chain.** In every run of writes and
truncations on a file that `fat_mknod` has made, the chain of the file has at least
one cluster, its size is at most that of its chain, and the loops over the chain
stay in it. -/
theorem size_within_chain (hr : env.Reliable) (h : s.HasParent env f os dirs toks pl name)
    {mode : ℕ}
    (hmknod : (fatMknod (pathOf (toks ++ [name])) mode).run env s = .ok r t)
    {t' : Server}
    (hmade : (findDirEntryByPath (pathOf (toks ++ [name]))).run env t = .ok (some e) t')
    (hrun : Relation.ReflTransGen (FileStep env (pathOf (toks ++ [name]))) t u) :
    ∃ f' o' e' pl', u.Reads env (lookupTarget (pathOf (toks ++ [name])))
        (pl'.headD endOfChain, e')
      ∧ u.Chain e'.firstCluster.toNat o' ∧ u.Chain u.superblock.freeClusterStart f'
      ∧ 1 ≤ o'.length ∧ e'.size.toNat ≤ o'.length * u.superblock.bytePerCluster
      ∧ u.StaysInChain env f' o' pl' e' := by
  obtain ⟨_, _, _, _, pl', x, hfile, -, -⟩ := fatMknod_fileAt hr h hmknod hmade
  obtain ⟨f', o', e', hfile'⟩ := hfile.run hr hrun
  refine ⟨f', o', e', pl', fun k => ?_, ?_, hfile'.file.owns.freeChain,
    hfile'.file.length_pos, hfile'.covers, hfile'.staysInChain hr⟩
  · exact (hfile'.preads k).lookupTarget_run hr.reads
  · rw [← hfile'.file.head]
    exact hfile'.file.owns.chain (Multiset.mem_cons_self _ _)

/-! ## A file on a fresh disk -/

/-- The path `/a` on a fresh disk. -/
theorem hasParent_formatted (env : Env) :
    (Server.blank.formatted env).HasParent env (List.range' 5 2555) {[4]} {[4]} [] [4] [97] where
  owns := Server.owns_formatted _ _
  dirs_owned := fun _ hl => hl
  names := by simp
  isName := ⟨by decide, by decide, by decide⟩
  walk := by
    refine ⟨[4], Multiset.mem_singleton_self _, ?_, .nil [4]⟩
    rw [Server.superblock_formatted]
    rfl
  parent := Multiset.mem_singleton_self _
  absent := Server.lookup_eq_none.mpr fun y hy hyn => by
    rw [FatDirEntry.nameStr_of_isFree (isFree_formatted hy)] at hyn
    cases hyn

/-- **Making a file** in a free slot inside its cluster: its one cluster is zeroed. -/
theorem Server.HasParent.mknod_fileAt {d : ℕ} (hr : env.Reliable)
    (h : s.HasParent env (d :: f) (pl ::ₘ os) dirs toks pl name) (hn : NameFits name)
    (hfind : s.findSlot env pl FatDirEntry.isFree = some x) (hin : s.Inside x) :
    ∃ t e, (fatMknod (pathOf (toks ++ [name])) sIfreg).run env s = .ok 0 t
      ∧ t.superblock.bytePerCluster = s.superblock.bytePerCluster
      ∧ t.FileAt env toks name f [d] (pl ::ₘ os) (dirs.map (grownDir pl [])) pl x e
      ∧ e.size = 0 ∧ ∀ i < s.superblock.bytePerCluster, t.cluster d i = 0 := by
  obtain ⟨k₀, hk₀⟩ := h.addDirEntry_run hr.reads dirEntryTypeFile
  obtain ⟨t, y, k, hrun, hm, hy⟩ := createEntry_made hr (h.preads k₀).owns
    (h.preads k₀).root_owned hn (fun y hy => by
      obtain rfl := Option.some.inj (hfind.symm.trans hy)
      exact hin)
    (fun hnone => absurd (hfind.symm.trans hnone) (Option.some_ne_none x)) dirEntryTypeFile
  obtain ⟨hys, rfl⟩ := hy.resolve_right fun hnone =>
    absurd (hfind.symm.trans hnone.1) (Option.some_ne_none x)
  obtain rfl := Option.some.inj (hfind.symm.trans hys)
  obtain ⟨hfile, hsize, hzero⟩ := hm.fileAt (h.preads k₀) hn
  rw [List.take_zero, List.append_nil, List.drop_zero] at hfile
  refine ⟨t, _, ?_, hm.filled.bytePerCluster, hfile, hsize, hzero⟩
  rw [fatMknod, if_pos (by decide), Prog.bind_ok _ (hasFreeCluster_run h.owns h.root_owned),
    decide_eq_true (List.cons_ne_nil d f), if_pos rfl, hk₀]
  exact hrun

/-- **Making the file `/a`** on a fresh disk. -/
theorem mknod_formatted (hr : env.Reliable) :
    ∃ t os dirs e,
      (fatMknod (pathOf ([] ++ [[97]])) sIfreg).run env (Server.blank.formatted env) = .ok 0 t
      ∧ t.superblock.bytePerCluster = 4096
      ∧ t.FileAt env [] [97] (List.range' 6 2554) [5] ([4] ::ₘ os) dirs [4] (4, 0) e
      ∧ e.size = 0 ∧ ∀ i < 4096, t.cluster 5 i = 0 := by
  have hp : (Server.blank.formatted env).HasParent env (5 :: List.range' 6 2554) ([4] ::ₘ 0)
      {[4]} [] [4] [97] := hasParent_formatted env
  obtain ⟨t, e, hrun, hb, hfile, hsize, hzero⟩ := hp.mknod_fileAt hr (by decide)
    findSlot_formatted (Server.inside_zero hp.owns.geometry 4)
  rw [bytePerCluster_formatted] at hb hzero
  exact ⟨t, 0, _, e, hrun, hb, hfile, hsize, hzero⟩

/-- The file `/a` of a fresh disk, after a write across the end of its first
cluster. -/
theorem size_within_chain_formatted :
    ∃ t u, (fatMknod (pathOf ([] ++ [[97]])) sIfreg).run .ideal (Server.blank.formatted .ideal)
        = .ok 0 t
      ∧ (fatWrite (pathOf ([] ++ [[97]])) (fun _ => 1) 5000 100).run .ideal t = .ok 5000 u
      ∧ ∃ (o : List ℕ) (e : FatDirEntry) (pl : List ℕ),
        u.Reads .ideal (lookupTarget (pathOf ([] ++ [[97]])))
          (pl.headD endOfChain, e)
        ∧ u.Chain e.firstCluster.toNat o ∧ 1 ≤ o.length
        ∧ e.size.toNat ≤ o.length * u.superblock.bytePerCluster := by
  obtain ⟨t, os', dirs, e₀, hrun, hb, hfile, -⟩ := mknod_formatted Env.ideal_reliable
  obtain ⟨u, hwrite⟩ := hfile.fatWrite_run Env.ideal_reliable (show 0 < 5000 by decide)
    (show 100 + 5000 < 2 ^ 32 by decide) (by
      rw [Server.lacking, hb, List.length_range']
      decide) (fun _ => 1)
  obtain ⟨k, hk⟩ := (hfile.reads_find Env.ideal_reliable.reads).run
  obtain ⟨f', o, e, pl, hlook, hchain, -, hlen, hsize, -⟩ := size_within_chain
    Env.ideal_reliable (hasParent_formatted .ideal) hrun hk
    (.single ⟨.write (fun _ => 1) 5000 100, _, by
      show 0 < 5000 ∧ 100 + 5000 < 2 ^ 32
      decide, hwrite⟩)
  exact ⟨t, u, hrun, hwrite, o, e, pl, hlook, hchain, hlen, hsize⟩

end Fat
