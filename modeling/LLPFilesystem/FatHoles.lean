import LLPFilesystem.FatSizes

/-!
# Holes

A position of a file that nothing has been written to should read as zero. What
has been written is a history, kept beside the server here as the set of covered
positions: a write adds its range, a truncation takes away what it cuts off.

Shrinking a file keeps the last cluster it needs as it is, and a write that
starts behind the end of the file does not touch the bytes it skips. So a hole
reads as zero exactly if, at the write that made it, the clusters of the file
held zeros there (`holes_read_zero_iff`). Extending by `fat_truncate` writes zeros, and
clusters that are new are zeroed.
-/

namespace Fat

variable {env : Env} {s t u v : Server} {i k n size offset : ℕ} {f l o pl : List ℕ}
  {os dirs : Multiset (List ℕ)} {x y : ℕ × ℕ} {e e' : FatDirEntry} {buf : Buf}
  {name path : List UInt8} {toks : List (List UInt8)} {r : ℤ} {cov : Set ℕ}

/-- **Every hole of the file at a path reads as zero**: the positions below its
size that are not covered hold zero in the clusters of its chain. -/
def Server.HolesAreZero (s : Server) (env : Env) (path : List UInt8) (cov : Set ℕ) : Prop :=
  ∀ pc e s' o, (lookupTarget path).run env s = .ok (pc, e) s' →
    s.Chain e.firstCluster.toNat o → ∀ i < e.size.toNat, i ∉ cov → s.fileBuf o i = 0

namespace FileOp

/-- What is covered after an operation that was granted. -/
def cover (cov : Set ℕ) : FileOp → Set ℕ
  | write _ size offset => {i | i ∈ cov ∨ offset ≤ i ∧ i < offset + size}
  | truncate size => {i | i ∈ cov ∧ i < size}

/-- **A write skips zeros**: between the end of the file and the start of the
write, the clusters of the file hold zeros. -/
def SkipsZeros (env : Env) (s : Server) (path : List UInt8) : FileOp → Prop
  | write _ _ offset => ∀ pc e s' o, (lookupTarget path).run env s = .ok (pc, e) s' →
    s.Chain e.firstCluster.toNat o → ∀ i, e.size.toNat ≤ i → i < offset → s.fileBuf o i = 0
  | truncate _ => True

end FileOp

/-- One operation on the file at a path that is granted, with what is covered
before and after it; a write skips zeros. -/
def HoleStep (env : Env) (path : List UInt8) (u v : Server × Set ℕ) : Prop :=
  ∃ op : FileOp, ∃ r, op.InRange ∧ (op.code path).run env u.1 = .ok r v.1 ∧ 0 ≤ r
    ∧ v.2 = op.cover u.2 ∧ op.SkipsZeros env u.1 path

namespace Server.FileAt

/-- The chain of the file. -/
theorem chain (h : s.FileAt env toks name f o os dirs pl x e) :
    s.Chain e.firstCluster.toNat o := by
  rw [← h.file.head]
  exact h.file.owns.chain (Multiset.mem_cons_self _ _)

/-- What a lookup of the file finds, and its chain, are determined. -/
theorem lookupTarget_unique (h : s.FileAt env toks name f o os dirs pl x e)
    (hr : env.ReadsFull) {pc : ℕ} {s' : Server} {o' : List ℕ}
    (hlook : (lookupTarget (pathOf (toks ++ [name]))).run env s = .ok (pc, e') s')
    (hchain : s.Chain e'.firstCluster.toNat o') : e' = e ∧ o' = o := by
  obtain ⟨k, hk⟩ := h.lookupTarget_run hr
  rw [hlook] at hk
  obtain ⟨hpair, -⟩ := Outcome.ok.inj hk
  obtain ⟨-, rfl⟩ := Prod.mk.inj hpair
  exact ⟨rfl, hchain.linked.unique h.chain.linked⟩

/-- The holes of a file, in terms of its chain. -/
theorem holesAreZero_iff (h : s.FileAt env toks name f o os dirs pl x e)
    (hr : env.ReadsFull) :
    s.HolesAreZero env (pathOf (toks ++ [name])) cov
      ↔ ∀ i < e.size.toNat, i ∉ cov → s.fileBuf o i = 0 := by
  constructor
  · intro hz
    obtain ⟨k, hk⟩ := h.lookupTarget_run hr
    exact hz _ _ _ _ hk h.chain
  · intro hz pc e' s' o' hlook hchain
    obtain ⟨rfl, rfl⟩ := h.lookupTarget_unique hr hlook hchain
    exact hz

/-- What a write skips, in terms of its chain. -/
theorem skipsZeros_iff (h : s.FileAt env toks name f o os dirs pl x e)
    (hr : env.ReadsFull) :
    (FileOp.write buf size offset).SkipsZeros env s (pathOf (toks ++ [name]))
      ↔ ∀ i, e.size.toNat ≤ i → i < offset → s.fileBuf o i = 0 := by
  constructor
  · intro hz
    obtain ⟨k, hk⟩ := h.lookupTarget_run hr
    exact hz _ _ _ _ hk h.chain
  · intro hz pc e' s' o' hlook hchain
    obtain ⟨rfl, rfl⟩ := h.lookupTarget_unique hr hlook hchain
    exact hz

/-- **After a write**, the holes are zero exactly if they were and the write
skipped zeros. -/
theorem holes_written (h : s.FileAt env toks name f o os dirs pl x e)
    (hcov : ∀ i ∈ cov, i < e.size.toNat)
    (hz : ∀ i < e.size.toNat, i ∉ cov → s.fileBuf o i = 0)
    (hw : s.Written t env f o os x e (s.lacking o (offset + size)) buf size offset)
    (hf : s.lacking o (offset + size) ≤ f.length) :
    (∀ i < max e.size.toNat (offset + size),
        i ∉ (FileOp.write buf size offset).cover cov →
        t.fileBuf (o ++ f.take (s.lacking o (offset + size))) i = 0)
      ↔ ∀ i, e.size.toNat ≤ i → i < offset → s.fileBuf o i = 0 := by
  have hb := h.file.owns.geometry.page_pos
  have hlen : ∀ i < max e.size.toNat (offset + size),
      i < (o ++ f.take (s.lacking o (offset + size))).length
        * s.superblock.bytePerCluster := fun i hi => by
    have hnew := Server.le_of_lacking hb hf
    have hold : e.size.toNat ≤ (o ++ f.take (s.lacking o (offset + size))).length
        * s.superblock.bytePerCluster := by
      refine Nat.le_trans h.covers (Nat.mul_le_mul_right _ ?_)
      rw [List.length_append]
      exact Nat.le_add_right _ _
    exact Nat.lt_of_lt_of_le hi (Nat.max_le.mpr ⟨hold, hnew⟩)
  -- a position outside the write holds what it held
  have hkeep : ∀ i < max e.size.toNat (offset + size), (i < offset ∨ offset + size ≤ i) →
      t.fileBuf (o ++ f.take (s.lacking o (offset + size))) i = s.fileBuf o i :=
    fun i hi hout => by
      rw [hw.bytes i (hlen i hi)]
      rcases hout with hlt | hle
      · exact Buf.blit_of_lt hlt
      · exact Buf.blit_of_le hle
  constructor
  · intro hall i hi hio
    have himax : i < max e.size.toNat (offset + size) :=
      Nat.lt_of_lt_of_le (Nat.lt_add_right size hio) (Nat.le_max_right _ _)
    rw [← hkeep i himax (Or.inl hio)]
    refine hall i himax (fun hmem => ?_)
    rcases hmem with hmem | ⟨hle, -⟩
    · exact absurd (hcov i hmem) (Nat.not_lt.mpr hi)
    · exact absurd hio (Nat.not_lt.mpr hle)
  · intro hskip i hi hmem
    obtain ⟨hic, hir⟩ := not_or.mp hmem
    have hout : i < offset ∨ offset + size ≤ i := by
      by_contra hne
      obtain ⟨h₁, h₂⟩ := not_or.mp hne
      exact hir ⟨Nat.not_lt.mp h₁, Nat.not_le.mp h₂⟩
    rw [hkeep i hi hout]
    by_cases hie : i < e.size.toNat
    · exact hz i hie hic
    · refine hskip i (Nat.not_lt.mp hie) (hout.resolve_right (fun hle => ?_))
      exact absurd hi (Nat.not_lt.mpr (Nat.max_le.mpr ⟨Nat.not_lt.mp hie, hle⟩))

/-- After an extension the holes are zero. -/
theorem holes_extended (h : s.FileAt env toks name f o os dirs pl x e)
    (hz : ∀ i < e.size.toNat, i ∉ cov → s.fileBuf o i = 0)
    (hw : s.Written t env f o os x e (s.lacking o n) (fun _ => 0) (n - e.size.toNat)
      e.size.toNat) (hf : s.lacking o n ≤ f.length) (hi : i < n)
    (hic : i ∉ (FileOp.truncate n).cover cov) :
    t.fileBuf (o ++ f.take (s.lacking o n)) i = 0 := by
  have hlen : i < (o ++ f.take (s.lacking o n)).length * s.superblock.bytePerCluster :=
    Nat.lt_of_lt_of_le hi (Server.le_of_lacking h.file.owns.geometry.page_pos hf)
  rw [hw.bytes i hlen]
  by_cases hie : i < e.size.toNat
  · rw [Buf.blit_of_lt hie]
    exact hz i hie (fun hmem => hic ⟨hmem, hi⟩)
  · exact Buf.blit_of_mem (Nat.not_lt.mp hie) (by omega)

/-- After shrinking the holes are zero. -/
theorem holes_shrunk (h : s.FileAt env toks name f o os dirs pl x e)
    (hz : ∀ i < e.size.toNat, i ∉ cov → s.fileBuf o i = 0)
    (hs : s.Shrunk t env f o os x e n) (hn : n < e.size.toNat) (hi : i < n)
    (hic : i ∉ (FileOp.truncate n).cover cov) :
    t.fileBuf (o.take (n / s.superblock.bytePerCluster + 1)) i = 0 := by
  have hlt := Nat.lt_mul_div_succ n h.file.owns.geometry.page_pos
  rw [Nat.mul_comm] at hlt
  rw [hs.fileBuf h.file (by
    rw [List.length_take_of_le (h.file.div_lt_length hn h.covers)]
    exact Nat.lt_trans hi hlt)]
  exact hz i (Nat.lt_trans hi hn) (fun hmem => hic ⟨hmem, hi⟩)

/-- **One operation** on a file whose holes are zero: its holes are zero again
exactly if the operation skips zeros. -/
theorem holes_step (h : s.FileAt env toks name f o os dirs pl x e) (hr : env.Reliable)
    (hcov : ∀ i ∈ cov, i < e.size.toNat)
    (hz : ∀ i < e.size.toNat, i ∉ cov → s.fileBuf o i = 0) (op : FileOp) (hop : op.InRange)
    (hrun : (op.code (pathOf (toks ++ [name]))).run env s = .ok r t) (hres : 0 ≤ r) :
    ∃ f' o' e', t.FileAt env toks name f' o' os dirs pl x e'
      ∧ (∀ i ∈ op.cover cov, i < e'.size.toNat)
      ∧ ((∀ i < e'.size.toNat, i ∉ op.cover cov → t.fileBuf o' i = 0)
        ↔ op.SkipsZeros env s (pathOf (toks ++ [name]))) := by
  cases op with
  | write buf size offset =>
    rcases h.fatWrite_cases hr hop.1 hop.2 hrun with ⟨hf, -, hw⟩ | ⟨-, rfl, -⟩
    · obtain ⟨e', he', hsize⟩ := h.written hw hf
      refine ⟨_, _, e', he', fun i hi => ?_, ?_⟩
      · rw [hsize]
        rcases hi with hi | ⟨-, hi⟩
        · exact Nat.lt_of_lt_of_le (hcov i hi) (Nat.le_max_left _ _)
        · exact Nat.lt_of_lt_of_le hi (Nat.le_max_right _ _)
      · rw [hsize, h.skipsZeros_iff hr.reads]
        exact h.holes_written hcov hz hw hf
    · -- a write that is refused returns an error
      exact absurd hres (by decide)
  | truncate n =>
    rcases h.fatTruncate_cases hr hop hrun with ⟨ht, hn⟩ | ⟨hn, hf, hw⟩ | ⟨hn, hs⟩
    · obtain ⟨k, rfl⟩ := ht
      refine ⟨f, o, e, h.preads k, fun i hi => hcov i hi.1, iff_of_true ?_ trivial⟩
      exact fun i hi hic => hz i hi (fun hmem => hic ⟨hmem, Nat.lt_of_lt_of_le hi hn⟩)
    · obtain ⟨e', he', hsize⟩ := h.extended hw hf hn
      refine ⟨_, _, e', he', fun i hi => hsize.symm ▸ hi.2, iff_of_true ?_ trivial⟩
      rw [hsize]
      exact fun i hi hic => h.holes_extended hz hw hf hi hic
    · obtain ⟨e', he', hsize⟩ := h.shrunk hs hn
      refine ⟨_, _, e', he', fun i hi => hsize.symm ▸ hi.2, iff_of_true ?_ trivial⟩
      rw [hsize]
      exact fun i hi hic => h.holes_shrunk hz hs hn hi hic

/-- **A run** of operations that skip zeros keeps the holes zero. -/
theorem holes_run {u : Server × Set ℕ} (h : s.FileAt env toks name f o os dirs pl x e)
    (hr : env.Reliable) (hcov : ∀ i ∈ cov, i < e.size.toNat)
    (hz : ∀ i < e.size.toNat, i ∉ cov → s.fileBuf o i = 0)
    (hrun : Relation.ReflTransGen (HoleStep env (pathOf (toks ++ [name]))) (s, cov) u) :
    ∃ f' o' e', u.1.FileAt env toks name f' o' os dirs pl x e'
      ∧ (∀ i ∈ u.2, i < e'.size.toNat)
      ∧ ∀ i < e'.size.toNat, i ∉ u.2 → u.1.fileBuf o' i = 0 := by
  induction hrun with
  | refl => exact ⟨f, o, e, h, hcov, hz⟩
  | tail _ hstep ih =>
    obtain ⟨f', o', e', h', hcov', hz'⟩ := ih
    obtain ⟨op, r, hop, hcode, hres, hcover, hskip⟩ := hstep
    obtain ⟨f'', o'', e'', h'', hcov'', hiff⟩ := h'.holes_step hr hcov' hz' op hop hcode hres
    rw [hcover]
    exact ⟨f'', o'', e'', h'', hcov'', hiff.mpr hskip⟩

end Server.FileAt

/-- **No stale data in holes, if writes skip zeros.** In every run of granted
writes and truncations on a file that `fat_mknod` has made, whose writes skip
zeros, every hole of the file reads as zero; and whatever operation comes next,
the holes read as zero afterwards exactly if it skips zeros as well. -/
theorem holes_read_zero_iff (hr : env.Reliable) (h : s.HasParent env f os dirs toks pl name)
    {mode : ℕ}
    (hmknod : (fatMknod (pathOf (toks ++ [name])) mode).run env s = .ok r t)
    {t' : Server}
    (hmade : (findDirEntryByPath (pathOf (toks ++ [name]))).run env t = .ok (some e) t')
    {u : Server × Set ℕ}
    (hrun : Relation.ReflTransGen (HoleStep env (pathOf (toks ++ [name]))) (t, ∅) u) :
    u.1.HolesAreZero env (pathOf (toks ++ [name])) u.2
    ∧ ∀ op : FileOp, ∀ r' v, op.InRange →
      (op.code (pathOf (toks ++ [name]))).run env u.1 = .ok r' v → 0 ≤ r' →
      (v.HolesAreZero env (pathOf (toks ++ [name])) (op.cover u.2)
        ↔ op.SkipsZeros env u.1 (pathOf (toks ++ [name]))) := by
  obtain ⟨_, _, _, _, pl', x, hfile, hsize, -⟩ := fatMknod_fileAt hr h hmknod hmade
  obtain ⟨f', o', e', hfile', hcov, hz⟩ := hfile.holes_run hr
    (fun i hi => absurd hi (Set.notMem_empty i))
    (fun i hi => by rw [hsize] at hi; exact absurd hi (Nat.not_lt_zero i)) hrun
  refine ⟨(hfile'.holesAreZero_iff hr.reads).mpr hz, fun op r' v hop hcode hres => ?_⟩
  obtain ⟨_, _, e'', hfile'', -, hiff⟩ := hfile'.holes_step hr hcov hz op hop hcode hres
  exact (hfile''.holesAreZero_iff hr.reads).trans hiff

/-- Writing two bytes at position 100 of the file `/a` of a fresh disk leaves a hole
of 100 zeros. -/
theorem holes_read_zero_formatted :
    ∃ t u e, (fatMknod (pathOf ([] ++ [[97]])) sIfreg).run .ideal (Server.blank.formatted .ideal)
        = .ok 0 t
      ∧ (fatWrite (pathOf ([] ++ [[97]])) (fun _ => 1) 2 100).run .ideal t = .ok 2 u
      ∧ u.Reads .ideal (findDirEntryByPath (pathOf ([] ++ [[97]]))) (some e)
      ∧ e.size.toNat = 102 ∧ (∀ i < 100, i ∉ (FileOp.write (fun _ => 1) 2 100).cover ∅)
      ∧ u.HolesAreZero .ideal (pathOf ([] ++ [[97]]))
        ((FileOp.write (fun _ => 1) 2 100).cover ∅) := by
  have hr := Env.ideal_reliable
  obtain ⟨t, os', dirs, e₀, hrun, hb, hfile, hsize, hzero⟩ := mknod_formatted hr
  have hlack : t.lacking [5] (100 + 2) ≤ (List.range' 6 2554).length := by
    rw [Server.lacking, hb, List.length_range']
    decide
  obtain ⟨u, hwrite⟩ := hfile.fatWrite_run hr (show 0 < 2 by decide)
    (show 100 + 2 < 2 ^ 32 by decide) hlack (fun _ => 1)
  obtain ⟨hf, -, hw⟩ := (hfile.fatWrite_cases hr (by decide) (by decide) hwrite).resolve_right
    fun hres => absurd hres.2.1 (by decide)
  obtain ⟨e, hu, hsize'⟩ := hfile.written hw hf
  obtain ⟨k, hk⟩ := (hfile.reads_find hr.reads).run
  have hstep := (holes_read_zero_iff hr (hasParent_formatted .ideal) hrun hk .refl).2
    (.write (fun _ => 1) 2 100) 2 u ⟨by decide, by decide⟩ hwrite (by decide)
  refine ⟨t, u, e, hrun, hwrite, hu.reads_find hr.reads, ?_, fun i hi hmem => ?_, hstep.mpr ?_⟩
  · rw [hsize', hsize]
    rfl
  · rcases hmem with hmem | ⟨hle, -⟩
    · exact hmem
    · exact absurd hi (Nat.not_lt.mpr hle)
  · -- what the write skips is in the new cluster
    refine (hfile.skipsZeros_iff hr.reads).mpr fun i _ hi => ?_
    have hbuf : t.fileBuf [5] i = t.cluster 5 i := by
      unfold Server.fileBuf paged
      rw [hb, Nat.div_eq_of_lt (Nat.lt_trans hi (by decide)),
        Nat.mod_eq_of_lt (Nat.lt_trans hi (by decide))]
      rfl
    rw [hbuf]
    exact hzero i (Nat.lt_trans hi (by decide))

/-- **Old data shows in a hole**: two bytes are written to the file `/a` of a
fresh disk, the file is truncated to nothing, and one byte is written at
position 2. -/
theorem formatted_holes_not_zero :
    ∃ t u v w, (fatMknod (pathOf ([] ++ [[97]])) sIfreg).run .ideal
        (Server.blank.formatted .ideal) = .ok 0 t
      ∧ (fatWrite (pathOf ([] ++ [[97]])) (fun _ => 1) 2 0).run .ideal t = .ok 2 u
      ∧ (fatTruncate (pathOf ([] ++ [[97]])) 0).run .ideal u = .ok 0 v
      ∧ (fatWrite (pathOf ([] ++ [[97]])) (fun _ => 1) 1 2).run .ideal v = .ok 1 w
      ∧ ¬ w.HolesAreZero .ideal (pathOf ([] ++ [[97]]))
        ((FileOp.write (fun _ => 1) 1 2).cover
          ((FileOp.truncate 0).cover ((FileOp.write (fun _ => 1) 2 0).cover ∅))) := by
  have hr := Env.ideal_reliable
  obtain ⟨t, os, dirs, e, hrun, hb, ht, hsize, -⟩ := mknod_formatted hr
  -- two bytes are written, to the only cluster of the file
  have hlack : t.lacking [5] (0 + 2) = 0 := by
    rw [Server.lacking, hb]
    rfl
  obtain ⟨u, hwrite⟩ := ht.fatWrite_run hr (show 0 < 2 by decide)
    (show 0 + 2 < 2 ^ 32 by decide) (by rw [hlack]; exact Nat.zero_le _) (fun _ => 1)
  obtain ⟨hf, -, hw⟩ := (ht.fatWrite_cases hr (by decide) (by decide) hwrite).resolve_right
    (fun hres => absurd hres.2.1 (by decide))
  obtain ⟨e₁, hu, hsize₁⟩ := ht.written hw hf
  have hone := hw.bytes 0
  rw [hlack, List.take_zero, List.append_nil] at hu hone
  replace hone : u.fileBuf [5] 0 = 1 := by
    refine (hone (by rw [hb]; decide)).trans ?_
    exact Buf.blit_of_mem (Nat.le_refl 0) (by decide)
  -- the file is cut, and keeps the cluster
  have hcut : 0 < e₁.size.toNat := by
    rw [hsize₁]
    exact Nat.lt_of_lt_of_le (by decide) (Nat.le_max_right _ _)
  obtain ⟨v, htrunc⟩ := hu.fatTruncate_run hr hcut
  obtain ⟨-, hs⟩ := ((hu.fatTruncate_cases hr (by decide) htrunc).resolve_left
    (fun hle => absurd hle.2 (Nat.not_le.mpr hcut))).resolve_left
    (fun hgt => absurd hgt.1 (Nat.not_lt_zero _))
  obtain ⟨e₂, hv, hsize₂⟩ := hu.shrunk hs hcut
  have hold := hs.fileBuf (i := 0) hu.file
  rw [Nat.zero_div, Nat.zero_add, show ([5] : List ℕ).take 1 = [5] from rfl] at hv hold
  replace hold : v.fileBuf [5] 0 = 1 := (hold (by
    rw [← hs.bytePerCluster]
    exact Nat.mul_pos (by decide) hv.file.owns.geometry.page_pos)).trans hone
  -- one byte is written behind the end
  obtain ⟨w, hlast⟩ := hv.fatWrite_run hr (show 0 < 1 by decide)
    (show 2 + 1 < 2 ^ 32 by decide) (by
      rw [Server.lacking, hs.bytePerCluster, hw.bytePerCluster, hb]
      exact Nat.zero_le _) (fun _ => 1)
  set cov : Set ℕ := (FileOp.truncate 0).cover ((FileOp.write (fun _ => 1) 2 0).cover ∅)
  have hcov : ∀ i ∈ cov, i < e₂.size.toNat := fun i hi => absurd hi.2 (Nat.not_lt_zero i)
  obtain ⟨_, _, e₃, hw₃, -, hiff⟩ := hv.holes_step hr hcov
    (fun i hi => by rw [hsize₂] at hi; exact absurd hi (Nat.not_lt_zero i))
    (.write (fun _ => 1) 1 2) ⟨by decide, by decide⟩ hlast (by decide)
  refine ⟨t, u, v, w, hrun, hwrite, htrunc, hlast, fun hzero => ?_⟩
  have hskip := (hv.skipsZeros_iff hr.reads).mp
    (hiff.mp ((hw₃.holesAreZero_iff hr.reads).mp hzero))
  have habs := hskip 0 (by rw [hsize₂]) (by decide)
  rw [hold] at habs
  exact absurd habs (by decide)

end Fat
