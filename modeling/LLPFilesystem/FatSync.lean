import LLPFilesystem.FatReads
import Mathlib.Tactic.IntervalCases

/-!
# The disk agrees with memory

The superblock and the FAT live twice, in memory and on disk, and the server writes each
change of the one through to the other. `Server.Synced` says that the two agree. Every
change the server makes keeps them so when its writes succeed: a data cluster is no
metadata, an entry is written with the whole FAT cluster that holds it, and a new head of
the free list goes out with the superblock. A disk that agrees is all a mount needs
(`Server.Synced.remounts`).
-/

namespace Fat

variable {env : Env} {s t u : Server} {buf src : Buf} {c d i n off size offset v : ℕ}
  {l : List ℕ} {e : FatDirEntry} {α : Type} {a : α}

/-- **The disk agrees with memory** on the superblock and on the FAT. -/
structure Server.Synced (s : Server) : Prop where
  superblock : ∀ i < superblockSize, s.fatDisk i = s.superblock.bytes i
  fat : ∀ i < s.fatSize, s.fatDisk (s.superblock.bytePerCluster + i) = s.fatTable i

/-- The FAT on disk lies in front of the data clusters. -/
theorem fat_end_le (hc : s.superblock.IsData c) :
    s.superblock.bytePerCluster + s.fatSize ≤ c * s.superblock.bytePerCluster :=
  calc s.superblock.bytePerCluster + s.fatSize
      = (1 + s.superblock.clusterPerFat) * s.superblock.bytePerCluster := by
        unfold Server.fatSize
        ring
    _ ≤ c * s.superblock.bytePerCluster := Nat.mul_le_mul_right _ hc.1

/-- An entry lies in one cluster of the FAT. -/
theorem entry_inside (hg : s.superblock.Geometry) (c : ℕ) :
    s.superblock.entryAt c / s.superblock.bytePerCluster * s.superblock.bytePerCluster
        ≤ s.superblock.entryAt c
      ∧ s.superblock.entryAt c + 4
        ≤ (s.superblock.entryAt c / s.superblock.bytePerCluster + 1)
          * s.superblock.bytePerCluster := by
  refine ⟨Nat.div_mul_le_self _ _, ?_⟩
  have hlt : s.superblock.entryAt c % s.superblock.bytePerCluster
      < s.superblock.bytePerCluster := Nat.mod_lt _ hg.page_pos
  have hdvd : 4 ∣ s.superblock.entryAt c % s.superblock.bytePerCluster :=
    (Nat.dvd_mod_iff hg.aligned).mpr (Nat.dvd_mul_right 4 _)
  have hroom : s.superblock.entryAt c % s.superblock.bytePerCluster + 4
      ≤ s.superblock.bytePerCluster := by
    obtain ⟨m, hm⟩ := hdvd
    obtain ⟨n, hn⟩ := hg.aligned
    omega
  have hsplit := Nat.div_add_mod' (s.superblock.entryAt c) s.superblock.bytePerCluster
  rw [Nat.succ_mul]
  omega

theorem fatDisk_writeSuperblock (hw : env.WritesFull) :
    (s.writeSuperblock env).fatDisk = s.fatDisk.blit 0
      ((s.newCluster env).blit 0 s.superblock.bytes superblockSize)
      s.superblock.bytePerCluster := by
  show Buf.blit _ (0 * _) _ _ = _
  rw [hw, Nat.zero_mul]
  rfl

theorem superblockBytes_writeSuperblock (hw : env.WritesFull) (hg : s.superblock.Geometry) :
    ∀ i < superblockSize, (s.writeSuperblock env).fatDisk i = s.superblock.bytes i := by
  intro i hi
  have hin : i < 0 + s.superblock.bytePerCluster := by
    rw [Nat.zero_add]
    exact hi.trans_le hg.page
  rw [fatDisk_writeSuperblock hw, Buf.blit_of_mem (Nat.zero_le i) hin, Nat.sub_zero,
    Buf.blit_of_mem (Nat.zero_le i) (by rwa [Nat.zero_add]), Nat.sub_zero]

namespace Server.Synced

/-- Agreement is about memory and the clusters in front of the data alone. -/
theorem congr (h : s.Synced) (hg : s.superblock.Geometry) (hsb : t.superblock = s.superblock)
    (hfat : t.fatTable = s.fatTable)
    (hdisk : ∀ i < s.superblock.bytePerCluster + s.fatSize, t.fatDisk i = s.fatDisk i) :
    t.Synced := by
  constructor
  · intro i hi
    rw [hsb, hdisk i (lt_of_lt_of_le hi (hg.page.trans (Nat.le_add_right _ _)))]
    exact h.superblock i hi
  · unfold Server.fatSize
    rw [hsb, hfat]
    intro i hi
    rw [hdisk _ (Nat.add_lt_add_left hi _)]
    exact h.fat i hi

theorem preads (h : s.Synced) (k : ℕ) : ({ s with preads := k } : Server).Synced :=
  ⟨h.superblock, h.fat⟩

/-- **Writing a data cluster** touches neither, whatever the write does. -/
theorem writeCluster (h : s.Synced) (hg : s.superblock.Geometry) (hc : s.superblock.IsData c)
    (env : Env) (buf : Buf) : (s.writeCluster env buf c).Synced :=
  h.congr hg rfl rfl fun _ hi => Buf.blit_of_lt (hi.trans_le (fat_end_le hc))

theorem writeClusters (h : s.Synced) (hg : s.superblock.Geometry)
    (hl : ∀ c ∈ l, s.superblock.IsData c) (env : Env) (buf : Buf) :
    (s.writeClusters env buf l).Synced := by
  induction l generalizing s with
  | nil => exact h
  | cons c l ih =>
    exact ih (s := s.writeCluster env buf c) (h.writeCluster hg (hl c List.mem_cons_self) env buf)
      hg fun d hd => hl d (List.mem_cons_of_mem c hd)

/-- **Writing the superblock** makes it agree, when the FAT does. -/
theorem writeSuperblock (hw : env.WritesFull) (hg : s.superblock.Geometry)
    (hfat : ∀ i < s.fatSize, s.fatDisk (s.superblock.bytePerCluster + i) = s.fatTable i) :
    (s.writeSuperblock env).Synced := by
  refine ⟨superblockBytes_writeSuperblock hw hg, fun i hi => ?_⟩
  rw [fatDisk_writeSuperblock hw]
  show Buf.blit _ _ _ _ (s.superblock.bytePerCluster + i) = _
  rw [Buf.blit_of_le (by rw [Nat.zero_add]; exact Nat.le_add_right _ _)]
  exact hfat i hi

/-- **Redirecting an entry** keeps the FATs equal: the cluster that goes out holds it. -/
theorem linkFat (hw : env.WritesFull) (h : s.Synced) (hg : s.superblock.Geometry)
    (c v : ℕ) : (s.linkFat env c v).Synced := by
  set b := s.superblock.bytePerCluster with hb
  set k := s.superblock.entryAt c / b with hk
  have hdisk : (s.linkFat env c v).fatDisk = s.fatDisk.blit ((k + 1) * b)
      ((s.setFat c v).fatTable.shift (k * b)) b := by
    show Buf.blit _ _ _ _ = _
    rw [hw]
    rfl
  have hfirst : b ≤ (k + 1) * b := Nat.le_mul_of_pos_left b (Nat.succ_pos k)
  constructor
  · intro i hi
    rw [hdisk, Buf.blit_of_lt (hi.trans_le (hg.page.trans hfirst))]
    exact h.superblock i hi
  · intro i hi
    rw [hdisk]
    show Buf.blit _ _ _ _ (b + i) = (s.setFat c v).fatTable i
    have hentry : k * b ≤ s.superblock.entryAt c ∧ s.superblock.entryAt c + 4 ≤ (k + 1) * b :=
      entry_inside hg c
    have hold : s.fatDisk (b + i) = s.fatTable i := h.fat i hi
    rcases lt_or_ge i (k * b) with hlt | hge
    · have hbefore : b + i < (k + 1) * b := by
        rw [Nat.succ_mul, Nat.add_comm (k * b)]
        exact Nat.add_lt_add_left hlt b
      rw [Buf.blit_of_lt hbefore, hold]
      exact (Buf.blit_of_lt (hlt.trans_le hentry.1)).symm
    rcases lt_or_ge i ((k + 1) * b) with hlt | hge'
    · obtain ⟨j, rfl⟩ := Nat.exists_eq_add_of_le hge
      have hj : j < b := by
        rw [Nat.succ_mul] at hlt
        exact Nat.lt_of_add_lt_add_left hlt
      have hsum : b + (k * b + j) = (k + 1) * b + j := by ring
      rw [hsum, Buf.blit_add hj]
      rfl
    · have hbehind : (k + 1) * b + b ≤ b + i := by
        rw [Nat.add_comm b]
        exact Nat.add_le_add_right hge' b
      rw [Buf.blit_of_le hbehind, hold]
      exact (Buf.blit_of_le (hentry.2.trans hge')).symm

/-- The superblock in memory has a new head, which goes out with it. -/
theorem setFree_writeSuperblock (hw : env.WritesFull) (h : s.Synced)
    (hg : s.superblock.Geometry) (v : ℕ) : ((s.setFree v).writeSuperblock env).Synced :=
  writeSuperblock (s := s.setFree v) hw hg.setFree h.fat

theorem popped (hw : env.WritesFull) (h : s.Synced) (hg : s.superblock.Geometry)
    (hl : ∀ c ∈ l, s.superblock.IsData c) (d v : ℕ) : (s.popped env l d v).Synced :=
  writeClusters ((h.setFree_writeSuperblock hw hg v).linkFat hw hg.setFree d endOfChain)
    hg.setFree hl env _

theorem pushed (hw : env.WritesFull) (h : s.Synced) (hg : s.superblock.Geometry)
    (c d : ℕ) : (s.pushed env c d).Synced :=
  (h.linkFat hw hg d s.superblock.freeClusterStart).setFree_writeSuperblock hw hg c

theorem grown (hw : env.WritesFull) (h : s.Synced) (hg : s.superblock.Geometry)
    (hl : ∀ c ∈ l, s.superblock.IsData c) (d i : ℕ) : (s.grown env l d i).Synced := by
  refine (h.popped hw hg hl d (s.next d)).linkFat hw ?_ i _
  rw [Server.superblock_popped]
  exact hg.setFree

theorem shrunk (hw : env.WritesFull) (h : s.Synced) (hg : s.superblock.Geometry)
    (d : ℕ) (l : List ℕ) : (s.shrunk env d l).Synced := by
  have hcut := h.linkFat hw hg d endOfChain
  cases l using List.reverseRecOn with
  | nil => exact hcut
  | append_singleton l e =>
    rw [Server.shrunk_concat]
    exact hcut.pushed hw hg _ e

end Server.Synced

/-! ## Mounting -/

/-- **A mount sees what the server had**: reading the disk back, another run arrives at the
superblock and the FAT of this one. -/
def Server.Remounts (s : Server) : Prop :=
  ∀ (env : Env) (u : Server), env.ReadsFull → u.fatDisk = s.fatDisk →
    ∃ t, mountDisk.run env u = .ok () t ∧ t.superblock = s.superblock
      ∧ ∀ i < s.fatSize, t.fatTable i = s.fatTable i

theorem leNat_bytes {m : Buf} {sb : Superblock} (h : ∀ i < superblockSize, m i = sb.bytes i)
    {off v : ℕ} (hoff : off + 4 ≤ superblockSize) (hv : v < 2 ^ 32)
    (hbytes : ∀ i < 4, sb.bytes (off + i) = leByte v i) : leNat m off 4 = v := by
  rw [leNat_of_leByte (v := v) fun i hi => by rw [h _ (by omega), hbytes i hi]]
  exact Nat.mod_eq_of_lt hv

/-- **The superblock survives the disk**, its fields being `unsigned int`s. -/
theorem Superblock.ofBytes_eq {m : Buf} {sb : Superblock} (hg : sb.Geometry)
    (hfree : sb.freeClusterStart < 2 ^ 32)
    (h : ∀ i < superblockSize, m i = sb.bytes i) : Superblock.ofBytes m = sb := by
  have hb := hg.bytePerCluster_lt
  have hn := hg.clusterCount_lt
  have hroot := hg.root
  have hroom := hg.room
  have hfat : sb.fatType < 2 ^ 32 := by
    rw [hg.fatType]
    decide
  have hbyte : leNat m 0 4 = sb.bytePerCluster :=
    leNat_bytes h (by decide) (by omega) fun i hi => by interval_cases i <;> rfl
  have hcount : leNat m 4 4 = sb.clusterCount :=
    leNat_bytes h (by decide) (by omega) fun i hi => by interval_cases i <;> rfl
  have hper : leNat m 8 4 = sb.clusterPerFat :=
    leNat_bytes h (by decide) (by omega) fun i hi => by interval_cases i <;> rfl
  have htype : leNat m 12 4 = sb.fatType :=
    leNat_bytes h (by decide) hfat fun i hi => by interval_cases i <;> rfl
  have hstart : leNat m 16 4 = sb.rootClusterStart :=
    leNat_bytes h (by decide) (by omega) fun i hi => by interval_cases i <;> rfl
  have hhead : leNat m 20 4 = sb.freeClusterStart :=
    leNat_bytes h (by decide) hfree fun i hi => by interval_cases i <;> rfl
  have hpad : (fun i : Fin 488 => m (24 + i)) = sb.pad := by
    funext i
    rw [h (24 + i) (by have := i.isLt; unfold superblockSize; omega)]
    show Superblock.bytes sb (24 + i) = _
    unfold Superblock.bytes
    have hi := i.isLt
    rw [if_neg (by omega), if_neg (by omega), if_neg (by omega), if_neg (by omega),
      if_neg (by omega), if_neg (by omega), dif_pos (by omega)]
    congr
    exact Nat.add_sub_cancel_left 24 i.val
  rw [Superblock.ofBytes, hbyte, hcount, hper, htype, hstart, hhead, hpad]

theorem pread_full (hr : env.ReadsFull) (buf : Buf) (size offset : ℕ) :
    (pread buf size offset).run env s = .ok ((size : ℤ), buf.blit 0 (s.fatDisk.shift offset) size)
      { s with preads := s.preads + 1 } := by
  show Outcome.ok ((env.pread s.preads).result size, buf.blit 0 _ _) _ = _
  rw [hr]
  rfl

/-- The server that a mount of the disk leaves. -/
def Server.mounted (s : Server) : Server :=
  let sb := Superblock.ofBytes (s.superblock.bytes.blit 0 s.fatDisk superblockSize)
  let fatSize := sb.bytePerCluster * sb.clusterPerFat
  { s with
    superblock := sb
    fatTable := Buf.blit (fun _ => 0) 0 (s.fatDisk.shift sb.bytePerCluster) fatSize
    preads := s.preads + 2 }

theorem mountDisk_run (hr : env.ReadsFull) : mountDisk.run env s = .ok () s.mounted := by
  have hsuper : (initSuperblock false).run env s = .ok 0 { s with
      superblock := .ofBytes (s.superblock.bytes.blit 0 s.fatDisk superblockSize)
      preads := s.preads + 1 } := by
    rw [initSuperblock, Prog.bind_ok _ (Prog.run_get env s), if_neg Bool.false_ne_true,
      Prog.bind_ok _ (pread_full hr _ _ _)]
    show Outcome.ok (if ((superblockSize : ℕ) : ℤ) < superblockSize then _ else _) _ = _
    rw [if_neg (lt_irrefl _), Buf.shift_zero]
  rw [mountDisk, Prog.bind_ok _ hsuper, Prog.bind_ok _ (check_run (by decide) env _)]
  have hfat : ∀ u : Server, (initFat false).run env u = .ok 0 { u with
      fatTable := Buf.blit (fun _ => 0) 0 (u.fatDisk.shift u.superblock.bytePerCluster) u.fatSize
      preads := u.preads + 1 } := by
    intro u
    rw [initFat, Prog.bind_ok _ (Prog.run_get env u)]
    dsimp only
    rw [Prog.bind_ok _ (Prog.run_modify _ env u), if_neg Bool.false_ne_true,
      Prog.bind_ok _ (Prog.run_get env _), Prog.bind_ok _ (pread_full hr _ _ _)]
    show Outcome.ok (if ((u.fatSize : ℕ) : ℤ) < u.fatSize then _ else _) _ = _
    rw [if_neg (lt_irrefl _)]
  rw [Prog.bind_ok _ (hfat _), check_run (by decide)]
  rfl

/-- **A disk that agrees is all a mount needs.** -/
theorem Server.Synced.remounts (h : s.Synced) (hg : s.superblock.Geometry)
    (hfree : s.superblock.freeClusterStart < 2 ^ 32) : s.Remounts := by
  intro env u hr hdisk
  have hsb : Superblock.ofBytes (u.superblock.bytes.blit 0 u.fatDisk superblockSize)
      = s.superblock := by
    refine Superblock.ofBytes_eq hg hfree fun i hi => ?_
    rw [Buf.blit_of_mem (Nat.zero_le i) (by rwa [Nat.zero_add]), Nat.sub_zero, hdisk]
    exact h.superblock i hi
  refine ⟨u.mounted, mountDisk_run hr, hsb, fun i hi => ?_⟩
  unfold Server.mounted
  dsimp only
  rw [hsb, hdisk, Buf.blit_of_mem (Nat.zero_le i) (by rw [Nat.zero_add]; exact hi),
    Nat.sub_zero]
  exact h.fat i hi

theorem fatDisk_writeFat (hw : env.WritesFull) :
    (s.writeFat env).fatDisk
      = s.fatDisk.blit s.superblock.bytePerCluster s.fatTable s.fatSize := by
  show Buf.blit _ _ _ _ = _
  rw [hw]
  rfl

/-- A FAT that has been written in one piece agrees. -/
theorem writeFat_synced (hw : env.WritesFull) (hg : s.superblock.Geometry)
    (h : ∀ i < superblockSize, s.fatDisk i = s.superblock.bytes i) : (s.writeFat env).Synced := by
  constructor
  · intro i hi
    rw [fatDisk_writeFat hw, Buf.blit_of_lt (hi.trans_le hg.page)]
    exact h i hi
  · intro i hi
    rw [fatDisk_writeFat hw]
    exact Buf.blit_add hi

/-- **Formatting leaves a disk that agrees.** -/
theorem formatted_synced (hw : env.WritesFull) (s : Server) : (s.formatted env).Synced := by
  have hg : (s.freshSuperblock env).superblock.Geometry := Superblock.fresh_geometry _
  rw [Server.formatted]
  refine writeFat_synced hw (by rwa [Server.superblock_freshFat]) ?_
  rw [Server.superblock_freshFat, Server.fatDisk_freshFat]
  exact superblockBytes_writeSuperblock hw hg

/-! ## What returns and writes data alone -/

/-- **The metadata has been kept**: memory is the same, and the disk agrees with it if it
did. -/
structure Server.Kept (s t : Server) : Prop where
  table : s.SameTable t
  synced : s.Synced → t.Synced

namespace Server.Kept

theorem refl (s : Server) : s.Kept s := ⟨⟨rfl, rfl⟩, id⟩

theorem trans (h : s.Kept t) (h' : t.Kept u) : s.Kept u :=
  ⟨⟨h'.table.superblock.trans h.table.superblock, h'.table.fatTable.trans h.table.fatTable⟩,
    h'.synced ∘ h.synced⟩

theorem preads (s : Server) (k : ℕ) : s.Kept { s with preads := k } :=
  ⟨⟨rfl, rfl⟩, fun h => h.preads k⟩

theorem writeCluster (hg : s.superblock.Geometry) (hc : s.superblock.IsData c) (env : Env)
    (buf : Buf) : s.Kept (s.writeCluster env buf c) :=
  ⟨⟨rfl, rfl⟩, fun h => h.writeCluster hg hc env buf⟩

end Server.Kept

/-- **What a load that returns has read**: the cluster, or nothing. -/
theorem loadCluster_ok (hg : s.superblock.Geometry) (hc : s.superblock.IsData c)
    (hrun : (loadCluster c).run env s = .ok buf t) :
    t = s.readOnce ∧ (buf = s.clusterBuf env c ∨ buf = s.newCluster env) := by
  have hbind : (loadCluster c >>= pure).run env s = .ok buf t := Prog.bind_ok pure hrun
  have hfull : (s.newCluster env).blit 0 (s.cluster c) s.superblock.bytePerCluster
      = s.clusterBuf env c := by
    funext i
    rcases lt_or_ge i s.superblock.bytePerCluster with hi | hi
    · rw [Buf.blit_of_mem (Nat.zero_le i) (by rwa [Nat.zero_add]), Server.clusterBuf_of_lt hi,
        Nat.sub_zero]
    · rw [Buf.blit_of_le (by rwa [Nat.zero_add]), Server.newCluster, Server.clusterBuf,
        if_neg (Nat.not_lt_of_le hi), if_neg (Nat.not_lt_of_le hi)]
  rw [loadCluster_bind, Prog.bind_ok _ (readClusterFromDisk_run hg hc.2 (by rw [Nat.zero_add])),
    Buf.shift_zero] at hbind
  dsimp only at hbind
  split at hbind
  · rw [check_short] at hbind
    cases hbind
  · next hlt =>
    rw [check_full] at hbind
    cases hbind
    refine ⟨rfl, ?_⟩
    cases hread : env.pread s.preads with
    | full => exact .inl hfull
    | failed => exact .inr (Buf.blit_zero _ _ _)
    | short n =>
      have hle : s.superblock.bytePerCluster ≤ n := by
        by_contra hn
        have hb := hg.bytePerCluster_lt
        rw [hread] at hlt
        simp only [Transfer.result, u32OfInt] at hlt
        omega
      refine .inl ?_
      rw [show (Transfer.short n).moved s.superblock.bytePerCluster
        = s.superblock.bytePerCluster from Nat.min_eq_right hle]
      exact hfull

/-- **Where a scan that returns has ended**: at a match in a cluster of the chain, or past
its last cluster. -/
theorem scanDir_ok {ok : Superblock → ℕ → Bool} {p : FatDirEntry → Bool}
    {hit : ℕ → Buf → ℕ → FatM α} {miss : ℕ → FatM α} {fuel : ℕ} (hg : s.superblock.Geometry)
    (h : s.Chain c l) (hl : l ≠ []) (hrun : (scanDir ok p hit miss fuel c).run env s = .ok a t) :
    ∃ k, ∃ d ∈ l,
      (∃ buf o, (hit d buf o).run env { s with preads := k } = .ok a t
        ∧ (dirSlots s.superblock.bytePerCluster).find? (fun o => p (entryAt buf o)) = some o
        ∧ (buf = s.clusterBuf env d ∨ buf = s.newCluster env))
      ∨ l.getLast? = some d ∧ (miss d).run env { s with preads := k } = .ok a t := by
  induction fuel generalizing c l s with
  | zero => cases hrun
  | succ fuel ih =>
    obtain ⟨x, l, rfl⟩ := List.exists_cons_of_ne_nil hl
    obtain rfl : c = x := h.head_eq
    rw [scanDir, Prog.bind_ok _ (Prog.run_get env s)] at hrun
    obtain ⟨_, s₁, hcheck, hrun⟩ := Prog.bind_eq_ok_iff.mp hrun
    obtain rfl : s₁ = s := (congrArg Outcome.state hcheck).symm.trans check_state
    obtain ⟨buf, s₂, hload, hrun⟩ := Prog.bind_eq_ok_iff.mp hrun
    obtain ⟨rfl, hbuf⟩ := loadCluster_ok hg h.head_data hload
    cases hfind : (dirSlots s₁.superblock.bytePerCluster).find?
        (fun offset => p (entryAt buf offset)) with
    | some o =>
      rw [hfind] at hrun
      exact ⟨_, c, List.mem_cons_self, .inl ⟨buf, o, hrun, hfind, hbuf⟩⟩
    | none =>
      rw [hfind] at hrun
      dsimp only at hrun
      rw [Prog.bind_ok _ (readFatEntry_run (s := s₁.readOnce) hg h.head_data)] at hrun
      split at hrun
      · next hend =>
        have hnil : l = [] := by
          have htail := h.tail
          rw [show s₁.next c = endOfChain from hend] at htail
          exact htail.linked.eq_nil
        rw [hnil]
        exact ⟨_, c, List.mem_cons_self, .inr ⟨rfl, hrun⟩⟩
      · next hne =>
        have hl' : l ≠ [] := by
          rintro rfl
          exact hne h.tail.linked
        obtain ⟨k, d, hd, hcase⟩ := ih (s := s₁.readOnce) hg (h.tail.preads _) hl' hrun
        refine ⟨k, d, List.mem_cons_of_mem c hd, hcase.imp id fun hmiss => ⟨?_, hmiss.2⟩⟩
        obtain ⟨y, l, rfl⟩ := List.exists_cons_of_ne_nil hl'
        rw [List.getLast?_cons_cons]
        exact hmiss.1

theorem writeClusterToDisk_kept {r : ℤ} (hg : s.superblock.Geometry)
    (hc : s.superblock.IsData c) (hrun : (writeClusterToDisk buf c).run env s = .ok r t) :
    s.Kept t := by
  rw [writeClusterToDisk_run hg hc.2] at hrun
  cases hrun
  exact .writeCluster hg hc env buf

theorem storeCluster_kept (hg : s.superblock.Geometry) (hc : s.superblock.IsData c)
    (hrun : (storeCluster buf c).run env s = .ok () t) : s.Kept t := by
  obtain ⟨_, u, hwrite, hcheck⟩ := Prog.bind_eq_ok_iff.mp hrun
  obtain rfl : t = u := (congrArg Outcome.state hcheck).symm.trans check_state
  exact writeClusterToDisk_kept hg hc hwrite

theorem modifyCluster_kept {b : Buf} (hg : s.superblock.Geometry) (hc : s.superblock.IsData c)
    (hrun : (modifyCluster buf c off src n).run env s = .ok b t) : s.Kept t := by
  obtain ⟨x, s₁, hread, hrun⟩ := Prog.bind_eq_ok_iff.mp hrun
  have hreads : ReadOnly env (readEntireClusterFromDisk buf c) :=
    (ReadOnly.get env).bind fun s => ReadOnly.readClusterFromDisk env buf c 0 _
  obtain ⟨k, rfl⟩ := hreads.of_ok hread
  obtain ⟨_, s₂, hcheck, hrun⟩ := Prog.bind_eq_ok_iff.mp hrun
  obtain rfl : s₂ = { s with preads := k } :=
    (congrArg Outcome.state hcheck).symm.trans check_state
  obtain ⟨_, s₃, hstore, hret⟩ := Prog.bind_eq_ok_iff.mp hrun
  cases hret
  exact (Server.Kept.preads s k).trans
    (storeCluster_kept (s := { s with preads := k }) hg hc hstore)

/-- **Updating an entry** writes one cluster of the directory, or none. -/
theorem updateDirEntry_kept {r : ℤ} {remove : Bool} (hg : s.superblock.Geometry)
    (h : s.Chain c l) (hl : l ≠ []) (hrun : (updateDirEntry c e remove).run env s = .ok r t) :
    s.Kept t := by
  rw [updateDirEntry, Prog.bind_ok _ (Prog.run_get env s)] at hrun
  obtain ⟨k, d, hd, ⟨buf, o, hhit, -⟩ | ⟨-, hmiss⟩⟩ := scanDir_ok hg h hl hrun
  · refine (Server.Kept.preads s k).trans ?_
    have hdata : ({ s with preads := k } : Server).superblock.IsData d := h.data d hd
    split at hhit
    · exact writeClusterToDisk_kept hg hdata hhit
    · obtain ⟨cluster, u, hput, hwrite⟩ := Prog.bind_eq_ok_iff.mp hhit
      obtain ⟨-, rfl⟩ := putEntryAt_ok d hput
      exact writeClusterToDisk_kept hg hdata hwrite
  · cases hmiss
    exact .preads s k

theorem updateSize_kept (hg : s.superblock.Geometry) (h : s.Chain c l) (hl : l ≠ [])
    (hrun : (updateSize c e n).run env s = .ok () t) : s.Kept t := by
  rw [updateSize, Prog.bind_ok _ (Prog.run_read env s), Prog.bind_ok _ (Prog.run_get env s)] at hrun
  split at hrun
  · obtain ⟨_, u, hupdate, hcheck⟩ := Prog.bind_eq_ok_iff.mp hrun
    obtain rfl : t = u := (congrArg Outcome.state hcheck).symm.trans check_state
    exact updateDirEntry_kept hg h hl hupdate
  · cases hrun
    exact .refl s

theorem writeWhole_kept {b : ℕ} (hg : s.superblock.Geometry) (h : s.Chain c l)
    (hn : n < l.length) (hrun : (writeWhole src b n c off).run env s = .ok d t) : s.Kept t := by
  induction n generalizing c l off s with
  | zero =>
    cases hrun
    exact .refl _
  | succ n ih =>
    rw [writeWhole] at hrun
    obtain ⟨x, s', hread, hrest⟩ := Prog.bind_eq_ok_iff.mp hrun
    obtain ⟨rfl, -, htail⟩ := readFatEntry_ok hg h hread
    obtain ⟨_, u, hstore, hrest⟩ := Prog.bind_eq_ok_iff.mp hrest
    have hlen : n < l.tail.length := by
      rw [List.length_tail]
      exact Nat.lt_sub_of_add_lt hn
    obtain ⟨y, l', hl'⟩ := List.exists_cons_of_length_pos ((Nat.zero_le n).trans_lt hlen)
    have hx : s'.superblock.IsData x := by
      rw [hl'] at htail
      exact htail.head_eq ▸ htail.head_data
    have hkept := storeCluster_kept hg hx hstore
    exact hkept.trans (ih (hkept.table.geometry hg) (hkept.table.chain htail) hlen hrest)

theorem writeRest_kept {cluster : Buf} (hg : s.superblock.Geometry) (h : s.Chain c l)
    (hn : n + s.superblock.bytePerCluster ≤ l.length * s.superblock.bytePerCluster)
    (hrun : (writeRest cluster src c off n).run env s = .ok () t) : s.Kept t := by
  have hb := hg.page_pos
  rw [writeRest, Prog.bind_ok _ (Prog.run_get env s)] at hrun
  dsimp only at hrun
  set b := s.superblock.bytePerCluster with hbdef
  have hlt : n / b < l.length := by
    rw [Nat.div_lt_iff_lt_mul hb]
    exact (Nat.lt_add_of_pos_right hb).trans_le hn
  obtain ⟨d, u, hwhole, hrest⟩ := Prog.bind_eq_ok_iff.mp hrun
  have hkept := writeWhole_kept hg h hlt hwhole
  obtain ⟨hu, -, hd⟩ := writeWhole_ok hg h hwhole
  split at hrest
  · cases hrest
    exact hkept
  · next h0 =>
    obtain ⟨x, u', hread, hlast⟩ := Prog.bind_eq_ok_iff.mp hrest
    obtain ⟨rfl, -, htail⟩ := readFatEntry_ok (hu.geometry hg) hd hread
    obtain ⟨b', w, hmodify, hret⟩ := Prog.bind_eq_ok_iff.mp hlast
    cases hret
    -- a part of a cluster is left, so the chain has one more
    have hmore : n / b + 1 < l.length := by
      have hdm := Nat.div_add_mod' n b
      have hpos : 0 < n % b := Nat.pos_of_ne_zero h0
      by_contra hle
      have hmul := Nat.mul_le_mul_right b (Nat.le_of_not_lt hle)
      rw [Nat.add_mul, Nat.one_mul] at hmul
      omega
    have hx : u'.superblock.IsData x := by
      rw [List.tail_drop, List.drop_eq_getElem_cons hmore] at htail
      exact htail.head_eq ▸ htail.head_data
    exact hkept.trans (modifyCluster_kept (hu.geometry hg) hx hmodify)

/-- **A write inside the chain** touches data alone. -/
theorem writeData_kept (hg : s.superblock.Geometry) (h : s.Chain c l)
    (hin : u32 offset / s.superblock.bytePerCluster < l.length)
    (hend : u32 offset + u32 size ≤ l.length * s.superblock.bytePerCluster)
    (hrun : (writeData c src size offset).run env s = .ok () t) : s.Kept t := by
  rw [writeData, Prog.bind_ok _ (Prog.run_get env s)] at hrun
  dsimp only at hrun
  set b := s.superblock.bytePerCluster with hb
  set m := min (u32 size) (b - u32 offset % b) with hm
  obtain ⟨d, u, hskip, hrest⟩ := Prog.bind_eq_ok_iff.mp hrun
  obtain ⟨rfl, -, hd⟩ := skipClusters_ok hg h hskip
  have hdata : u.superblock.IsData d := by
    have hd' := hd
    rw [List.drop_eq_getElem_cons hin] at hd'
    exact hd'.head_eq ▸ hd'.head_data
  have hnew : getNewCluster.run env u = .ok (u.newCluster env) u := rfl
  rw [Prog.bind_ok _ hnew] at hrest
  have hfinish : ∀ (cl : Buf) (u' : Server), u.Kept u' →
      (if u32 size - m = 0 then return ()
        else writeRest cl src d m (u32 size - m)).run env u' = .ok () t → u.Kept t := by
    intro cl u' hkept hrest
    split at hrest
    · cases hrest
      exact hkept
    · next h0 =>
      refine hkept.trans (writeRest_kept (hkept.table.geometry hg) (hkept.table.chain hd) ?_ hrest)
      rw [hkept.table.superblock, ← hb, List.length_drop, Nat.sub_mul]
      have hdm := Nat.div_add_mod' (u32 offset) b
      have hmod := Nat.mod_lt (u32 offset) hg.page_pos
      omega
  by_cases hlt : m < b
  · rw [if_pos hlt] at hrest
    obtain ⟨cl, u', hx, hrest⟩ := Prog.bind_eq_ok_iff.mp hrest
    exact hfinish cl u' (modifyCluster_kept hg hdata hx) hrest
  · rw [if_neg hlt] at hrest
    obtain ⟨cl, u', hx, hrest⟩ := Prog.bind_eq_ok_iff.mp hrest
    have hseq : (storeCluster src d >>= fun _ => pure (u.newCluster env) : FatM Buf).run env u
      = .ok cl u' := hx
    obtain ⟨_, w, hstore, hret⟩ := Prog.bind_eq_ok_iff.mp hseq
    cases hret
    have hkept := storeCluster_kept hg hdata hstore
    exact hfinish _ _ hkept hrest

end Fat
