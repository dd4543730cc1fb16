import LLPFilesystem.FatOps
import LLPFilesystem.FatOwnership

/-!
# Formatting

`init_superblock(true)` writes the superblock of a fresh disk and
`init_fat(true)` builds its FAT in memory, entry by entry, before writing it
in one piece. What they leave is `Server.formatted`. Its table stores the
pool with which every run starts: the root directory owns one cluster, and
every cluster behind it is free (`Server.owns_formatted`).
-/

namespace Fat

variable {env : Env} {s t : Server} {c d i v count : ℕ}

namespace Server

/-- The server after the entries of `count` clusters from `i` on have been
set to the cluster behind each. -/
def linkedFree : ℕ → ℕ → Server → Server
  | 0, _, s => s
  | count + 1, i, s => linkedFree count (i + 1) (s.setFat i (i + 1))

/-- The server with the FAT of a fresh disk in memory. -/
def freshFat (s : Server) : Server :=
  linkedFree (s.superblock.clusterCount - 1 - s.superblock.freeClusterStart)
    s.superblock.freeClusterStart
    ((({ s with fatTable := fun _ => 0 } : Server).setFat
      s.superblock.rootClusterStart 0).setFat (s.superblock.clusterCount - 1) 0)

/-- The server after the superblock of a fresh disk has been written. -/
def freshSuperblock (s : Server) (env : Env) : Server :=
  ({ s with superblock := .fresh s.superblock.pad } : Server).writeSuperblock env

/-- The server after its FAT has been written in one piece. -/
def writeFat (s : Server) (env : Env) : Server :=
  s.pwritten env s.fatTable s.fatSize s.superblock.bytePerCluster

/-- **The server after formatting.** -/
def formatted (s : Server) (env : Env) : Server :=
  (s.freshSuperblock env).freshFat.writeFat env

@[simp] theorem superblock_linkedFree :
    (linkedFree count i s).superblock = s.superblock := by
  induction count generalizing i s with
  | zero => rfl
  | succ count ih => exact ih

/-- Linking the free clusters leaves the other entries alone. -/
theorem next_linkedFree_of_lt
    (hi : ∀ j, i ≤ j → j < i + count → s.superblock.IsData j)
    (hd : s.superblock.IsData d) (h : d < i ∨ i + count ≤ d) :
    (linkedFree count i s).next d = s.next d := by
  induction count generalizing i s with
  | zero => rfl
  | succ count ih =>
    have hs := ih (s := s.setFat i (i + 1)) (i := i + 1)
      (fun j hj hj' => hi j (by omega) (by omega)) hd (by omega)
    exact hs.trans (next_setFat_of_ne (hi i (Nat.le_refl i) (by omega)) hd (by omega))

/-- A free cluster that was linked names the one behind it. -/
theorem next_linkedFree (hg : s.superblock.Geometry)
    (hi : ∀ j, i ≤ j → j < i + count → s.superblock.IsData j)
    (h : i ≤ d) (h' : d < i + count) :
    (linkedFree count i s).next d = d + 1 := by
  have hd : s.superblock.IsData d := hi d h h'
  have hn := hg.clusterCount_lt
  have hdc := hd.2
  induction count generalizing i s with
  | zero => omega
  | succ count ih =>
    have hi' : ∀ j, i + 1 ≤ j → j < i + 1 + count → s.superblock.IsData j :=
      fun j hj hj' => hi j (by omega) (by omega)
    rcases Nat.eq_or_lt_of_le h with rfl | hlt
    · exact (next_linkedFree_of_lt (s := s.setFat i (i + 1)) hi' hd
        (Or.inl (Nat.lt_succ_self i))).trans (next_setFat_self (by omega))
    · exact ih (s := s.setFat i (i + 1)) hg hi' hlt (by omega) hd hn hdc

@[simp] theorem pwrites_linkedFree :
    (linkedFree count i s).pwrites = s.pwrites := by
  induction count generalizing i s with
  | zero => rfl
  | succ count ih => exact ih

@[simp] theorem fatDisk_linkedFree :
    (linkedFree count i s).fatDisk = s.fatDisk := by
  induction count generalizing i s with
  | zero => rfl
  | succ count ih => exact ih

@[simp] theorem superblock_freshFat : s.freshFat.superblock = s.superblock := by
  rw [freshFat, superblock_linkedFree]
  rfl

@[simp] theorem superblock_writeFat :
    (s.writeFat env).superblock = s.superblock := rfl

@[simp] theorem next_writeFat (d : ℕ) : (s.writeFat env).next d = s.next d := rfl

@[simp] theorem superblock_formatted :
    (s.formatted env).superblock = .fresh s.superblock.pad := by
  rw [formatted, superblock_writeFat, superblock_freshFat]
  rfl

end Server

/-- **The layout of a fresh disk** is one the server relies on. -/
theorem Superblock.fresh_geometry (pad : Fin 488 → UInt8) :
    (Superblock.fresh pad).Geometry where
  fatType := rfl
  page := show 512 ≤ 4096 by decide
  aligned := show 4 ∣ 4096 by decide
  root := rfl
  room := show 4 < 2560 by decide
  table := show 4 * (2560 - (1 + 3)) ≤ 4096 * 3 by decide
  capacity := show 2560 * 4096 < 2 ^ 31 by decide

theorem linkFree_run (env : Env) (count : ℕ) (hg : s.superblock.Geometry)
    (hi : ∀ j, i ≤ j → j < i + count → s.superblock.IsData j) :
    (linkFree count i).run env s = .ok () (Server.linkedFree count i s) := by
  induction count generalizing i s with
  | zero => rfl
  | succ count ih =>
    rw [linkFree, Prog.bind_ok _ (updateFatEntry_memory_run hg
      (hi i (Nat.le_refl i) (by omega)))]
    exact ih (s := s.setFat i (i + 1)) hg
      (fun j hj hj' => hi j (by omega) (by omega))

/-- **Building and writing the FAT** of a disk laid out as a fresh one. -/
theorem initFat_run (env : Env) (hg : s.superblock.Geometry)
    (hfree : s.superblock.freeClusterStart = s.superblock.rootClusterStart + 1) :
    (initFat true).run env s
      = .ok (if (env.pwrite s.pwrites.length).result s.fatSize < s.fatSize then -1
          else 0) (s.freshFat.writeFat env) := by
  have hr := hg.room
  have hdata : ∀ j, s.superblock.rootClusterStart ≤ j →
      j < s.superblock.clusterCount → s.superblock.IsData j :=
    fun j hj hj' => ⟨hg.root ▸ hj, hj'⟩
  have hlink := linkFree_run env
    (s.superblock.clusterCount - 1 - s.superblock.freeClusterStart)
    (s := (({ s with fatTable := fun _ => 0 } : Server).setFat
      s.superblock.rootClusterStart 0).setFat (s.superblock.clusterCount - 1) 0)
    (i := s.superblock.freeClusterStart) hg
    (fun j hj hj' => hdata j (by omega) (by omega))
  have hlen : s.freshFat.pwrites = s.pwrites := Server.pwrites_linkedFree
  have hsize : s.freshFat.fatSize = s.fatSize := by
    unfold Server.fatSize
    rw [Server.superblock_freshFat]
  rw [initFat, Prog.bind_ok _ (Prog.run_get env s)]
  dsimp only
  rw [Prog.bind_ok _ (Prog.run_modify _ env s), if_pos rfl,
    Prog.bind_ok _ (updateFatEntry_memory_run
      (s := { s with fatTable := fun _ => 0 }) hg (hdata _ (Nat.le_refl _) hr)),
    Prog.bind_ok _ (updateFatEntry_memory_run
      (s := ({ s with fatTable := fun _ => 0 } : Server).setFat _ 0) hg
      (hdata _ (by omega) (by omega))),
    Prog.bind_ok _ hlink, Prog.bind_ok _ (Prog.run_get env _)]
  show ((pwrite s.freshFat.fatTable s.fatSize s.superblock.bytePerCluster) >>=
    fun result => pure (if result < (s.fatSize : ℤ) then -1 else 0)).run env
      s.freshFat = _
  rw [Server.writeFat, hsize, Server.superblock_freshFat, ← hlen]
  rfl

theorem initSuperblock_run :
    (initSuperblock true).run env s
      = .ok (({ s with superblock := .fresh s.superblock.pad } : Server).writeStatus
          env) (s.freshSuperblock env) := by
  rw [initSuperblock, Prog.bind_ok _ (Prog.run_get env s), if_pos rfl,
    Prog.bind_ok _ (Prog.run_modify _ env s)]
  exact writeSuperblockToDisk_run
    (s := { s with superblock := .fresh s.superblock.pad })
    (Superblock.fresh_geometry _)

/-- **Formatting, when its writes succeed.** -/
theorem formatDisk_run (hw : env.WritesFull) :
    formatDisk.run env s = .ok () (s.formatted env) := by
  have hst : ({ s with superblock := .fresh s.superblock.pad } : Server).writeStatus
      env = 0 := Server.writeStatus_of_writesFull hw
  have hfat := initFat_run (s := s.freshSuperblock env) env
    (Superblock.fresh_geometry _) rfl
  rw [hw] at hfat
  have hfull : (if Transfer.full.result (s.freshSuperblock env).fatSize
      < ((s.freshSuperblock env).fatSize : ℤ) then (-1 : ℤ) else 0) = 0 :=
    if_neg (Int.lt_irrefl _)
  rw [hfull] at hfat
  rw [formatDisk, Prog.bind_ok _ initSuperblock_run, hst,
    Prog.bind_ok _ (check_run (by decide) env _), Prog.bind_ok _ hfat]
  exact check_run (by decide) env _

/-- Formatting that returns at all leaves the same server in memory. -/
theorem formatDisk_ok (h : formatDisk.run env s = .ok () t) :
    t = s.formatted env := by
  rw [formatDisk, Prog.bind_ok _ initSuperblock_run] at h
  obtain ⟨_, s₁, h1, h⟩ := Prog.bind_eq_ok_iff.mp h
  obtain rfl : s₁ = s.freshSuperblock env :=
    (congrArg Outcome.state h1).symm.trans check_state
  rw [Prog.bind_ok _ (initFat_run (s := s.freshSuperblock env) env
    (Superblock.fresh_geometry _) rfl)] at h
  exact (congrArg Outcome.state h).symm.trans check_state

namespace Server

/-- The pool of a fresh disk: the root directory owns its first cluster, the
clusters behind it are free. -/
def freshPool : Pool ℕ := ⟨List.range' 5 (2554 + 1), {[4]}⟩

theorem cells_freshPool : freshPool.cells = (List.range' 4 2556 : Multiset ℕ) := by
  show (Pool.mk _ ([4] ::ₘ 0)).cells = _
  rw [Pool.cells_cons, show (2556 : ℕ) = 2554 + 1 + 1 from rfl, List.range'_succ (s := 4)]
  show (([4] : List ℕ) : Multiset ℕ) + ((List.range' 5 (2554 + 1) : Multiset ℕ) + 0) = _
  rw [add_zero, Multiset.coe_add, List.singleton_append]

/-- A server before anything has been written. -/
def blank : Server where
  superblock := .fresh fun _ => 0
  fatTable := fun _ => 0
  fatDisk := fun _ => 0
  preads := 0
  pwrites := []

/-- A data cluster of a fresh disk. -/
theorem isData_formatted : (s.formatted env).superblock.IsData c ↔ 4 ≤ c ∧ c < 2560 := by
  rw [superblock_formatted]
  exact Iff.rfl

/-- The entries of a fresh FAT: the root directory and the last cluster end
their chains, every other cluster names the one behind it. -/
theorem next_formatted (hc : 4 ≤ c) (hc' : c < 2560) :
    (s.formatted env).next c = if c = 4 ∨ c = 2559 then endOfChain else c + 1 := by
  set s₀ : Server := { s.freshSuperblock env with fatTable := fun _ => 0 } with hs₀
  have hg : s₀.superblock.Geometry := Superblock.fresh_geometry _
  have hdata : ∀ j, 4 ≤ j → j < 2560 → s₀.superblock.IsData j := fun _ h h' => ⟨h, h'⟩
  have hi : ∀ j, 5 ≤ j → j < 5 + 2554 → s₀.superblock.IsData j :=
    fun j hj hj' => hdata j (by omega) (by omega)
  have hfree : (s.formatted env).next c
      = (linkedFree 2554 5 ((s₀.setFat 4 0).setFat 2559 0)).next c := by
    rw [formatted, next_writeFat]
    rfl
  rw [hfree]
  split
  · next h =>
    rw [next_linkedFree_of_lt (s := (s₀.setFat 4 0).setFat 2559 0) hi
      (hdata c hc hc') (by omega)]
    rcases h with rfl | rfl
    · rw [next_setFat_of_ne (s := s₀.setFat 4 0) (hdata 2559 (by omega) (by omega))
        (hdata 4 (by omega) (by omega)) (by omega)]
      exact next_setFat_self (by norm_num)
    · exact next_setFat_self (by norm_num)
  · next h =>
    exact next_linkedFree (s := (s₀.setFat 4 0).setFat 2559 0) hg hi
      (by omega) (by omega)

@[simp] theorem fatDisk_freshFat : s.freshFat.fatDisk = s.fatDisk := by
  rw [freshFat, fatDisk_linkedFree]
  rfl

/-- Writing the FAT in one piece touches no data cluster. -/
theorem cluster_writeFat (hc : 1 + s.superblock.clusterPerFat ≤ c) :
    (s.writeFat env).cluster c i = s.cluster c i := by
  have hm := (env.pwrite s.pwrites.length).moved_le s.fatSize
  have hle : (1 + s.superblock.clusterPerFat) * s.superblock.bytePerCluster
      ≤ c * s.superblock.bytePerCluster := Nat.mul_le_mul_right _ hc
  rw [Nat.add_mul, Nat.one_mul, Nat.mul_comm s.superblock.clusterPerFat] at hle
  show Buf.blit _ _ _ _ (c * s.superblock.bytePerCluster + i) = _
  refine Buf.blit_of_le ?_
  unfold fatSize at hm ⊢
  omega

/-- **Formatting touches no data cluster.** -/
theorem cluster_formatted (hc : 4 ≤ c) (hi : i < 4096) :
    (s.formatted env).cluster c i = s.fatDisk (c * 4096 + i) := by
  set s₀ : Server := { s with superblock := .fresh s.superblock.pad } with hs₀
  have hg : s₀.superblock.Geometry := Superblock.fresh_geometry _
  set s₁ := s.freshSuperblock env with hs₁
  have hsb : s₁.freshFat.superblock = s₁.superblock := superblock_freshFat
  have hfat : s₁.freshFat.cluster c i = s₁.cluster c i := by
    unfold cluster
    rw [hsb, fatDisk_freshFat]
  rw [formatted, cluster_writeFat (by rw [hsb]; exact hc), hfat]
  exact cluster_writeCluster_of_ne (s := s₀) (by omega) hi

/-- **A fresh disk stores the fresh pool.** -/
theorem owns_formatted (s : Server) (env : Env) :
    (s.formatted env).Owns freshPool where
  geometry := by
    rw [superblock_formatted]
    exact Superblock.fresh_geometry _
  free := by
    rw [superblock_formatted]
    show Linked _ _ 5 (List.range' 5 (2554 + 1))
    refine Linked.range' (fun d hd hd' => ?_) ?_ (fun d hd _ => ?_)
    · have hlt : d < 2559 := hd'
      rw [next_formatted (by omega) (by omega), if_neg (by omega)]
    · rw [next_formatted (by decide) (by decide), if_pos (Or.inr rfl)]
    · unfold endOfChain
      omega
  owners := fun o ho => by
    obtain rfl : o = [4] := Multiset.mem_singleton.mp ho
    refine ⟨by simp, rfl, by decide, ?_⟩
    rw [next_formatted (by decide) (by decide)]
    rfl
  nodup := by
    rw [cells_freshPool]
    exact Multiset.coe_nodup.mpr List.nodup_range'
  data := fun c hc => by
    rw [cells_freshPool, Multiset.mem_coe, List.mem_range'_1] at hc
    exact isData_formatted.mpr ⟨hc.1, by omega⟩

end Server

-- from here on the formatted server is known by its lemmas: nothing unfolds
-- the table of a whole disk
attribute [irreducible] Server.formatted

end Fat
