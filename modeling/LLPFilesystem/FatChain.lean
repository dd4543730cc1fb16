import LLPFilesystem.FatTable
import LLPFilesystem.Linked
import Mathlib.Algebra.Order.Ring.Nat
import Mathlib.Data.Nat.ModEq

/-!
# Chains in the FAT

The table in memory is read as a successor map: `Server.next` gives, for
every data cluster, the cluster its entry names. A chain of the FAT is then
a list linked by that map (`Linked`), the terminator being `END_OF_CHAIN`.

Each function that reads or redirects entries has its run here. The one
write, `update_fat_entry`, changes one successor and no other
(`Server.next_linkFat`), and touches no data cluster of the disk
(`Server.cluster_linkFat`).
-/

namespace Fat

variable {env : Env} {s : Server} {c c' d v i : ℕ} {l : List ℕ}

/-! ## Entries -/

/-- Where the entry of a data cluster is in the table. -/
def Superblock.entryAt (sb : Superblock) (c : ℕ) : ℕ :=
  4 * (c - (1 + sb.clusterPerFat))

/-- **The successor map**: the cluster that the entry of `c` names. -/
def Server.next (s : Server) (c : ℕ) : ℕ :=
  leNat s.fatTable (s.superblock.entryAt c) 4

/-- An entry has four bytes. -/
theorem Superblock.Geometry.entryWidth {sb : Superblock} (hg : sb.Geometry) :
    sb.fatType / 8 = 4 := by rw [hg.fatType]

/-- The entry of a data cluster lies in the table. -/
theorem entryAt_add_le (hg : s.superblock.Geometry) (hc : s.superblock.IsData c) :
    s.superblock.entryAt c + 4 ≤ s.fatSize := by
  have ht := hg.table
  have h1 := hc.1
  have h2 := hc.2
  unfold Superblock.entryAt Server.fatSize
  omega

theorem fatOffset_eq (hg : s.superblock.Geometry) (hc : s.superblock.IsData c) :
    fatOffset s.superblock c = s.superblock.entryAt c := by
  have hn := hg.clusterCount_lt
  have hs := hg.fatSize_lt
  have ht := entryAt_add_le hg hc
  have h1 := hc.1
  have h2 := hc.2
  unfold Server.fatSize at ht
  unfold Superblock.entryAt at ht ⊢
  rw [fatOffset, hg.entryWidth, sub32_of_le (a := c) (by omega) (by omega),
    sub32_of_le (by omega) (by omega), u32_of_lt (by omega)]
  omega

/-- **The entry of no cluster is outside the table**: the offset wraps below
zero. -/
theorem lt_fatOffset_add (hg : s.superblock.Geometry)
    (hc : c < 1 + s.superblock.clusterPerFat) :
    s.fatSize < fatOffset s.superblock c + 4 := by
  have hn := hg.clusterCount_lt
  have hs := hg.fatSize_lt
  have hr := hg.room
  have hp := hg.page
  rw [hg.root] at hr
  have hcap := hg.capacity
  -- four bytes for every FAT cluster are far fewer than the disk has
  have h4 : 4 * (1 + s.superblock.clusterPerFat) ≤ 2 ^ 29 := by
    have hm : 8 * (1 + s.superblock.clusterPerFat) * 2
        ≤ s.superblock.clusterCount * s.superblock.bytePerCluster := by
      calc 8 * (1 + s.superblock.clusterPerFat) * 2
          ≤ s.superblock.clusterCount * 512 := by omega
        _ ≤ _ := Nat.mul_le_mul_left _ hp
    have hm' : 512 * (1 + s.superblock.clusterPerFat)
        ≤ s.superblock.clusterCount * s.superblock.bytePerCluster := by
      calc 512 * (1 + s.superblock.clusterPerFat)
          ≤ s.superblock.clusterCount * 512 := by omega
        _ ≤ _ := Nat.mul_le_mul_left _ hp
    omega
  have hoff : fatOffset s.superblock c
      = 2 ^ 32 - 4 * (1 + s.superblock.clusterPerFat - c) := by
    rw [fatOffset, hg.entryWidth]
    have hsub : sub32 (sub32 c 1) s.superblock.clusterPerFat
        = 2 ^ 32 - (1 + s.superblock.clusterPerFat - c) := by
      unfold sub32
      omega
    rw [hsub, u32]
    omega
  unfold Server.fatSize
  omega

/-- **Reading the entry of a data cluster.** -/
theorem readFatEntry_run (hg : s.superblock.Geometry) (hc : s.superblock.IsData c) :
    (readFatEntry c).run env s = .ok (s.next c) s := by
  rw [readFatEntry, Prog.bind_ok _ (Prog.run_get env s)]
  dsimp only
  rw [fatOffset_eq hg hc, hg.entryWidth, if_pos (entryAt_add_le hg hc)]
  rfl

/-- Reading the entry of a number below the data clusters leaves the table;
`END_OF_CHAIN` is such a number. -/
theorem readFatEntry_stop (hg : s.superblock.Geometry)
    (hc : c < 1 + s.superblock.clusterPerFat) :
    (readFatEntry c).run env s = .stop .outOfBounds s := by
  have hlt := lt_fatOffset_add hg hc
  rw [readFatEntry, Prog.bind_ok _ (Prog.run_get env s)]
  dsimp only
  rw [hg.entryWidth, if_neg (Nat.not_le_of_lt hlt)]
  rfl

/-- Reading an entry changes nothing. -/
theorem readFatEntry_within (env : Env) :
    Prog.Within env (fun s s' => s' = s) (readFatEntry c) := by
  intro s
  rw [readFatEntry, Prog.bind_ok _ (Prog.run_get env s)]
  dsimp only
  split <;> rfl

/-! ## Redirecting an entry -/

namespace Server

/-- The server with one entry of the table in memory redirected. -/
def setFat (s : Server) (c v : ℕ) : Server :=
  { s with fatTable := s.fatTable.blit (s.superblock.entryAt c) (leByte v) 4 }

/-- The cluster of the disk that holds the entry of `c`. -/
def fatClusterOf (s : Server) (c : ℕ) : ℕ :=
  s.superblock.entryAt c / s.superblock.bytePerCluster + 1

/-- The server with one entry redirected, in memory and on disk. -/
def linkFat (s : Server) (env : Env) (c v : ℕ) : Server :=
  (s.setFat c v).writeCluster env
    ((s.setFat c v).fatTable.shift
      (s.superblock.entryAt c / s.superblock.bytePerCluster
        * s.superblock.bytePerCluster))
    (s.fatClusterOf c)

@[simp] theorem superblock_setFat : (s.setFat c v).superblock = s.superblock := rfl

@[simp] theorem superblock_linkFat :
    (s.linkFat env c v).superblock = s.superblock := rfl

@[simp] theorem fatTable_linkFat :
    (s.linkFat env c v).fatTable = (s.setFat c v).fatTable := rfl

@[simp] theorem next_writeCluster {buf : Buf} (d : ℕ) :
    (s.writeCluster env buf c).next d = s.next d := rfl

@[simp] theorem next_preads (k : ℕ) :
    ({ s with preads := k } : Server).next c = s.next c := rfl

@[simp] theorem next_setFree (v : ℕ) : (s.setFree v).next c = s.next c := rfl

@[simp] theorem cluster_setFree (v : ℕ) : (s.setFree v).cluster c = s.cluster c := rfl

@[simp] theorem isData_setFree (v : ℕ) :
    (s.setFree v).superblock.IsData c ↔ s.superblock.IsData c := Iff.rfl

@[simp] theorem freeClusterStart_setFree (v : ℕ) :
    (s.setFree v).superblock.freeClusterStart = v := rfl

/-- The entry that was redirected names the new successor. -/
theorem next_setFat_self (hv : v < 2 ^ 32) : (s.setFat c v).next c = v := by
  show leNat (Buf.blit _ _ _ _) (s.superblock.entryAt c) 4 = v
  rw [leNat_of_leByte (v := v) (fun i hi => Buf.blit_add hi)]
  exact Nat.mod_eq_of_lt hv

/-- **The other entries name what they named.** -/
theorem next_setFat_of_ne (hc : s.superblock.IsData c)
    (hd : s.superblock.IsData d) (h : d ≠ c) :
    (s.setFat c v).next d = s.next d := by
  have h1 := hc.1
  have h2 := hd.1
  refine leNat_congr (fun i hi => ?_)
  show Buf.blit _ _ _ _ (s.superblock.entryAt d + i) = _
  rcases Nat.lt_or_gt_of_ne h with hlt | hlt
  · refine Buf.blit_of_lt ?_
    unfold Superblock.entryAt
    omega
  · refine Buf.blit_of_le ?_
    unfold Superblock.entryAt
    omega

theorem next_linkFat_self (hv : v < 2 ^ 32) : (s.linkFat env c v).next c = v :=
  next_setFat_self hv

theorem next_linkFat_of_ne (hc : s.superblock.IsData c)
    (hd : s.superblock.IsData d) (h : d ≠ c) :
    (s.linkFat env c v).next d = s.next d := next_setFat_of_ne hc hd h

/-- Where the entry of a data cluster is kept on disk. -/
theorem fatClusterOf_le (hg : s.superblock.Geometry) (hc : s.superblock.IsData c) :
    s.fatClusterOf c ≤ s.superblock.clusterPerFat := by
  have he := entryAt_add_le hg hc
  unfold fatSize at he
  refine Nat.div_lt_of_lt_mul ?_
  omega

/-- **Redirecting an entry touches no data cluster.** -/
theorem cluster_linkFat (hg : s.superblock.Geometry) (hc : s.superblock.IsData c)
    (hd : s.superblock.IsData d) (hi : i < s.superblock.bytePerCluster) :
    (s.linkFat env c v).cluster d i = s.cluster d i := by
  have hf := fatClusterOf_le hg hc
  have h1 := hd.1
  exact cluster_writeCluster_of_ne (s := s.setFat c v) (by omega) hi

end Server

/-! ## Another free list

A change moves the head of the free list, and nothing else of the superblock. -/

namespace Server

variable {t : Server} (hsb : ∃ v, t.superblock = (s.setFree v).superblock)
include hsb

theorem bytePerCluster_of_setFree :
    t.superblock.bytePerCluster = s.superblock.bytePerCluster := by
  obtain ⟨v, hv⟩ := hsb
  rw [hv]
  rfl

theorem root_of_setFree : t.superblock.rootClusterStart = s.superblock.rootClusterStart := by
  obtain ⟨v, hv⟩ := hsb
  rw [hv]
  rfl

theorem isData_of_setFree : t.superblock.IsData c ↔ s.superblock.IsData c := by
  obtain ⟨v, hv⟩ := hsb
  rw [hv, isData_setFree]

end Server

/-! ## Updating an entry -/

/-- **Updating the entry of a data cluster**, in memory and on disk. -/
theorem updateFatEntry_run (hg : s.superblock.Geometry)
    (hc : s.superblock.IsData c) :
    (updateFatEntry c v true).run env s
      = .ok (s.writeStatus env) (s.linkFat env c v) := by
  have hf := Server.fatClusterOf_le hg hc
  have h1 := hc.1
  have h2 := hc.2
  rw [updateFatEntry, Prog.bind_ok _ (Prog.run_get env s),
    Prog.bind_ok _ (check_run ⟨hc.1, hc.2⟩ env s)]
  dsimp only
  rw [fatOffset_eq hg hc, hg.entryWidth, if_pos (entryAt_add_le hg hc),
    Prog.bind_ok _ (Prog.run_modify _ env s)]
  rw [if_pos rfl, Prog.bind_ok _ (Prog.run_get env _)]
  exact writeClusterToDisk_run (s := s.setFat c v) hg
    (show s.fatClusterOf c < s.superblock.clusterCount by omega)

/-- Updating the entry of a data cluster in memory alone. -/
theorem updateFatEntry_memory_run (hg : s.superblock.Geometry)
    (hc : s.superblock.IsData c) :
    (updateFatEntry c v false).run env s = .ok 0 (s.setFat c v) := by
  rw [updateFatEntry, Prog.bind_ok _ (Prog.run_get env s),
    Prog.bind_ok _ (check_run ⟨hc.1, hc.2⟩ env s)]
  dsimp only
  rw [fatOffset_eq hg hc, hg.entryWidth, if_pos (entryAt_add_le hg hc),
    Prog.bind_ok _ (Prog.run_modify _ env s)]
  rfl

end Fat
