import LLPFilesystem.FatServer
import Mathlib.Algebra.Order.Ring.Nat

/-!
# What the cluster functions do

The disk is a row of clusters, and every function of `fat.c` reaches it
through one of them. Each function of `Fat.FatServer` that touches the disk
has its run here, as an equation: the value it returns and the server it
leaves. The server it leaves is written with `Server.writeCluster`, whose
effect on every cluster is known (`Server.cluster_writeCluster`,
`Server.cluster_writeCluster_of_ne`), so that later arguments never compute
with disk offsets.

The equations hold in every environment. What a reliable one adds is that
the bytes moved are all the bytes asked for.
-/

namespace Fat

/-! ## The geometry of a disk -/

/-- **The layout the server relies on**: 32-bit FAT entries that fill whole
clusters of bytes, a superblock that fits its cluster, a root directory right
behind a FAT with an entry for every cluster from there on, and a disk whose
offsets fit an `int`. -/
structure Superblock.Geometry (sb : Superblock) : Prop where
  fatType : sb.fatType = 32
  page : superblockSize ≤ sb.bytePerCluster
  aligned : 4 ∣ sb.bytePerCluster
  root : sb.rootClusterStart = 1 + sb.clusterPerFat
  room : sb.rootClusterStart < sb.clusterCount
  table : 4 * (sb.clusterCount - (1 + sb.clusterPerFat))
    ≤ sb.bytePerCluster * sb.clusterPerFat
  capacity : sb.clusterCount * sb.bytePerCluster < 2 ^ 31

namespace Superblock.Geometry

variable {sb : Superblock} {c i : ℕ}

theorem page_pos (hg : sb.Geometry) : 0 < sb.bytePerCluster :=
  Nat.lt_of_lt_of_le (by decide) hg.page

/-- A position inside a cluster of the disk is a position on the disk. -/
theorem offset_lt (hg : sb.Geometry) (hc : c < sb.clusterCount)
    (hi : i ≤ sb.bytePerCluster) : c * sb.bytePerCluster + i < 2 ^ 31 :=
  calc c * sb.bytePerCluster + i
      ≤ (c + 1) * sb.bytePerCluster := by
        rw [Nat.add_mul, Nat.one_mul]
        exact Nat.add_le_add_left hi _
    _ ≤ sb.clusterCount * sb.bytePerCluster := Nat.mul_le_mul_right _ hc
    _ < 2 ^ 31 := hg.capacity

theorem clusterCount_lt (hg : sb.Geometry) : sb.clusterCount < 2 ^ 31 :=
  Nat.lt_of_le_of_lt (Nat.le_mul_of_pos_right _ hg.page_pos) hg.capacity

theorem bytePerCluster_lt (hg : sb.Geometry) : sb.bytePerCluster < 2 ^ 31 :=
  Nat.lt_of_le_of_lt
    (Nat.le_mul_of_pos_left _ (Nat.lt_of_le_of_lt (Nat.zero_le _) hg.room))
    hg.capacity

/-- The FAT lies on the disk. -/
theorem fatSize_lt (hg : sb.Geometry) :
    sb.bytePerCluster * sb.clusterPerFat < 2 ^ 31 := by
  have hr := hg.room
  rw [hg.root] at hr
  calc sb.bytePerCluster * sb.clusterPerFat
      = sb.clusterPerFat * sb.bytePerCluster := Nat.mul_comm _ _
    _ ≤ sb.clusterCount * sb.bytePerCluster :=
        Nat.mul_le_mul_right _ (by omega)
    _ < 2 ^ 31 := hg.capacity

end Superblock.Geometry

/-- **A data cluster**: one the FAT has an entry for. -/
def Superblock.IsData (sb : Superblock) (c : ℕ) : Prop :=
  1 + sb.clusterPerFat ≤ c ∧ c < sb.clusterCount

instance (sb : Superblock) : DecidablePred sb.IsData :=
  fun _ => inferInstanceAs (Decidable (_ ∧ _))

/-- `END_OF_CHAIN` is no data cluster. -/
theorem Superblock.IsData.ne_end {sb : Superblock} {c : ℕ} (h : sb.IsData c) :
    c ≠ endOfChain := by
  have h1 := h.1
  unfold endOfChain
  omega

/-! ## The disk as clusters -/

variable {env : Env} {s : Server} {buf : Buf} {c c' i size offset : ℕ}

theorem Transfer.moved_le (t : Transfer) (size : ℕ) : t.moved size ≤ size := by
  cases t with
  | full => exact Nat.le_refl _
  | short n => exact Nat.min_le_right _ _
  | failed => exact Nat.zero_le _

namespace Server

/-- The bytes of a cluster on disk. -/
def cluster (s : Server) (c : ℕ) : Buf :=
  s.fatDisk.shift (c * s.superblock.bytePerCluster)

/-- A cluster in a freshly allocated buffer, with the heap behind it. -/
def clusterBuf (s : Server) (env : Env) (c : ℕ) : Buf := fun i =>
  if i < s.superblock.bytePerCluster then s.cluster c i
  else env.heap (i - s.superblock.bytePerCluster)

/-- The server after a cluster has been written. -/
def writeCluster (s : Server) (env : Env) (buf : Buf) (c : ℕ) : Server :=
  s.pwritten env buf s.superblock.bytePerCluster
    (c * s.superblock.bytePerCluster)

/-- What `write_cluster_to_disk` returns on this server. -/
def writeStatus (s : Server) (env : Env) : ℤ :=
  if (env.pwrite s.pwrites.length).result s.superblock.bytePerCluster
    < s.superblock.bytePerCluster then -1 else 0

theorem clusterBuf_of_lt (h : i < s.superblock.bytePerCluster) :
    s.clusterBuf env c i = s.cluster c i := if_pos h

@[simp] theorem superblock_pwritten :
    (s.pwritten env buf size offset).superblock = s.superblock := rfl

@[simp] theorem fatTable_pwritten :
    (s.pwritten env buf size offset).fatTable = s.fatTable := rfl

@[simp] theorem superblock_writeCluster :
    (s.writeCluster env buf c).superblock = s.superblock := rfl

@[simp] theorem fatTable_writeCluster :
    (s.writeCluster env buf c).fatTable = s.fatTable := rfl

@[simp] theorem cluster_preads (k : ℕ) :
    ({ s with preads := k } : Server).cluster c = s.cluster c := rfl

@[simp] theorem clusterBuf_preads (k : ℕ) :
    ({ s with preads := k } : Server).clusterBuf env c = s.clusterBuf env c := rfl

theorem writeStatus_of_writesFull (hw : env.WritesFull) : s.writeStatus env = 0 := by
  rw [writeStatus, hw]
  exact if_neg (Int.lt_irrefl _)

/-- A cluster that was written holds the buffer. -/
theorem cluster_writeCluster (hw : env.WritesFull)
    (hi : i < s.superblock.bytePerCluster) :
    (s.writeCluster env buf c).cluster c i = buf i := by
  show Buf.blit _ _ _ _ _ = _
  rw [hw]
  exact Buf.blit_add hi

/-- The other clusters hold what they held. -/
theorem cluster_writeCluster_of_ne (hc : c' ≠ c)
    (hi : i < s.superblock.bytePerCluster) :
    (s.writeCluster env buf c).cluster c' i = s.cluster c' i := by
  have hm := (env.pwrite s.pwrites.length).moved_le s.superblock.bytePerCluster
  show Buf.blit _ _ _ _ (c' * s.superblock.bytePerCluster + i) = _
  rcases Nat.lt_or_gt_of_ne hc with h | h
  · refine Buf.blit_of_lt ?_
    have hle : (c' + 1) * s.superblock.bytePerCluster
        ≤ c * s.superblock.bytePerCluster := Nat.mul_le_mul_right _ h
    rw [Nat.add_mul, Nat.one_mul] at hle
    omega
  · refine Buf.blit_of_le ?_
    have hle : (c + 1) * s.superblock.bytePerCluster
        ≤ c' * s.superblock.bytePerCluster := Nat.mul_le_mul_right _ h
    rw [Nat.add_mul, Nat.one_mul] at hle
    omega

end Server

/-! ## The runs -/

theorem getDiskOffset_run (hg : s.superblock.Geometry)
    (hc : c < s.superblock.clusterCount) :
    (getDiskOffset c).run env s = .ok (c * s.superblock.bytePerCluster) s := by
  have hoff := hg.offset_lt hc (Nat.zero_le _)
  rw [getDiskOffset, Prog.bind_ok _ (Prog.run_get env s),
    Prog.bind_ok _ (check_run hc env s), Prog.run_pure,
    u32_of_lt (by omega)]

/-- **Writing a cluster.** -/
theorem writeClusterToDisk_run (hg : s.superblock.Geometry)
    (hc : c < s.superblock.clusterCount) :
    (writeClusterToDisk buf c).run env s
      = .ok (s.writeStatus env) (s.writeCluster env buf c) := by
  rw [writeClusterToDisk, Prog.bind_ok _ (Prog.run_get env s),
    Prog.bind_ok _ (check_run hc env s),
    Prog.bind_ok _ (getDiskOffset_run hg hc)]
  rfl

theorem readClusterFromDisk_run (hg : s.superblock.Geometry)
    (hc : c < s.superblock.clusterCount)
    (hs : offset + size ≤ s.superblock.bytePerCluster) :
    (readClusterFromDisk buf c offset size).run env s
      = .ok (if u32OfInt ((env.pread s.preads).result size) < size then -1 else 0,
          buf.blit 0 ((s.cluster c).shift offset)
            ((env.pread s.preads).moved size))
        { s with preads := s.preads + 1 } := by
  have hb := hg.bytePerCluster_lt
  have ho : offset ≤ s.superblock.bytePerCluster := by omega
  have hoff := hg.offset_lt hc ho
  rw [readClusterFromDisk, Prog.bind_ok _ (Prog.run_get env s),
    Prog.bind_ok _ (check_run ⟨hc, by rw [u32_of_lt (by omega)]; exact hs⟩ env s),
    Prog.bind_ok _ (getDiskOffset_run hg hc), u32_of_lt (by omega)]
  have hsh : s.fatDisk.shift (c * s.superblock.bytePerCluster + offset)
      = (s.cluster c).shift offset :=
    funext fun i => congrArg s.fatDisk (Nat.add_assoc _ _ _)
  rw [← hsh]
  rfl

/-- In an environment that reads all it asks for, the buffer receives the
whole piece. -/
theorem readClusterFromDisk_full (hr : env.ReadsFull)
    (hg : s.superblock.Geometry) (hc : c < s.superblock.clusterCount)
    (hs : offset + size ≤ s.superblock.bytePerCluster) :
    (readClusterFromDisk buf c offset size).run env s
      = .ok (0, buf.blit 0 ((s.cluster c).shift offset) size)
        { s with preads := s.preads + 1 } := by
  have hb := hg.bytePerCluster_lt
  have hu : ¬ u32OfInt ((size : ℕ) : ℤ) < size := by
    unfold u32OfInt
    omega
  rw [readClusterFromDisk_run hg hc hs, hr]
  show Outcome.ok (if u32OfInt ((size : ℕ) : ℤ) < size then _ else _, _) _ = _
  rw [if_neg hu]
  rfl

/-- Reading a whole cluster. -/
theorem readEntireClusterFromDisk_full (hr : env.ReadsFull)
    (hg : s.superblock.Geometry) (hc : c < s.superblock.clusterCount) :
    (readEntireClusterFromDisk buf c).run env s
      = .ok (0, buf.blit 0 (s.cluster c) s.superblock.bytePerCluster)
        { s with preads := s.preads + 1 } := by
  rw [readEntireClusterFromDisk, Prog.bind_ok _ (Prog.run_get env s),
    readClusterFromDisk_full hr hg hc (Nat.le_of_eq (Nat.zero_add _)),
    Buf.shift_zero]

end Fat
