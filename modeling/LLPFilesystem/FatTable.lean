import LLPFilesystem.FatDisk

/-!
# The FAT and its allocator

The FAT is an array of 32-bit entries, one for every data cluster, kept in
memory and written back one FAT cluster at a time. The free list is a chain
of that table whose head the superblock holds.

Reading the entry of a number that is no cluster – `END_OF_CHAIN` first of
all – computes an offset far outside the table, and the run ends there
(`Fault.outOfBounds`). A walk over a chain that leads back into itself never
ends; its loop is given as many steps as the table has bytes, more than it
has entries, so that running out of them is walking in a circle
(`Fault.endless`).
-/

namespace Fat

/-- The size of the FAT in memory. -/
def Server.fatSize (s : Server) : ℕ :=
  s.superblock.bytePerCluster * s.superblock.clusterPerFat

/-- More steps than a walk over the table can take without a repetition. -/
def Server.chainFuel (s : Server) : ℕ := s.fatSize + 1

/-- The offset in the table of the entry of a cluster. -/
def fatOffset (sb : Superblock) (clusterNum : ℕ) : ℕ :=
  u32 (sub32 (sub32 clusterNum 1) sb.clusterPerFat * (sb.fatType / 8))

/-- Return the value in the FAT table (in-memory) for the given cluster
number. -/
def readFatEntry (clusterNum : ℕ) : FatM ℕ := do
  let s ← get
  let byteToCopy := s.superblock.fatType / 8
  let offset := fatOffset s.superblock clusterNum
  if offset + byteToCopy ≤ s.fatSize then
    return leNat s.fatTable offset byteToCopy
  else Prog.fail .outOfBounds

/-- The loop `while ((next = read_fat_entry(c)) != END_OF_CHAIN) c = next`,
which leaves the last cluster of the chain. -/
def followChain : ℕ → ℕ → FatM ℕ
  | 0, _ => Prog.fail .endless
  | fuel + 1, clusterNum => do
    let nextCluster ← readFatEntry clusterNum
    if nextCluster = endOfChain then return clusterNum
    else followChain fuel nextCluster

/-- The loop `for (i = count; i > 0; i--) c = read_fat_entry(c)`. -/
def skipClusters : ℕ → ℕ → FatM ℕ
  | 0, clusterNum => return clusterNum
  | i + 1, clusterNum => do
    let nextCluster ← readFatEntry clusterNum
    skipClusters i nextCluster

def getLastClusterInChain (startCluster : ℕ) : FatM ℕ := do
  let s ← get
  if startCluster = endOfChain then return endOfChain
  else followChain s.chainFuel startCluster

/-- The recursion of `count_cluster_in_chain`. -/
def countFrom : ℕ → ℕ → FatM ℕ
  | 0, _ => Prog.fail .endless
  | fuel + 1, clusterNum => do
    let s ← get
    check (s.superblock.rootClusterStart ≤ clusterNum ∨ clusterNum = 0)
    if clusterNum = endOfChain then return 0
    else do
      let nextCluster ← readFatEntry clusterNum
      let n ← countFrom fuel nextCluster
      return 1 + n

/-- Return the number of clusters in a chain starting at the given cluster
number. -/
def countClusterInChain (clusterNum : ℕ) : FatM ℕ := do
  let s ← get
  countFrom s.chainFuel clusterNum

/-- Update the value in the FAT table for the given cluster number, and the
FAT cluster on disk that holds the entry if `writeToDisk` is set. -/
def updateFatEntry (clusterNum value : ℕ) (writeToDisk : Bool) : FatM ℤ := do
  let s ← get
  check (1 + s.superblock.clusterPerFat ≤ clusterNum
    ∧ clusterNum < s.superblock.clusterCount)
  let byteToCopy := s.superblock.fatType / 8
  let offset := fatOffset s.superblock clusterNum
  if offset + byteToCopy ≤ s.fatSize then
    modify fun s => { s with
      fatTable := s.fatTable.blit offset (leByte value) byteToCopy }
    if writeToDisk then do
      let s ← get
      let bytePerCluster := s.superblock.bytePerCluster
      let fatClusterNum := offset / bytePerCluster
      writeClusterToDisk (s.fatTable.shift (fatClusterNum * bytePerCluster))
        (fatClusterNum + 1)
    else return 0
  else Prog.fail .outOfBounds

/-- Check if there is an available free cluster. -/
def hasFreeCluster : FatM Bool := do
  let s ← get
  return decide (s.superblock.rootClusterStart < s.superblock.freeClusterStart)

/-- The server with another head of the free list. -/
def Server.setFree (s : Server) (clusterNum : ℕ) : Server :=
  { s with superblock := { s.superblock with freeClusterStart := clusterNum } }

/-- The free list has no part in the geometry. -/
theorem Superblock.Geometry.setFree {s : Server} {clusterNum : ℕ}
    (hg : s.superblock.Geometry) : (s.setFree clusterNum).superblock.Geometry :=
  ⟨hg.fatType, hg.page, hg.aligned, hg.root, hg.room, hg.table, hg.capacity⟩

/-- The loop `while (--length > 0 && last != END_OF_CHAIN)`, with `length`
already decremented once. It leaves `length` and `last_cluster`. -/
def popWalk : ℕ → ℕ → FatM (ℕ × ℕ)
  | 0, lastCluster => return (0, lastCluster)
  | length + 1, lastCluster =>
    if lastCluster = endOfChain then return (length + 1, lastCluster)
    else do
      let nextCluster ← readFatEntry lastCluster
      popWalk length nextCluster

/-- The loop that zeroes the allocated clusters. -/
def zeroClusters (zeros : Buf) : ℕ → ℕ → FatM Unit
  | 0, _ => Prog.fail .endless
  | fuel + 1, curCluster => do
    let _ ← writeClusterToDisk zeros curCluster
    let nextCluster ← readFatEntry curCluster
    if nextCluster = endOfChain then return () else zeroClusters zeros fuel nextCluster

/-- Allocate clusters from the front of the free list, end their chain, and
zero them out. Return the first of them, or `END_OF_CHAIN`. -/
def popFreeClusters (length : ℕ) : FatM ℕ := do
  check (0 < length)
  let s ← get
  let firstCluster := s.superblock.freeClusterStart
  let (length, lastCluster) ← popWalk (length - 1) firstCluster
  if 0 < length then return endOfChain
  else do
    let rest ← readFatEntry lastCluster
    modify fun s => s.setFree rest
    let _ ← writeSuperblockToDisk
    let _ ← updateFatEntry lastCluster endOfChain true
    let zeros ← getNewCluster
    zeroClusters zeros s.chainFuel firstCluster
    return firstCluster

/-- Add a free cluster to the end of the chain starting from the given
cluster. Return the number of the allocated free cluster. -/
def addFreeCluster (clusterNum : ℕ) : FatM ℕ := do
  let freeCluster ← popFreeClusters 1
  let s ← get
  let lastCluster ← followChain s.chainFuel clusterNum
  let _ ← updateFatEntry lastCluster freeCluster true
  return freeCluster

/-- Link a chain that ends at `endClusterNum` in front of the free list. -/
def pushFreeList (startClusterNum endClusterNum : ℕ) : FatM ℤ := do
  let s ← get
  let _ ← updateFatEntry endClusterNum s.superblock.freeClusterStart true
  modify fun s => s.setFree startClusterNum
  writeSuperblockToDisk

/-- Add a chain of clusters starting from the given cluster back to the free
list. -/
def freeClusterChain (startClusterNum : ℕ) : FatM Unit := do
  let s ← get
  let endClusterNum ← followChain s.chainFuel startClusterNum
  let _ ← pushFreeList startClusterNum endClusterNum
  return ()

end Fat
