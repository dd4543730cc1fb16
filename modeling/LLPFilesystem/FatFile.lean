import LLPFilesystem.FatDir

/-!
# Files

The contents of a file lie in its chain of clusters, its size and its first
cluster in its directory entry. `update_file` writes: it first makes the
chain long enough, then brings the size up to date, then writes the data in
three phases – the first cluster, the whole clusters after it, the rest.
`fat_read`, `fat_write` and `fat_truncate` are the operations on top.

The interface is 64-bit – `size_t` sizes, `off_t` offsets – and the
computation is not: every cast to `unsigned int` is written out, and so are
the sums that can wrap.
-/

namespace Fat

/-- `ENOMEM`. -/
def enomem : ℤ := 12

/-! ## Writing -/

/-- Allocate clusters until a chain of `numClusterAllocated` has
`finalClusterToWrite`. False if the free list cannot serve the request. -/
def growFile (firstFileCluster numClusterAllocated finalClusterToWrite : ℕ) :
    FatM Bool := do
  if numClusterAllocated < finalClusterToWrite then do
    let firstFreedCluster ←
      popFreeClusters (finalClusterToWrite - numClusterAllocated)
    if firstFreedCluster = endOfChain then return false
    else do
      let lastCluster ← getLastClusterInChain firstFileCluster
      let _ ← updateFatEntry lastCluster firstFreedCluster true
      return true
  else return true

/-- The last byte that a write touches, in `unsigned int`. -/
def finalByteToWrite (size offset : ℕ) : ℕ :=
  sub32 (u32 (u32 offset + u32 size)) 1

/-- Update the size of the entry if the write goes past it. -/
def updateSize (parentCluster : ℕ) (dirEntry : FatDirEntry) (newSize : ℕ) :
    FatM Unit := do
  let env ← read
  let s ← get
  if dirEntry.size.toNat < newSize then do
    let result ← updateDirEntry parentCluster
      { dirEntry with
        size := UInt32.ofNat newSize
        time := UInt64.ofNat (env.time s.pwrites.length) } false
    check (result ≠ -1)
  else return ()

/-- `assert(write_cluster_to_disk(buf, c) != -1)`. -/
def storeCluster (buf : Buf) (clusterNum : ℕ) : FatM Unit := do
  let result ← writeClusterToDisk buf clusterNum
  check (result ≠ -1)

/-- Read a cluster, put `n` bytes of `src` at `offset`, and write it back. -/
def modifyCluster (cluster : Buf) (clusterNum offset : ℕ) (src : Buf) (n : ℕ) :
    FatM Buf := do
  let (result, cluster) ← readEntireClusterFromDisk cluster clusterNum
  check (result ≠ -1)
  let cluster := cluster.blit offset src n
  storeCluster cluster clusterNum
  return cluster

/-- The loop over the clusters that are written whole: `count` of them,
behind `curCluster`. It leaves the last one. -/
def writeWhole (buf : Buf) (bytePerCluster : ℕ) : ℕ → ℕ → ℕ → FatM ℕ
  | 0, curCluster, _ => return curCluster
  | count + 1, curCluster, bufOffset => do
    let curCluster ← readFatEntry curCluster
    storeCluster (buf.shift bufOffset) curCluster
    writeWhole buf bytePerCluster count curCluster (bufOffset + bytePerCluster)

/-- The part of `update_file` after the first cluster: whole clusters, then
the remaining bytes. -/
def writeRest (cluster buf : Buf) (curCluster bufOffset remainingBytes : ℕ) :
    FatM Unit := do
  let s ← get
  let bytePerCluster := s.superblock.bytePerCluster
  let numWhole := remainingBytes / bytePerCluster
  let curCluster ← writeWhole buf bytePerCluster numWhole curCluster bufOffset
  if remainingBytes % bytePerCluster = 0 then return ()
  else do
    let curCluster ← readFatEntry curCluster
    let _ ← modifyCluster cluster curCluster 0
      (buf.shift (bufOffset + numWhole * bytePerCluster))
      (remainingBytes % bytePerCluster)
    return ()

/-- The data phases of `update_file`. -/
def writeData (firstFileCluster : ℕ) (buf : Buf) (size offset : ℕ) :
    FatM Unit := do
  let s ← get
  let bytePerCluster := s.superblock.bytePerCluster
  let curCluster ← skipClusters (u32 offset / bytePerCluster) firstFileCluster
  let withinClusterOffset := u32 offset % bytePerCluster
  let numByteToWrite := min (u32 size) (bytePerCluster - withinClusterOffset)
  let cluster ← getNewCluster
  let cluster ←
    if numByteToWrite < bytePerCluster then
      modifyCluster cluster curCluster withinClusterOffset buf numByteToWrite
    else storeCluster buf curCluster *> pure cluster
  if u32 size - numByteToWrite = 0 then return ()
  else writeRest cluster buf curCluster numByteToWrite (u32 size - numByteToWrite)

/-- Write to a file. If file size is changed, update the directory entry of
the file in the parent cluster. -/
def updateFile (parentCluster : ℕ) (dirEntry : FatDirEntry) (buf : Buf)
    (size offset : ℕ) : FatM ℤ := do
  check (dirEntry.type = dirEntryTypeFile)
  let s ← get
  let firstFileCluster := dirEntry.firstCluster.toNat
  let numClusterAllocated ← countClusterInChain firstFileCluster
  let finalByte := finalByteToWrite size offset
  let granted ← growFile firstFileCluster numClusterAllocated
    (finalByte / s.superblock.bytePerCluster + 1)
  if granted then do
    updateSize parentCluster dirEntry (u32 (finalByte + 1))
    writeData firstFileCluster buf size offset
    return i32 size
  else return -enomem

/-! ## The operations on files -/

/-- The parent directory of a path and the entry of its last name there, as
the operations that change a file look them up. -/
def lookupTarget (path : List UInt8) : FatM (ℕ × FatDirEntry) := do
  let parentPath ← getParentPath path
  let targetName ← getTargetName path
  let parentCluster ← findFirstClusterByPath parentPath
  match ← findDirEntryByName parentCluster targetName with
  | none => Prog.fail .assertion
  | some dirEntry => return (parentCluster, dirEntry)

def fatWrite (path : List UInt8) (buf : Buf) (size offset : ℕ) : FatM ℤ := do
  let (parentCluster, dirEntry) ← lookupTarget path
  updateFile parentCluster dirEntry buf size offset

/-- The reading loop of `fat_read`. -/
def readLoop (bytePerCluster : ℕ) : ℕ → ℕ → ℕ → ℕ → ℕ → Buf → FatM Buf
  | 0, _, _, _, _, _ => Prog.fail .endless
  | fuel + 1, curCluster, remainingBytes, bufOffset, withinClusterOffset, buf =>
    if remainingBytes = 0 then return buf
    else do
      let numByteToRead := min remainingBytes (bytePerCluster - withinClusterOffset)
      let (result, chunk) ←
        readClusterFromDisk (buf.shift bufOffset) curCluster 0 numByteToRead
      check (result ≠ -1)
      let curCluster ← readFatEntry curCluster
      readLoop bytePerCluster fuel curCluster (remainingBytes - numByteToRead)
        (bufOffset + numByteToRead) 0 (buf.blit bufOffset chunk numByteToRead)

/-- The part of `fat_read` after the entry has been found. -/
def readFile (dirEntry : FatDirEntry) (buf : Buf) (size offset : ℕ) :
    FatM (ℤ × Buf) := do
  if dirEntry.size.toNat ≤ offset ∨ size = 0 then return (0, buf)
  else do
    let s ← get
    let bytePerCluster := s.superblock.bytePerCluster
    let size := min (sub32 dirEntry.size.toNat (u32 offset)) (u32 size)
    let curCluster ← skipClusters (u32 offset / bytePerCluster)
      dirEntry.firstCluster.toNat
    let buf ← readLoop bytePerCluster (size + 1) curCluster size 0
      (u32 offset % bytePerCluster) buf
    return (i32 size, buf)

def fatRead (path : List UInt8) (buf : Buf) (size offset : ℕ) :
    FatM (ℤ × Buf) := do
  check (0 < strcmp path [slash])
  match ← findDirEntryByPath path with
  | none => Prog.fail .assertion
  | some dirEntry => readFile dirEntry buf size offset

/-- End the chain at a cluster and put the clusters behind it in front of the
free list. -/
def cutChain (newLastCluster : ℕ) : FatM Unit := do
  let afterNewLastCluster ← readFatEntry newLastCluster
  let _ ← updateFatEntry newLastCluster endOfChain true
  if afterNewLastCluster = endOfChain then return ()
  else do
    let s ← get
    let previousLastCluster ← followChain s.chainFuel afterNewLastCluster
    let result ← pushFreeList afterNewLastCluster previousLastCluster
    check (result ≠ -1)

/-- The extending part of `fat_truncate`. -/
def extendFile (parentCluster : ℕ) (dirEntry : FatDirEntry) (size : ℕ) :
    FatM ℤ := do
  let numZeros := sub32 (u32 size) dirEntry.size.toNat
  let result ← updateFile parentCluster dirEntry (fun _ => 0) numZeros
    dirEntry.size.toNat
  return if result = i32 numZeros then 0 else -1

/-- The shrinking part of `fat_truncate`. -/
def shrinkFile (parentCluster : ℕ) (dirEntry : FatDirEntry) (size : ℕ) :
    FatM ℤ := do
  let s ← get
  let newLastCluster ← skipClusters (u32 size / s.superblock.bytePerCluster)
    dirEntry.firstCluster.toNat
  cutChain newLastCluster
  let result ← updateDirEntry parentCluster
    { dirEntry with size := UInt32.ofNat (u32 size) } false
  check (result ≠ -1)
  return 0

/-- The part of `fat_truncate` after the entry has been found. -/
def truncateFile (parentCluster : ℕ) (dirEntry : FatDirEntry) (size : ℕ) :
    FatM ℤ :=
  if size = dirEntry.size.toNat then return 0
  else if dirEntry.size.toNat < size then extendFile parentCluster dirEntry size
  else shrinkFile parentCluster dirEntry size

def fatTruncate (path : List UInt8) (size : ℕ) : FatM ℤ := do
  let (parentCluster, dirEntry) ← lookupTarget path
  truncateFile parentCluster dirEntry size

end Fat
