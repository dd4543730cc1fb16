import LLPFilesystem.FatTable

/-!
# Directories and paths

A directory is a chain of clusters, each cut into slots of
`DIR_ENTRY_SIZE` bytes; a slot whose name starts with a zero is free. Four
functions of `fat.c` scan a directory, cluster by cluster along the chain and
slot by slot within a cluster, and differ in what they look for and in what
they do when they have found it or reached the end of the chain. The scan is
written once (`scanDir`) and each of the four is an instance of it.

`DIR_ENTRY_SIZE` need not divide the cluster size. The loops stop when a slot
*starts* past the end of the cluster, so the last slot may stick out of it:
reading such a slot reads the heap behind the buffer. Storing an entry there
writes over what the allocator keeps behind the buffer, and the program stops
(`putEntryAt`).

Paths and names are strings of bytes without the terminating zero.
-/

namespace Fat

/-- `DIR_ENTRY_MAX_NAME_LEN`. -/
def dirEntryMaxNameLen : ℕ := 21

/-- `DIR_ENTRY_TYPE_FILE`. -/
def dirEntryTypeFile : UInt16 := 0

/-- `DIR_ENTRY_TYPE_SUBDIR`. -/
def dirEntryTypeSubdir : UInt16 := 1

/-- `sizeof(struct fat_dir_entry)`. -/
def dirEntrySize : ℕ := 40

/-- `struct fat_dir_entry`. -/
@[ext] structure FatDirEntry where
  name : Fin 22 → UInt8
  type : UInt16
  size : UInt32
  firstCluster : UInt32
  time : UInt64

/-- An entry read from memory. -/
def FatDirEntry.ofBytes (m : Buf) : FatDirEntry where
  name := fun i => m i
  type := UInt16.ofNat (leNat m 22 2)
  size := UInt32.ofNat (leNat m 24 4)
  firstCluster := UInt32.ofNat (leNat m 28 4)
  time := UInt64.ofNat (leNat m 32 8)

/-- An entry as it lies in memory. -/
def FatDirEntry.bytes (e : FatDirEntry) : Buf := fun i =>
  if h : i < 22 then e.name ⟨i, h⟩
  else if i < 24 then leByte e.type.toNat (i - 22)
  else if i < 28 then leByte e.size.toNat (i - 24)
  else if i < 32 then leByte e.firstCluster.toNat (i - 28)
  else leByte e.time.toNat (i - 32)

/-- The name of an entry, as `strcmp` reads it: up to the first zero, which
the name field of an entry made by this program has. Without one the string
runs on into the fields behind it. -/
def FatDirEntry.nameStr (e : FatDirEntry) : List UInt8 :=
  cString e.bytes dirEntrySize

/-- `name[0] == '\0'`. -/
def FatDirEntry.isFree (e : FatDirEntry) : Bool := e.name 0 == 0

/-! ## Scanning -/

/-- The offsets a loop visits that starts at `start`, adds `DIR_ENTRY_SIZE`
in each round, and goes on while the offset is less than
`byte_per_cluster`. -/
def slotsFrom (start bytePerCluster : ℕ) : List ℕ :=
  List.range' start ((bytePerCluster - start + (dirEntrySize - 1)) / dirEntrySize)
    dirEntrySize

/-- The offsets of the slots of a cluster. -/
def dirSlots (bytePerCluster : ℕ) : List ℕ := slotsFrom 0 bytePerCluster

/-- `memcpy(&dir_entry, cluster + offset, DIR_ENTRY_SIZE)`. -/
def entryAt (cluster : Buf) (offset : ℕ) : FatDirEntry :=
  FatDirEntry.ofBytes (cluster.shift offset)

/-- `memcpy(cluster + offset, &dir_entry, DIR_ENTRY_SIZE)`. The copy has to stay
in the buffer: what lies behind it is the allocator's. -/
def putEntryAt (cluster : Buf) (offset : ℕ) (dirEntry : FatDirEntry) : FatM Buf := do
  let s ← get
  if offset + dirEntrySize ≤ s.superblock.bytePerCluster then
    return cluster.blit offset dirEntry.bytes dirEntrySize
  else Prog.fail .outOfBounds

/-- A cluster buffer filled from disk, as every scan starts. -/
def loadCluster (clusterNum : ℕ) : FatM Buf := do
  let cluster ← getNewCluster
  let (result, cluster) ← readEntireClusterFromDisk cluster clusterNum
  check (result ≠ -1)
  return cluster

/-- **The scan of a directory.** In each cluster of the chain, which has to
pass the assertion `ok`: `hit` at the first slot whose entry satisfies `p`;
`miss` at the last cluster when no slot does. -/
def scanDir {α : Type} (ok : Superblock → ℕ → Bool) (p : FatDirEntry → Bool)
    (hit : ℕ → Buf → ℕ → FatM α) (miss : ℕ → FatM α) : ℕ → ℕ → FatM α
  | 0, _ => Prog.fail .endless
  | fuel + 1, clusterNum => do
    let s ← get
    check (ok s.superblock clusterNum = true)
    let cluster ← loadCluster clusterNum
    match (dirSlots s.superblock.bytePerCluster).find?
      (fun offset => p (entryAt cluster offset)) with
    | some offset => hit clusterNum cluster offset
    | none => do
      let nextCluster ← readFatEntry clusterNum
      if nextCluster = endOfChain then miss clusterNum
      else scanDir ok p hit miss fuel nextCluster

/-- Find the directory entry with the given name, from the given cluster on. -/
def findDirEntryByName (clusterNum : ℕ) (name : List UInt8) :
    FatM (Option FatDirEntry) := do
  let s ← get
  scanDir (fun _ _ => true) (fun e => e.nameStr == name)
    (fun _ cluster offset => return some (entryAt cluster offset))
    (fun _ => return none) s.chainFuel clusterNum

/-- Update or remove the directory entry with the same name as the given
one. -/
def updateDirEntry (clusterNum : ℕ) (dirEntry : FatDirEntry) (remove : Bool) :
    FatM ℤ := do
  let s ← get
  scanDir (fun _ _ => true) (fun e => e.nameStr == dirEntry.nameStr)
    (fun c cluster offset =>
      if remove then writeClusterToDisk (cluster.blit offset (fun _ => 0) 1) c
      else do
        let cluster ← putEntryAt cluster offset dirEntry
        writeClusterToDisk cluster c)
    (fun _ => return -1) s.chainFuel clusterNum

/-- `strncpy(dir_entry.name, dir_name, DIR_ENTRY_MAX_NAME_LEN + 1)`. -/
def nameField (dirName : List UInt8) : Fin 22 → UInt8 := fun i =>
  dirName.getD i 0

/-- Create a directory entry in the chain from the given cluster on, in the
first free slot, or in a new cluster at the end of the chain. -/
def addDirEntryToCluster (clusterNum : ℕ) (dirName : List UInt8)
    (firstClusterNum : ℕ) (type : UInt16) : FatM ℤ := do
  let env ← read
  let s ← get
  check (1 + s.superblock.clusterPerFat ≤ firstClusterNum
    ∧ firstClusterNum < s.superblock.clusterCount)
  -- the recursion repeats both tests on the same values
  if dirEntryMaxNameLen < dirName.length ∨ dirName.length = 0 then return -1
  else
    let create := fun (c : ℕ) (cluster : Buf) (offset : ℕ) => do
      let s ← get
      let dirEntry : FatDirEntry :=
        { name := nameField dirName
          type := type
          size := 0
          firstCluster := UInt32.ofNat firstClusterNum
          time := UInt64.ofNat (env.time s.pwrites.length) }
      let cluster ← putEntryAt cluster offset dirEntry
      writeClusterToDisk cluster c
    scanDir (fun _ _ => true) FatDirEntry.isFree create
      (fun c => do
        let free ← hasFreeCluster
        if free then do
          let c ← addFreeCluster c
          let cluster ← getNewCluster
          create c cluster 0
        else return -1)
      s.chainFuel clusterNum

/-- The name `"."`. -/
def dotName : List UInt8 := [46]

/-- The name `".."`. -/
def dotdotName : List UInt8 := [46, 46]

/-- Check if directory is empty. -/
def isDirEmpty (clusterNum : ℕ) : FatM Bool := do
  let s ← get
  scanDir (fun sb c => decide (sb.rootClusterStart ≤ c ∧ c ≠ 0))
    (fun e => e.nameStr != dotName && e.nameStr != dotdotName && !e.isFree)
    (fun _ _ _ => return false) (fun _ => return true) s.chainFuel clusterNum

/-! ## Listing -/

/-- What a listing hands to its filler: a name and the offset to resume at. -/
abbrev Listed := List UInt8 × ℕ

/-- The callback of `readdir`: whether it takes one more entry, given those
it has taken already. -/
abbrev Filler := List Listed → Listed → Bool

/-- The inner loop of `read_dir_entries`, over the slots of one cluster. It
leaves whether the listing goes on, the running offset, and the entries
taken. -/
def fillSlots (filler : Filler) (cluster : Buf) :
    List ℕ → ℕ → List Listed → Bool × ℕ × List Listed
  | [], offset, taken => (true, offset, taken)
  | t :: ts, offset, taken =>
    let dirEntry := entryAt cluster t
    let offset := u32 (offset + dirEntrySize)
    if dirEntry.isFree then fillSlots filler cluster ts offset taken
    else if filler taken (dirEntry.nameStr, offset) then
      fillSlots filler cluster ts offset (taken ++ [(dirEntry.nameStr, offset)])
    else (false, offset, taken)

/-- The outer loop of `read_dir_entries`. -/
def readDirLoop (filler : Filler) :
    ℕ → ℕ → Buf → ℕ → ℕ → List Listed → FatM (List Listed)
  | 0, _, _, _, _, _ => Prog.fail .endless
  | fuel + 1, clusterNum, cluster, tmpOffset, offset, taken =>
    if clusterNum = 0 then return taken
    else do
      let (result, cluster) ← readEntireClusterFromDisk cluster clusterNum
      check (result ≠ -1)
      let s ← get
      match fillSlots filler cluster
          (slotsFrom tmpOffset s.superblock.bytePerCluster) offset taken with
      | (false, _, taken) => return taken
      | (true, offset, taken) => do
        let nextCluster ← readFatEntry clusterNum
        readDirLoop filler fuel nextCluster cluster 0 offset taken

/-- Read directory entries in the given cluster at the given offset, and
fill the results with the filler. -/
def readDirEntries (clusterNum offset : ℕ) (filler : Filler) :
    FatM (List Listed) := do
  let s ← get
  -- `while (tmp_offset >= byte_per_cluster)`: one cluster further each time
  let clusterNum ← skipClusters (offset / s.superblock.bytePerCluster) clusterNum
  let cluster ← getNewCluster
  readDirLoop filler s.chainFuel clusterNum cluster
    (offset % s.superblock.bytePerCluster) offset []

/-! ## Paths -/

/-- The byte `'/'`. -/
def slash : UInt8 := 47

/-- `strcmp`, by its sign. -/
def strcmp : List UInt8 → List UInt8 → ℤ
  | [], [] => 0
  | [], _ :: _ => -1
  | _ :: _, [] => 1
  | a :: as, b :: bs => if a < b then -1 else if b < a then 1 else strcmp as bs

/-- The loop `for (; path[name_start - 1] != '/'; name_start--)`. -/
def nameStart (path : List UInt8) : ℕ → FatM ℕ
  | 0 => Prog.fail .outOfBounds
  | k + 1 => if path[k]? = some slash then return k + 1 else nameStart path k

/-- Get parent path from given path. -/
def getParentPath (path : List UInt8) : FatM (List UInt8) := do
  let n ← nameStart path path.length
  return path.take (n - 1)

/-- Get target name from given path. -/
def getTargetName (path : List UInt8) : FatM (List UInt8) := do
  let n ← nameStart path path.length
  return path.drop n

/-- The loop of `find_dir_entry_by_path` over the tokens of the parent path:
the first cluster of the directory they lead to. -/
def walkPath : List (List UInt8) → ℕ → FatM (Option ℕ)
  | [], clusterNum => return some clusterNum
  | tok :: toks, clusterNum => do
    match ← findDirEntryByName clusterNum tok with
    | none => return none
    | some e =>
      if e.type ≠ dirEntryTypeSubdir then return none
      else walkPath toks e.firstCluster.toNat

/-- Find the directory entry for the given path. -/
def findDirEntryByPath (path : List UInt8) : FatM (Option FatDirEntry) := do
  if strcmp path [slash] ≤ 0 then return none
  else do
    let s ← get
    let parentPath ← getParentPath path
    let targetName ← getTargetName path
    -- `strsep` skips the first token, which is empty
    match ← walkPath (parentPath.splitOn slash).tail s.superblock.rootClusterStart with
    | none => return none
    | some clusterNum => findDirEntryByName clusterNum targetName

/-- Find the first cluster for the file/directory at the given path. -/
def findFirstClusterByPath (path : List UInt8) : FatM ℕ := do
  let s ← get
  if 0 < strcmp path [slash] then do
    match ← findDirEntryByPath path with
    | none => Prog.fail .assertion
    | some e => return e.firstCluster.toNat
  else return s.superblock.rootClusterStart

end Fat
