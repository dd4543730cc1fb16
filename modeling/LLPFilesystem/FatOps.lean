import LLPFilesystem.FatFile

/-!
# The operations of the file system

Mounting and formatting, and the FUSE operations on directories. The
operations on the contents of files are in `Fat.FatFile`.
-/

namespace Fat

/-! ## Error numbers and modes -/

/-- `ENOENT`. -/
def enoent : ℤ := 2

/-- `EACCES`. -/
def eacces : ℤ := 13

/-- `ENOTDIR`. -/
def enotdir : ℤ := 20

/-- `ENOTEMPTY`. -/
def enotempty : ℤ := 39

/-- `S_IFREG`. -/
def sIfreg : ℕ := 0o100000

/-- `S_ISREG(mode)`. -/
def sIsreg (mode : ℕ) : Bool := mode &&& 0o170000 == sIfreg

/-! ## Mounting -/

/-- The superblock of a fresh disk: `BYTE_PER_CLUSTER`, `CLUSTER_COUNT`,
`CLUSTER_PER_FAT`, `FAT_TYPE`, `ROOT_CLUSTER_START`, `FREE_CLUSTER_START`. -/
def Superblock.fresh (pad : Fin 488 → UInt8) : Superblock where
  bytePerCluster := 4096
  clusterCount := 2560
  clusterPerFat := 3
  fatType := 32
  rootClusterStart := 4
  freeClusterStart := 5
  pad := pad

/-- Initialize superblock. -/
def initSuperblock (firstTime : Bool) : FatM ℤ := do
  let s ← get
  if firstTime then do
    modify fun s => { s with superblock := .fresh s.superblock.pad }
    writeSuperblockToDisk
  else do
    let (result, bytes) ← pread s.superblock.bytes superblockSize 0
    modify fun s => { s with superblock := .ofBytes bytes }
    return if result < superblockSize then -1 else 0

/-- The loop of `init_fat` that links the free clusters: `count` of them,
from `i` on. -/
def linkFree : ℕ → ℕ → FatM Unit
  | 0, _ => return ()
  | count + 1, i => do
    let _ ← updateFatEntry i (i + 1) false
    linkFree count (i + 1)

/-- Initialize FAT table. -/
def initFat (firstTime : Bool) : FatM ℤ := do
  let s ← get
  let sb := s.superblock
  let fatSize := s.fatSize
  modify fun s => { s with fatTable := fun _ => 0 }
  if firstTime then do
    let _ ← updateFatEntry sb.rootClusterStart 0 false
    let _ ← updateFatEntry (sb.clusterCount - 1) 0 false
    linkFree (sb.clusterCount - 1 - sb.freeClusterStart) sb.freeClusterStart
    let s ← get
    let result ← pwrite s.fatTable fatSize sb.bytePerCluster
    return if result < fatSize then -1 else 0
  else do
    let s ← get
    let (result, bytes) ← pread s.fatTable fatSize sb.bytePerCluster
    modify fun s => { s with fatTable := bytes }
    return if result < fatSize then -1 else 0

/-- The formatting path of `fat_init`, up to the root directory. -/
def formatDisk : FatM Unit := do
  let result ← initSuperblock true
  check (result ≠ -1)
  let result ← initFat true
  check (result ≠ -1)

/-- The mounting path of `fat_init`, for a disk that exists. -/
def mountDisk : FatM Unit := do
  let result ← initSuperblock false
  check (result ≠ -1)
  let result ← initFat false
  check (result ≠ -1)

/-! ## Creating -/

/-- The first cluster of the directory that a parent path names, as
`add_dir_entry` finds it. -/
def findParentCluster (parentPath : List UInt8) : FatM ℕ := do
  let s ← get
  if 0 < strcmp parentPath [slash] then do
    match ← findDirEntryByPath parentPath with
    | none => Prog.fail .assertion
    | some dirEntry => return dirEntry.firstCluster.toNat
  else return s.superblock.rootClusterStart

/-- The part of `add_dir_entry` after the parent directory has been found. -/
def createEntry (parentCluster : ℕ) (targetName : List UInt8) (type : UInt16) :
    FatM ℤ := do
  let firstCluster ← popFreeClusters 1
  let _ ← addDirEntryToCluster parentCluster targetName firstCluster type
  if type = dirEntryTypeSubdir then do
    let _ ← addDirEntryToCluster firstCluster dotName firstCluster type
    let _ ← addDirEntryToCluster firstCluster dotdotName parentCluster type
    return 0
  else return 0

/-- Add a directory entry as specified in the path with the given type. -/
def addDirEntry (path : List UInt8) (type : UInt16) : FatM ℤ := do
  let parentPath ← getParentPath path
  let targetName ← getTargetName path
  let parentCluster ← findParentCluster parentPath
  createEntry parentCluster targetName type

def fatMkdir (path : List UInt8) : FatM ℤ := do
  let free ← hasFreeCluster
  if free then addDirEntry path dirEntryTypeSubdir else return -enomem

def fatMknod (path : List UInt8) (mode : ℕ) : FatM ℤ := do
  if sIsreg mode then do
    let free ← hasFreeCluster
    if free then addDirEntry path dirEntryTypeFile else return -enomem
  else return -eacces

def fatCreate (path : List UInt8) (mode : ℕ) : FatM ℤ := do
  let _ ← fatMknod path (mode ||| sIfreg)
  return 0

/-- `fat_init`: a disk that does not exist yet is formatted, and its root directory gets `"."`
and `".."`; another one is mounted. -/
def fatInit (diskExists : Bool) : FatM Unit := do
  if diskExists then mountDisk
  else do
    formatDisk
    let s ← get
    let result ← addDirEntryToCluster s.superblock.rootClusterStart dotName
      s.superblock.rootClusterStart dirEntryTypeSubdir
    check (result ≠ -1)
    let result ← addDirEntryToCluster s.superblock.rootClusterStart dotdotName
      s.superblock.rootClusterStart dirEntryTypeSubdir
    check (result ≠ -1)

/-! ## Attributes -/

/-- `S_IFDIR`. -/
def sIfdir : ℕ := 0o040000

/-- `S_IFLNK`. -/
def sIflnk : ℕ := 0o120000

/-- `S_IRWXU | S_IRWXG | S_IRWXO`. -/
def sIrwxa : ℕ := 0o777

/-- The fields of `struct stat` that `fat_getattr` sets. -/
structure Stat where
  mode : ℕ
  nlink : ℕ
  ino : ℕ
  size : ℕ
  mtime : UInt64
  deriving DecidableEq

/-- What `fat_getattr` returns, and the attributes if it finds the path. -/
def fatGetattr (path : List UInt8) : FatM (ℤ × Option Stat) := do
  let s ← get
  if strcmp path [slash] = 0 then do
    let count ← countClusterInChain s.superblock.rootClusterStart
    return (0, some
      { mode := sIfdir ||| sIrwxa, nlink := 2, ino := s.superblock.rootClusterStart,
        size := u32 (s.superblock.bytePerCluster * count), mtime := 0 })
  else do
    match ← findDirEntryByPath path with
    | none => return (-enoent, none)
    | some dirEntry =>
      let stat (mode size : ℕ) : Stat :=
        { mode := mode, nlink := 2, ino := dirEntry.firstCluster.toNat, size := size,
          mtime := dirEntry.time }
      if dirEntry.type = dirEntryTypeSubdir then do
        let count ← countClusterInChain dirEntry.firstCluster.toNat
        return (0, some (stat (sIrwxa ||| sIfdir)
          (u32 (s.superblock.bytePerCluster * count))))
      else if dirEntry.type = dirEntryTypeFile then
        return (0, some (stat (sIrwxa ||| sIfreg) dirEntry.size.toNat))
      else return (0, some (stat (sIrwxa ||| sIflnk) 0))

def fatFgetattr (path : List UInt8) : FatM (ℤ × Option Stat) := fatGetattr path

def fatAccess (path : List UInt8) : FatM ℤ := do
  if strcmp path [slash] = 0 then return 0
  else do
    match ← findDirEntryByPath path with
    | none => return -enoent
    | some _ => return 0

def fatOpen (path : List UInt8) : FatM ℤ := do
  match ← findDirEntryByPath path with
  | none => return -enoent
  | some _ => return 0

/-! ## Listing and removing -/

def fatReaddir (path : List UInt8) (offset : ℕ) (filler : Filler) :
    FatM (ℤ × List Listed) := do
  let clusterNum ← findFirstClusterByPath path
  let taken ← readDirEntries clusterNum (u32 offset) filler
  return (0, taken)

def fatRmdir (path : List UInt8) : FatM ℤ := do
  let (parentCluster, dirEntry) ← lookupTarget path
  let empty ← isDirEmpty dirEntry.firstCluster.toNat
  if empty then
    if dirEntry.type ≠ dirEntryTypeSubdir then return -enotdir
    else do
      freeClusterChain dirEntry.firstCluster.toNat
      updateDirEntry parentCluster dirEntry true
  else return -enotempty

def fatUnlink (path : List UInt8) : FatM ℤ := do
  let (parentCluster, dirEntry) ← lookupTarget path
  if dirEntry.type ≠ dirEntryTypeFile then return -1
  else do
    freeClusterChain dirEntry.firstCluster.toNat
    updateDirEntry parentCluster dirEntry true

/-- `f_bfree` of `fat_statfs`. -/
def fatStatfs : FatM ℕ := do
  let s ← get
  countClusterInChain s.superblock.freeClusterStart

end Fat
