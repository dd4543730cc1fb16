import LLPFilesystem.Bytes
import LLPFilesystem.Program
import Mathlib.Data.Int.Order.Basic

/-!
# The FAT server: its state and its disk

The server keeps a superblock and the FAT in memory and reaches the disk
file through `pread` and `pwrite` alone, one cluster at a time. This module
has that state, the two system calls, and the functions of `fat.c` that read
and write clusters and the superblock.

What the calls return is not the server's choice. `Env` says, for every call
a run makes, how many bytes it moves; a run in which every call moves all of
them has a `Reliable` environment. `Env` also says what the heap holds right
behind a cluster buffer, because the directory code reads there: the last
slot of a cluster need not fit in it.

`unsigned int` values are naturals, with the reduction modulo `2 ^ 32`
written out (`u32`, `sub32`) wherever the code can leave the range. These
functions are irreducible, so that no unification counts to `2 ^ 32`.
-/

namespace Fat

/-! ## Machine integers -/

/-- A value stored in an `unsigned int`. -/
@[irreducible] def u32 (n : ℕ) : ℕ := n % 2 ^ 32

/-- Subtraction of `unsigned int`s. -/
@[irreducible] def sub32 (a b : ℕ) : ℕ := (a + (2 ^ 32 - b % 2 ^ 32)) % 2 ^ 32

/-- A signed value cast to `unsigned int`. -/
@[irreducible] def u32OfInt (z : ℤ) : ℕ := (z % 2 ^ 32).toNat

/-- A value cast to `int`. -/
@[irreducible] def i32 (n : ℕ) : ℤ := (n : ℤ).bmod (2 ^ 32)

theorem u32_of_lt {n : ℕ} (h : n < 2 ^ 32) : u32 n = n := by
  unfold u32
  exact Nat.mod_eq_of_lt h

theorem u32_lt (n : ℕ) : u32 n < 2 ^ 32 := by
  unfold u32
  exact Nat.mod_lt _ (by norm_num)

theorem sub32_of_le {a b : ℕ} (ha : a < 2 ^ 32) (h : b ≤ a) : sub32 a b = a - b := by
  unfold sub32
  omega

theorem i32_of_lt {n : ℕ} (h : n < 2 ^ 31) : i32 n = n := by
  unfold i32
  exact Int.bmod_eq_of_le_mul_two (by omega) (by omega)

/-- An `unsigned int` below `2 ^ 31` is the same `int`. -/
theorem i32_of_u32_lt {n : ℕ} (h : u32 n < 2 ^ 31) : i32 n = u32 n := by
  unfold u32 at h ⊢
  unfold i32
  rw [← Int.emod_bmod, ← Int.natCast_mod]
  exact Int.bmod_eq_of_le_mul_two (by omega) (by omega)

/-! ## The state -/

/-- The superblock, with the bytes that pad it to its size on disk. -/
structure Superblock where
  bytePerCluster : ℕ
  clusterCount : ℕ
  clusterPerFat : ℕ
  fatType : ℕ
  rootClusterStart : ℕ
  freeClusterStart : ℕ
  pad : Fin 488 → UInt8

/-- `sizeof(superblock)`. -/
def superblockSize : ℕ := 512

/-- `END_OF_CHAIN`. -/
def endOfChain : ℕ := 0

/-- The superblock as bytes. -/
def Superblock.bytes (sb : Superblock) : Buf := fun i =>
  if i < 4 then leByte sb.bytePerCluster i
  else if i < 8 then leByte sb.clusterCount (i - 4)
  else if i < 12 then leByte sb.clusterPerFat (i - 8)
  else if i < 16 then leByte sb.fatType (i - 12)
  else if i < 20 then leByte sb.rootClusterStart (i - 16)
  else if i < 24 then leByte sb.freeClusterStart (i - 20)
  else if h : i - 24 < 488 then sb.pad ⟨i - 24, h⟩ else 0

/-- The superblock read from bytes. -/
def Superblock.ofBytes (m : Buf) : Superblock where
  bytePerCluster := leNat m 0 4
  clusterCount := leNat m 4 4
  clusterPerFat := leNat m 8 4
  fatType := leNat m 12 4
  rootClusterStart := leNat m 16 4
  freeClusterStart := leNat m 20 4
  pad := fun i => m (24 + i)

/-- The running server and its disk file. -/
structure Server where
  /-- The superblock in memory. -/
  superblock : Superblock
  /-- The FAT in memory. -/
  fatTable : Buf
  /-- The contents of the disk file. -/
  fatDisk : Buf
  /-- How many `pread` calls the run has made. -/
  preads : ℕ
  /-- The disk as each `pwrite` call of the run found it, latest first. -/
  pwrites : List Buf

/-- What a `pread` or a `pwrite` does with the bytes it is asked to move. -/
inductive Transfer where
  | full
  | short (n : ℕ)
  | failed

/-- The value the call returns, when asked for `size` bytes. -/
def Transfer.result (t : Transfer) (size : ℕ) : ℤ :=
  match t with
  | .full => size
  | .short n => (min n size : ℕ)
  | .failed => -1

/-- The number of bytes the call moves, when asked for `size`. -/
def Transfer.moved (t : Transfer) (size : ℕ) : ℕ :=
  match t with
  | .full => size
  | .short n => min n size
  | .failed => 0

/-- What a run does not decide: the outcomes of its system calls, the clock,
and what the heap holds behind a cluster buffer. -/
structure Env where
  pread : ℕ → Transfer
  pwrite : ℕ → Transfer
  /-- `time(NULL)`, by the number of writes made so far. -/
  time : ℕ → ℕ
  heap : Buf

/-- Every read moves all the bytes it is asked for. -/
def Env.ReadsFull (env : Env) : Prop := ∀ k, env.pread k = .full

/-- Every write moves all the bytes it is asked for. -/
def Env.WritesFull (env : Env) : Prop := ∀ k, env.pwrite k = .full

/-- Every call moves all the bytes it is asked for. -/
structure Env.Reliable (env : Env) : Prop where
  reads : env.ReadsFull
  writes : env.WritesFull

/-- An environment in which every call succeeds. -/
def Env.ideal : Env := ⟨fun _ => .full, fun _ => .full, fun _ => 0, fun _ => 0⟩

theorem Env.ideal_reliable : Env.ideal.Reliable := ⟨fun _ => rfl, fun _ => rfl⟩

/-- How a run can stop without returning. -/
inductive Fault where
  /-- A failed `assert`. -/
  | assertion
  /-- An access outside every object, as the FAT entry of no cluster. -/
  | outOfBounds
  /-- A walk over a chain that never ends. -/
  | endless
  deriving DecidableEq

/-- A function of `fat.c`. -/
abbrev FatM := Prog Env Fault Server

/-- `assert`. -/
def check (p : Prop) [Decidable p] : FatM Unit :=
  if p then pure () else Prog.fail .assertion

theorem check_run {p : Prop} [Decidable p] (h : p) (env : Env) (s : Server) :
    (check p).run env s = .ok () s := by
  rw [check, if_pos h]
  rfl

theorem check_stop {p : Prop} [Decidable p] (h : ¬ p) (env : Env) (s : Server) :
    (check p).run env s = .stop .assertion s := by
  rw [check, if_neg h]
  rfl

/-! ## System calls -/

/-- `pread(fileno(fat_disk), buf, size, offset)`. -/
def pread (buf : Buf) (size offset : ℕ) : FatM (ℤ × Buf) := do
  let env ← read
  let s ← get
  let t := env.pread s.preads
  modify fun s => { s with preads := s.preads + 1 }
  return (t.result size, buf.blit 0 (s.fatDisk.shift offset) (t.moved size))

/-- The server after a `pwrite`. -/
def Server.pwritten (s : Server) (env : Env) (buf : Buf) (size offset : ℕ) :
    Server :=
  { s with
    fatDisk := s.fatDisk.blit offset buf ((env.pwrite s.pwrites.length).moved size)
    pwrites := s.fatDisk :: s.pwrites }

/-- `pwrite(fileno(fat_disk), buf, size, offset)`. -/
def pwrite (buf : Buf) (size offset : ℕ) : FatM ℤ := do
  let env ← read
  let s ← get
  modify fun s => s.pwritten env buf size offset
  return (env.pwrite s.pwrites.length).result size

/-! ## Clusters -/

/-- Get disk offset from cluster number. -/
def getDiskOffset (clusterNum : ℕ) : FatM ℕ := do
  let s ← get
  check (clusterNum < s.superblock.clusterCount)
  return u32 (clusterNum * s.superblock.bytePerCluster)

/-- A zeroed cluster buffer, with the heap behind it. -/
def Server.newCluster (s : Server) (env : Env) : Buf := fun i =>
  if i < s.superblock.bytePerCluster then 0
  else env.heap (i - s.superblock.bytePerCluster)

/-- Return a new cluster in memory. -/
def getNewCluster : FatM Buf := do
  let env ← read
  let s ← get
  return s.newCluster env

/-- Read a part of a cluster from disk. -/
def readClusterFromDisk (buf : Buf) (clusterNum offset size : ℕ) :
    FatM (ℤ × Buf) := do
  let s ← get
  check (clusterNum < s.superblock.clusterCount
    ∧ u32 (offset + size) ≤ s.superblock.bytePerCluster)
  let diskOffset ← getDiskOffset clusterNum
  let (n, buf) ← pread buf size (u32 (diskOffset + offset))
  let byteRead := u32OfInt n
  return (if byteRead < size then -1 else 0, buf)

def readEntireClusterFromDisk (buf : Buf) (clusterNum : ℕ) : FatM (ℤ × Buf) := do
  let s ← get
  readClusterFromDisk buf clusterNum 0 s.superblock.bytePerCluster

/-- Write a buffer to the cluster of the given number. -/
def writeClusterToDisk (buf : Buf) (clusterNum : ℕ) : FatM ℤ := do
  let s ← get
  check (clusterNum < s.superblock.clusterCount)
  let diskOffset ← getDiskOffset clusterNum
  let n ← pwrite buf s.superblock.bytePerCluster diskOffset
  return if n < s.superblock.bytePerCluster then -1 else 0

/-- Write superblock to disk. -/
def writeSuperblockToDisk : FatM ℤ := do
  let tmpCluster ← getNewCluster
  let s ← get
  writeClusterToDisk (tmpCluster.blit 0 s.superblock.bytes superblockSize) 0

end Fat
