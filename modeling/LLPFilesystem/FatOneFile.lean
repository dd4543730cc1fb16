import LLPFilesystem.FatEntries
import LLPFilesystem.FatFormat
import LLPFilesystem.FatPaths

/-!
# A disk with one file

The smallest disk the operations on files can be run on: freshly formatted,
with a file `/a` of one cluster whose entry is in the first slot of the root
directory. Its size and its data are arbitrary. It is what creating `/a` and
writing to it leaves, apart from the entries `"."` and `".."` of the root.
Another disk (`Server.nested`) has a directory `/a` in its place, with two files.
-/

namespace Fat

/-- The name `"a"`. -/
def oneName : List UInt8 := [97]

/-- The path `"/a"`. -/
def onePath : List UInt8 := [47, 97]

/-- The entry of the file. -/
def oneEntry (size : UInt32) : FatDirEntry where
  name := nameField oneName
  type := dirEntryTypeFile
  size := size
  firstCluster := 5
  time := 0

namespace Server

/-- **The disk with one file.** -/
def oneFile (size : UInt32) (data : Buf) : Server :=
  (((blank.formatted .ideal).popped .ideal [5] 5 6).store .ideal (4, 0)
    (oneEntry size).bytes dirEntrySize).writeCluster .ideal data 5

/-- What its table stores: the file and the root directory own a cluster
each. -/
def onePool : Pool ℕ := ⟨List.range' 6 2554, [5] ::ₘ {[4]}⟩

variable {size : UInt32} {data : Buf}

theorem owns_oneFile (size : UInt32) (data : Buf) : (oneFile size data).Owns onePool := by
  have h := owns_formatted blank .ideal
  have hfree : freshPool = ⟨([] ++ [5]) ++ List.range' 6 2554, {[4]}⟩ := by
    rw [freshPool, List.range'_succ]
    rfl
  have hnext : (blank.formatted .ideal).next 5 = 6 := by
    rw [next_formatted (by decide) (by decide)]
    rfl
  rw [hfree] at h
  have hp := h.popped .ideal
  rw [hnext] at hp
  exact hp.writeCluster.writeCluster

theorem superblock_oneFile : (oneFile size data).superblock
    = { Superblock.fresh (fun _ => 0) with freeClusterStart := 6 } := by
  show ((blank.formatted .ideal).popped .ideal [5] 5 6).superblock = _
  rw [superblock_popped, setFree, superblock_formatted]
  rfl

@[simp] theorem bytePerCluster_oneFile :
    (oneFile size data).superblock.bytePerCluster = 4096 := by
  rw [superblock_oneFile]
  rfl

/-- The cluster of the file holds its data. -/
theorem cluster_oneFile {i : ℕ} (hi : i < 4096) :
    (oneFile size data).cluster 5 i = data i := by
  have hb : i < (oneFile size data).superblock.bytePerCluster := by
    rw [bytePerCluster_oneFile]
    exact hi
  exact cluster_writeCluster Env.ideal_reliable.writes hb

/-- The first slot of the root directory holds the entry of the file. -/
theorem slotEntry_oneFile (env : Env) :
    (oneFile size data).slotEntry env (4, 0) = oneEntry size := by
  set s := (blank.formatted .ideal).popped .ideal [5] 5 6 with hs
  have hin : s.Inside (4, 0) := by
    show 0 + 40 ≤ (oneFile size data).superblock.bytePerCluster
    rw [bytePerCluster_oneFile]
    decide
  have hwrite : (oneFile size data).slotEntry env (4, 0)
      = (s.store .ideal (4, 0) (oneEntry size).bytes dirEntrySize).slotEntry env (4, 0) :=
    slotEntry_congr rfl (fun i _ _ hi => cluster_writeCluster_of_ne (by decide) hi)
  rw [hwrite]
  exact slotEntry_store_self Env.ideal_reliable.writes hin

/-- Behind the entry of the file, the root directory is zero. -/
theorem root_oneFile {i : ℕ} (h : dirEntrySize ≤ i) (hi : i < 4096) :
    (oneFile size data).cluster 4 i = 0 := by
  set s := (blank.formatted .ideal).popped .ideal [5] 5 6 with hs
  have hsb : s.superblock.bytePerCluster = 4096 :=
    (bytePerCluster_oneFile : (oneFile size data).superblock.bytePerCluster = 4096)
  have hfmt := owns_formatted blank .ideal
  have hdata : ∀ c, 4 ≤ c → c < 2560 → (blank.formatted .ideal).superblock.IsData c :=
    fun c h h' => isData_formatted.mpr ⟨h, h'⟩
  calc (oneFile size data).cluster 4 i
      = (s.store .ideal (4, 0) (oneEntry size).bytes dirEntrySize).cluster 4 i :=
        cluster_writeCluster_of_ne (by decide) (by rw [superblock_store, hsb]; exact hi)
    _ = s.cluster 4 i :=
        (cluster_store (x := (4, 0)) Env.ideal_reliable.writes (by rw [hsb]; exact hi)).trans
          (Buf.blit_of_le (by omega))
    _ = (blank.formatted .ideal).cluster 4 i :=
        cluster_popped_of_notMem hfmt.geometry (hdata 5 (by decide) (by decide))
          (hdata 4 (by decide) (by decide)) (by decide)
          (by rw [superblock_formatted]; exact hi)
    _ = 0 := cluster_formatted (by decide) hi

theorem nameStr_oneEntry : (oneEntry size).nameStr = oneName :=
  FatDirEntry.nameStr_nameField (by decide) (by decide) rfl

/-- The slots of a directory that has one cluster of 4096 bytes. -/
theorem slots_of_page {s : Server} {c : ℕ} (h : s.superblock.bytePerCluster = 4096) :
    s.slots [c] = (c, 0) :: (c, 40) :: (List.range' 80 101 40).map (c, ·) := by
  rw [slots, h]
  rfl

/-- The slots of the root directory. -/
theorem slots_oneFile : (oneFile size data).slots [4]
    = (4, 0) :: (4, 40) :: (List.range' 80 101 40).map (4, ·) :=
  slots_of_page bytePerCluster_oneFile

theorem slot_oneFile : (4, 0) ∈ (oneFile size data).slots [4] := by
  rw [slots_oneFile]
  exact List.mem_cons_self

theorem inside_oneFile : (oneFile size data).Inside (4, 0) := by
  rw [Inside, bytePerCluster_oneFile]
  decide

/-- The first name in a directory of one cluster is found. -/
theorem lookup_first {s : Server} {env : Env} {c : ℕ} {name : List UInt8}
    (h : s.superblock.bytePerCluster = 4096) (hname : (s.slotEntry env (c, 0)).nameStr = name) :
    s.lookup env [c] name = some (s.slotEntry env (c, 0)) := by
  rw [lookup, findSlot, slots_of_page h, List.find?_cons_of_pos (by
    rw [hname]
    exact beq_self_eq_true _), Option.map_some]

/-- Looking the file up in the root directory. -/
theorem lookup_oneFile (size : UInt32) (data : Buf) (env : Env) :
    (oneFile size data).lookup env [4] oneName = some (oneEntry size) := by
  have hname : ((oneFile size data).slotEntry env (4, 0)).nameStr = oneName := by
    rw [slotEntry_oneFile, nameStr_oneEntry]
  rw [lookup_first bytePerCluster_oneFile hname, slotEntry_oneFile]

/-- The other slots of the root directory are free. -/
theorem isFree_oneFile {env : Env} {y : ℕ × ℕ} (hy : y ∈ (oneFile size data).slots [4])
    (hne : y ≠ (4, 0)) : ((oneFile size data).slotEntry env y).isFree = true := by
  obtain ⟨hc, ho⟩ := mem_slots.mp hy
  obtain ⟨hdvd, hlt⟩ := mem_dirSlots.mp ho
  have hc4 : y.1 = 4 := List.mem_singleton.mp hc
  have hpos : dirEntrySize ≤ y.2 := by
    refine Nat.le_of_dvd (Nat.pos_of_ne_zero fun h0 => hne (Prod.ext hc4 h0)) hdvd
  rw [isFree_slotEntry hlt, hc4]
  rw [bytePerCluster_oneFile] at hlt
  exact root_oneFile hpos hlt

/-- The second slot of the root directory is the first free one. -/
theorem findSlot_isFree_oneFile (env : Env) :
    (oneFile size data).findSlot env [4] FatDirEntry.isFree = some (4, 40) := by
  have hlive : ¬ ((oneFile size data).slotEntry env (4, 0)).isFree = true := fun hfree => by
    rw [FatDirEntry.isFree_iff, slotEntry_oneFile, nameStr_oneEntry] at hfree
    cases hfree
  have hfree : ((oneFile size data).slotEntry env (4, 40)).isFree = true :=
    isFree_oneFile (by rw [slots_oneFile]; simp) (by decide)
  rw [findSlot, slots_oneFile,
    List.find?_cons_of_neg (p := fun x => ((oneFile size data).slotEntry env x).isFree) hlive,
    List.find?_cons_of_pos (p := fun x => ((oneFile size data).slotEntry env x).isFree) hfree]

/-- Other names are not found in the root directory. -/
theorem lookup_oneFile_of_ne {env : Env} {name : List UInt8} (hname : name ≠ oneName)
    (hne : name ≠ []) : (oneFile size data).lookup env [4] name = none := by
  refine lookup_eq_none.mpr (fun y hy hyn => ?_)
  by_cases hy0 : y = (4, 0)
  · rw [hy0, slotEntry_oneFile, nameStr_oneEntry] at hyn
    exact hname hyn.symm
  · rw [FatDirEntry.nameStr_of_isFree (isFree_oneFile hy hy0)] at hyn
    exact hne hyn.symm

/-- The file is the only entry with its name. -/
theorem unique_oneFile {env : Env} : ∀ y ∈ (oneFile size data).slots [4],
    ((oneFile size data).slotEntry env y).nameStr = (oneEntry size).nameStr →
      y = (4, 0) := by
  intro y hy hname
  by_contra hne
  rw [FatDirEntry.nameStr_of_isFree (isFree_oneFile hy hne), nameStr_oneEntry] at hname
  cases hname

theorem file_mem_onePool : [5] ∈ onePool.owners :=
  Multiset.mem_cons_self ([5] : List ℕ) {[4]}

/-- The root directory is the one directory. -/
theorem root_mem_onePool : ∀ l ∈ ({[4]} : Multiset (List ℕ)), l ∈ onePool.owners :=
  fun _ hl => Multiset.mem_cons_of_mem hl

theorem oneName_isName : IsName oneName := ⟨by decide, by decide, by decide⟩

theorem rootClusterStart_oneFile : (oneFile size data).superblock.rootClusterStart = 4 := by
  rw [superblock_oneFile]
  rfl

/-- The path of the file leads to its entry. -/
theorem leads_oneFile {os : Multiset (List ℕ)} (hos : [4] ∈ os) (env : Env) (size : UInt32)
    (data : Buf) :
    (oneFile size data).Leads env os {[4]} [] [4] oneName (oneEntry size) where
  dirs_owned := fun _ hd => Multiset.mem_singleton.mp hd ▸ hos
  names := fun _ hx => absurd hx List.not_mem_nil
  isName := oneName_isName
  walk := ⟨[4], Multiset.mem_singleton_self _, rootClusterStart_oneFile.symm, .nil [4]⟩
  parent := Multiset.mem_singleton_self _
  found := lookup_oneFile size data env

theorem root_mem_owners : [4] ∈ onePool.owners :=
  root_mem_onePool [4] (Multiset.mem_singleton_self _)

/-- Finding the file by its path. -/
theorem find_oneFile {env : Env} (hr : env.ReadsFull) (size : UInt32) (data : Buf) :
    (oneFile size data).Reads env (findDirEntryByPath onePath) (some (oneEntry size)) :=
  (leads_oneFile root_mem_owners env size data).reads_find (owns_oneFile size data) hr
    fun _ hd => hd

/-- The lookup the operations on the file start with. -/
theorem lookupTarget_oneFile {env : Env} (hr : env.ReadsFull) (size : UInt32)
    (data : Buf) :
    (oneFile size data).Reads env (lookupTarget onePath) (4, oneEntry size) :=
  (leads_oneFile root_mem_owners env size data).reads_lookupTarget (owns_oneFile size data) hr
    fun _ hd => hd

/-! ## A disk with a directory -/

/-- Take the first free cluster. -/
def takeCluster (s : Server) (d : ℕ) : Server := s.popped .ideal [d] d (s.next d)

/-- The disk with one file after two more clusters have been taken. -/
def nestedClusters : Server := ((oneFile 0 fun _ => 0).takeCluster 6).takeCluster 7

/-- The disk of which the file is made a directory. -/
def nestedRoot : Server :=
  nestedClusters.store .ideal (4, 0) (freshEntry oneName 5 dirEntryTypeSubdir).bytes dirEntrySize

/-- **The disk with a directory** `/a`, which has the files `/a/b` and `/a/c`. -/
def nested : Server :=
  (nestedRoot.store .ideal (5, 0) (freshEntry [98] 6 dirEntryTypeFile).bytes dirEntrySize).store
    .ideal (5, 40) (freshEntry [99] 7 dirEntryTypeFile).bytes dirEntrySize

/-- What its table stores: the files, the directory and the root directory own a
cluster each. -/
def nestedPool : Pool ℕ := ⟨List.range' 8 2552, [7] ::ₘ [6] ::ₘ [5] ::ₘ {[4]}⟩

/-- Its directories. -/
def nestedDirs : Multiset (List ℕ) := [5] ::ₘ {[4]}

theorem owns_nestedClusters : nestedClusters.Owns nestedPool := by
  have h := owns_oneFile 0 fun _ => 0
  rw [onePool, show List.range' 6 2554 = ([] ++ [6]) ++ List.range' 7 2553 from
    List.range'_succ] at h
  have h' := h.popped .ideal
  rw [show List.range' 7 2553 = ([] ++ [7]) ++ List.range' 8 2552 from List.range'_succ] at h'
  exact h'.popped .ideal

theorem owns_nested : nested.Owns nestedPool :=
  owns_nestedClusters.writeCluster.writeCluster.writeCluster

theorem nested_dirs_owned : ∀ l ∈ nestedDirs, l ∈ nestedPool.owners := fun _ hl =>
  Multiset.mem_cons_of_mem (Multiset.mem_cons_of_mem hl)

theorem superblock_nestedClusters : nestedClusters.superblock
    = { Superblock.fresh (fun _ => 0) with
        freeClusterStart := nestedClusters.superblock.freeClusterStart } := by
  unfold nestedClusters takeCluster
  rw [superblock_popped, setFree, superblock_popped, setFree, superblock_oneFile]

theorem superblock_nested : nested.superblock = nestedClusters.superblock := by
  rw [nested, superblock_store, superblock_store, nestedRoot, superblock_store]

theorem bytePerCluster_nestedClusters : nestedClusters.superblock.bytePerCluster = 4096 := by
  rw [superblock_nestedClusters]
  rfl

theorem bytePerCluster_nested : nested.superblock.bytePerCluster = 4096 := by
  rw [superblock_nested]
  exact bytePerCluster_nestedClusters

/-- The entries of the directory and of its files. -/
theorem slotEntry_nested :
    nested.slotEntry .ideal (4, 0) = freshEntry oneName 5 dirEntryTypeSubdir
    ∧ nested.slotEntry .ideal (5, 0) = freshEntry [98] 6 dirEntryTypeFile
    ∧ nested.slotEntry .ideal (5, 40) = freshEntry [99] 7 dirEntryTypeFile := by
  have hw := Env.ideal_reliable.writes
  set s := nestedRoot.store .ideal (5, 0) (freshEntry [98] 6 dirEntryTypeFile).bytes
    dirEntrySize with hs
  have hin : ∀ c, ∀ o ≤ 40, nestedClusters.Inside (c, o) := fun c o ho => by
    unfold Inside
    rw [bytePerCluster_nestedClusters]
    unfold dirEntrySize
    omega
  have hin₁ : nestedRoot.Inside (5, 0) := hin 5 0 (by decide)
  have hin₂ : s.Inside (5, 40) := hin 5 40 (Nat.le_refl _)
  -- the last store keeps the other slots
  have hlast : ∀ y : ℕ × ℕ, dirEntrySize ∣ y.2 → y ≠ (5, 40) →
      nested.slotEntry .ideal y = s.slotEntry .ideal y := fun y hy hne =>
    slotEntry_store_of_ne (s := s) (x := (5, 40)) hw (by decide) hy hne (Nat.le_refl _)
  refine ⟨?_, ?_, slotEntry_store_self (s := s) hw hin₂⟩
  · rw [hlast (4, 0) (by decide) (by decide), hs,
      slotEntry_store_of_ne (s := nestedRoot) (x := (5, 0)) hw (by decide) (by decide)
        (by decide) (Nat.le_refl _)]
    exact slotEntry_store_self (s := nestedClusters) hw (hin 4 0 (by decide))
  · rw [hlast (5, 0) (by decide) (by decide)]
    exact slotEntry_store_self (s := nestedRoot) hw hin₁

/-- The cluster taken for the directory is zero. -/
theorem cluster_nestedRoot {i : ℕ} (hi : i < 4096) : nestedRoot.cluster 5 i = 0 := by
  set s := oneFile 0 fun _ => 0 with hs
  have hg : s.superblock.Geometry := (owns_oneFile 0 fun _ => 0).geometry
  have hb : s.superblock.bytePerCluster = 4096 := bytePerCluster_oneFile
  have hdata : ∀ c, 4 ≤ c → c < 2560 → s.superblock.IsData c := fun c h h' => by
    rw [hs, superblock_oneFile]
    exact ⟨h, h'⟩
  have h7 : nestedClusters.cluster 5 i = (s.takeCluster 6).cluster 5 i := by
    refine cluster_popped_of_notMem (d := 7) ?_ ?_ ?_ (by decide) ?_ <;>
      rw [takeCluster, superblock_popped]
    · exact hg.setFree
    · exact hdata 7 (by decide) (by decide)
    · exact hdata 5 (by decide) (by decide)
    · exact hb.symm ▸ hi
  have h6 : (s.takeCluster 6).cluster 5 i = s.cluster 5 i :=
    cluster_popped_of_notMem (d := 6) hg (hdata 6 (by decide) (by decide))
      (hdata 5 (by decide) (by decide)) (by decide) (hb.symm ▸ hi)
  have hroot : nestedRoot.cluster 5 i = nestedClusters.cluster 5 i :=
    cluster_store_of_ne (by decide) (bytePerCluster_nestedClusters.symm ▸ hi)
  rw [hroot, h7, h6]
  exact cluster_oneFile hi

/-- Behind the entries of its files, the directory is free. -/
theorem isFree_nested {env : Env} {o : ℕ} (h : 80 ≤ o) (ho : o < 4096) :
    (nested.slotEntry env (5, o)).isFree = true := by
  have hw := Env.ideal_reliable.writes
  have hb : o < nested.superblock.bytePerCluster := by
    rw [bytePerCluster_nested]
    exact ho
  refine (isFree_slotEntry hb).mpr ?_
  set s := nestedRoot.store .ideal (5, 0) (freshEntry [98] 6 dirEntryTypeFile).bytes
    dirEntrySize with hs
  calc nested.cluster 5 o
      = s.cluster 5 o := (cluster_store (s := s) (x := (5, 40)) hw hb).trans
        (Buf.blit_of_le (show 40 + dirEntrySize ≤ o by unfold dirEntrySize; omega))
    _ = nestedRoot.cluster 5 o := (cluster_store (s := nestedRoot) (x := (5, 0)) hw hb).trans
        (Buf.blit_of_le (show 0 + dirEntrySize ≤ o by unfold dirEntrySize; omega))
    _ = 0 := cluster_nestedRoot ho

theorem lookup_nested :
    nested.lookup .ideal [4] oneName = some (freshEntry oneName 5 dirEntryTypeSubdir)
    ∧ nested.lookup .ideal [5] [98] = some (freshEntry [98] 6 dirEntryTypeFile) := by
  obtain ⟨ha, hb, -⟩ := slotEntry_nested
  rw [← ha, ← hb]
  refine ⟨lookup_first bytePerCluster_nested ?_, lookup_first bytePerCluster_nested ?_⟩
  · rw [ha]
    exact (freshEntry_live 97 (by decide) 5 dirEntryTypeSubdir).2
  · rw [hb]
    exact (freshEntry_live 98 (by decide) 6 dirEntryTypeFile).2

theorem rootClusterStart_nested : nested.superblock.rootClusterStart = 4 := by
  rw [superblock_nested, superblock_nestedClusters]
  rfl

theorem root_mem_nestedDirs : [4] ∈ nestedDirs :=
  Multiset.mem_cons_of_mem (Multiset.mem_singleton_self _)

/-- The name of the directory leads to it. -/
theorem walk_nested : nested.Walk .ideal nestedDirs [oneName] [4] [5] :=
  .cons root_mem_nestedDirs lookup_nested.1 rfl rfl (.nil [5])

theorem reads_findFirstCluster_nested :
    nested.Reads .ideal (findFirstClusterByPath onePath) ([5].headD endOfChain) :=
  reads_findFirstClusterByPath (l := [4]) owns_nested Env.ideal_reliable.reads
    nested_dirs_owned (fun _ hx => List.mem_singleton.mp hx ▸ oneName_isName)
    rootClusterStart_nested.symm walk_nested

end Server

end Fat
