import LLPFilesystem.FatRefusal

/-!
# The limits of the allocator and of 32 bits

Two things a caller relies on at the limits. An allocation is all or nothing:
a request the free list cannot serve is refused, and nothing changes
(`allocation_allOrNothing_iff`). And offsets and lengths are 64 bits wide: a
request that ends beyond `2 ^ 32` is refused as well (`wide_requests_refused_iff`).
Both hold except where the code misses them – one cluster short, and where the
reduced sum is small – and the theorems say exactly where.
-/

namespace Fat

variable {env : Env} {s t : Server} {n size offset pc : ℕ} {f o : List ℕ}
  {os os' dirs : Multiset (List ℕ)} {e : FatDirEntry} {buf : Buf} {path name : List UInt8}
  {pl : List ℕ} {toks : List (List UInt8)}

/-! ## Allocation -/

/-- **An allocation is all or nothing**: a request the free list `f` can serve
takes its first clusters, in order and zeroed, and leaves the rest; any other
is refused, and nothing changes. -/
structure Server.AllocatesAllOrNothing (s : Server) (env : Env) (f : List ℕ)
    (os : Multiset (List ℕ)) (n : ℕ) : Prop where
  granted : n ≤ f.length → ∃ t, (popFreeClusters n).run env s = .ok (f.headD endOfChain) t
    ∧ t.Owns ⟨f.drop n, f.take n ::ₘ os⟩
    ∧ ∀ c ∈ f.take n, ∀ i < s.superblock.bytePerCluster, t.cluster c i = 0
  refused : f.length < n → ∃ t, (popFreeClusters n).run env s = .ok endOfChain t
    ∧ s.Unchanged t

/-- A request the free list can serve. -/
theorem popFreeClusters_granted (hw : env.WritesFull) (h : s.Owns ⟨f, os⟩) (hn : 1 ≤ n)
    (hf : n ≤ f.length) :
    ∃ t, (popFreeClusters n).run env s = .ok (f.headD endOfChain) t
      ∧ t.Owns ⟨f.drop n, f.take n ::ₘ os⟩
      ∧ ∀ c ∈ f.take n, ∀ i < s.superblock.bytePerCluster, t.cluster c i = 0 := by
  obtain ⟨l, d, r, rfl, rfl⟩ := Server.Owns.exists_split hn hf
  have htake : ((l ++ [d]) ++ r).take (l.length + 1) = l ++ [d] :=
    List.take_left' (by simp)
  have hdrop : ((l ++ [d]) ++ r).drop (l.length + 1) = r := List.drop_left' (by simp)
  rw [htake, hdrop, ← h.freeClusterStart_eq]
  exact ⟨_, popFreeClusters_run h.geometry h.freeChain, h.popped env,
    fun c hc i hi => Server.cluster_popped hw hc hi⟩

/-- **When an allocation is all or nothing**: always, except for a request one
larger than the free list. -/
theorem Server.Owns.allocatesAllOrNothing_iff (hw : env.WritesFull) (h : s.Owns ⟨f, os⟩)
    (hn : 1 ≤ n) : s.AllocatesAllOrNothing env f os n ↔ n ≠ f.length + 1 := by
  constructor
  · rintro hall rfl
    obtain ⟨t, hrun, -⟩ := hall.refused (Nat.lt_succ_self _)
    rw [popFreeClusters_stop h.geometry h.freeChain] at hrun
    cases hrun
  · intro hne
    refine ⟨fun hf => popFreeClusters_granted hw h hn hf, fun hf => ⟨s, ?_, rfl, rfl, rfl⟩⟩
    exact popFreeClusters_refused h.geometry h.freeChain (show f.length + 1 < n by omega)

/-! ## Files -/

/-- When `fat_write` is refused. -/
theorem fatWrite_refuses_iff (hw : env.WritesFull) (h : s.Owns ⟨f, o ::ₘ os⟩)
    (hhead : o.headD endOfChain = e.firstCluster.toNat)
    (htype : e.type = dirEntryTypeFile)
    (hlook : (lookupTarget path).run env s = .ok (pc, e) t) (hsize : 0 < size)
    (q : ℤ → Prop) (hq : q (-enomem)) (hq' : ∀ r, 0 ≤ r → ¬ q r) (buf : Buf) :
    s.Refuses env (fatWrite path buf size offset) q
      ↔ o.length + f.length + 1 < s.superblock.need32 (offset + size) := by
  have ht : s.ReadTo t := (ReadOnly.lookupTarget env path).of_ok hlook
  rw [fatWrite, Server.refuses_bind hlook ht]
  obtain ⟨k, rfl⟩ := ht
  rw [updateFile_refuses_iff hw (h.preads k) hhead htype hq (fun r hr _ => hq' r hr),
    finalByteToWrite_eq hsize]
  exact Iff.rfl

/-- When an extending `fat_truncate` is refused. -/
theorem fatTruncate_refuses_iff (hw : env.WritesFull) (h : s.Owns ⟨f, o ::ₘ os⟩)
    (hhead : o.headD endOfChain = e.firstCluster.toNat)
    (htype : e.type = dirEntryTypeFile)
    (hlook : (lookupTarget path).run env s = .ok (pc, e) t) (hn : e.size.toNat < n) :
    s.Refuses env (fatTruncate path n) (· ≠ 0)
      ↔ o.length + f.length + 1 < s.superblock.need32 n
        ∧ (n - e.size.toNat) % 2 ^ 32 ≠ 2 ^ 32 - 12 := by
  have ht : s.ReadTo t := (ReadOnly.lookupTarget env path).of_ok hlook
  rw [fatTruncate, Server.refuses_bind hlook ht]
  obtain ⟨k, rfl⟩ := ht
  dsimp only
  rw [truncateFile, if_neg (by omega), if_pos hn]
  exact extendFile_refuses_iff hw (h.preads k) hhead htype hn

/-- **Allocation is all or nothing at every request size**, but for the sizes
that are one cluster beyond the free list: there the allocator reads the entry
of `END_OF_CHAIN`. A write or an extension of the file that a path leads to, if it
needs more clusters than are free, is refused under the same condition, the need
being what 32 bits keep of it; and an extension by `2 ^ 32 - 12` bytes takes the
refusal for success. -/
theorem allocation_allOrNothing_iff (hr : env.Reliable) (h : s.Owns ⟨f, os⟩) :
    (∀ n, 1 ≤ n → (s.AllocatesAllOrNothing env f os n ↔ n ≠ f.length + 1))
    ∧ ∀ dirs toks pl name e o os', s.Leads env os dirs toks pl name e → os = o ::ₘ os' →
      o.headD endOfChain = e.firstCluster.toNat → e.type = dirEntryTypeFile →
      (∀ buf size offset, 0 < size → f.length < s.lacking o (offset + size) →
        (s.Refuses env (fatWrite (pathOf (toks ++ [name])) buf size offset) (· = -enomem)
          ↔ o.length + f.length + 1 < s.superblock.need32 (offset + size)))
      ∧ ∀ n, e.size.toNat < n → f.length < s.lacking o n →
        (s.Refuses env (fatTruncate (pathOf (toks ++ [name])) n) (· ≠ 0)
          ↔ o.length + f.length + 1 < s.superblock.need32 n
            ∧ (n - e.size.toNat) % 2 ^ 32 ≠ 2 ^ 32 - 12) := by
  refine ⟨fun n hn => h.allocatesAllOrNothing_iff hr.writes hn, ?_⟩
  rintro dirs toks pl name e o os' hpath rfl hhead htype
  obtain ⟨k, hlook⟩ := (hpath.reads_lookupTarget h hr.reads fun _ hd => hd).run
  refine ⟨fun buf size offset hsize _ => ?_, fun n hn _ => ?_⟩
  · refine fatWrite_refuses_iff hr.writes h hhead htype hlook hsize
      (· = -enomem) rfl (fun r hr hre => ?_) buf
    rw [hre] at hr
    exact absurd hr (by decide)
  · exact fatTruncate_refuses_iff hr.writes h hhead htype hlook hn

/-- On the disk with one file three clusters are taken from the free list, and a write that
needs two clusters more than the file has and are free is refused. -/
theorem allocation_allOrNothing_oneFile :
    (Server.oneFile 0 fun _ => 0).AllocatesAllOrNothing .ideal (List.range' 6 2554)
      ([5] ::ₘ {[4]}) 3
    ∧ (Server.oneFile 0 fun _ => 0).Refuses .ideal
      (fatWrite (pathOf ([] ++ [oneName])) (fun _ => 1) 1 (2556 * 4096)) (· = -enomem) := by
  have h : (Server.oneFile 0 fun _ => 0).Owns ⟨List.range' 6 2554, [5] ::ₘ {[4]}⟩ :=
    Server.owns_oneFile 0 fun _ => 0
  have hpath : (Server.oneFile 0 fun _ => 0).Leads .ideal ([5] ::ₘ {[4]}) {[4]} [] [4] oneName
      (oneEntry 0) := Server.leads_oneFile Server.root_mem_owners .ideal 0 _
  obtain ⟨hpop, hfile⟩ := allocation_allOrNothing_iff Env.ideal_reliable h
  have hwrite := (hfile {[4]} [] [4] oneName (oneEntry 0) [5] {[4]} hpath rfl rfl rfl).1
    (fun _ => 1) 1 (2556 * 4096) (by decide)
  rw [Server.lacking, Superblock.need32, Server.bytePerCluster_oneFile, List.length_range']
    at hwrite
  refine ⟨(hpop 3 (by decide)).mpr ?_, (hwrite (by decide)).mpr (by decide)⟩
  rw [List.length_range']
  omega

/-- **A freshly formatted disk, asked for one cluster more than it has**, does
not refuse. -/
theorem formatted_not_allOrNothing :
    (Server.blank.formatted .ideal).Owns Server.freshPool
    ∧ ¬ (Server.blank.formatted .ideal).AllocatesAllOrNothing .ideal
      Server.freshPool.free Server.freshPool.owners 2556 := by
  have h := Server.owns_formatted Server.blank .ideal
  refine ⟨h, fun hall => ?_⟩
  have hiff := h.allocatesAllOrNothing_iff Env.ideal_reliable.writes (n := 2556) (by decide)
  rw [List.length_range'] at hiff
  exact hiff.mp hall rfl

/-! ## 32 bits -/

/-- **Requests that end beyond `2 ^ 32` are refused** – a write with a negative
error, a truncation with an error, and nothing changes – exactly when what 32
bits keep of the request still needs two clusters or more beyond the free list;
a truncation moreover has to add another number of bytes than the one that
reads as `-ENOMEM`. The path leads to the entry `e` of the file, whose chain is `o`. -/
theorem wide_requests_refused_iff (hr : env.Reliable) (h : s.Owns ⟨f, o ::ₘ os⟩)
    (hpath : s.Leads env (o ::ₘ os) dirs toks pl name e)
    (hhead : o.headD endOfChain = e.firstCluster.toNat)
    (htype : e.type = dirEntryTypeFile) :
    (∀ buf size offset, 0 < size → 2 ^ 32 - 1 < offset + size →
      (s.Refuses env (fatWrite (pathOf (toks ++ [name])) buf size offset) (· < 0)
        ↔ o.length + f.length + 1
          < (offset + size - 1) % 2 ^ 32 / s.superblock.bytePerCluster + 1))
    ∧ ∀ n, 2 ^ 32 ≤ n →
      (s.Refuses env (fatTruncate (pathOf (toks ++ [name])) n) (· ≠ 0)
        ↔ o.length + f.length + 1
            < (n - 1) % 2 ^ 32 / s.superblock.bytePerCluster + 1
          ∧ (n - e.size.toNat) % 2 ^ 32 ≠ 2 ^ 32 - 12) := by
  obtain ⟨k, hlook⟩ := (hpath.reads_lookupTarget h hr.reads fun _ hd => hd).run
  exact ⟨fun buf _ _ hsize _ => fatWrite_refuses_iff hr.writes h hhead htype hlook hsize
      (· < 0) (by decide) (fun _ hr hlt => absurd hlt (Int.not_lt.mpr hr)) buf,
    fun _ hn => fatTruncate_refuses_iff hr.writes h hhead htype hlook
      (Nat.lt_of_lt_of_le e.size.toNat_lt hn)⟩

/-- A write that ends at `2 ^ 32` on the disk with one file is refused. -/
theorem wide_requests_refused_oneFile :
    (Server.oneFile 0 fun _ => 0).Refuses .ideal
      (fatWrite (pathOf ([] ++ [oneName])) (fun _ => 1) 1 (2 ^ 32 - 1)) (· < 0) := by
  refine ((wide_requests_refused_iff Env.ideal_reliable (Server.owns_oneFile 0 fun _ => 0)
    (Server.leads_oneFile Server.root_mem_owners .ideal 0 _) rfl rfl).1 _ 1 (2 ^ 32 - 1)
    (by decide) (by decide)).mpr ?_
  rw [Server.bytePerCluster_oneFile, List.length_range']
  decide

/-- **A byte written at offset `2 ^ 32`** is not refused. -/
theorem oneFile_wide_not_refused :
    (Server.oneFile 0 fun _ => 0).Owns Server.onePool
    ∧ (Server.oneFile 0 fun _ => 0).Leads .ideal Server.onePool.owners {[4]} [] [4] oneName
      (oneEntry 0)
    ∧ ¬ (Server.oneFile 0 fun _ => 0).Refuses .ideal
      (fatWrite (pathOf ([] ++ [oneName])) (fun _ => 1) 1 (2 ^ 32)) (· < 0) := by
  have h := Server.owns_oneFile 0 fun _ => 0
  obtain ⟨k, hk⟩ :=
    (Server.lookupTarget_oneFile Env.ideal_reliable.reads 0 (fun _ => 0)).run
  have hk : (lookupTarget (pathOf ([] ++ [oneName]))).run .ideal (Server.oneFile 0 fun _ => 0)
      = .ok (4, oneEntry 0) _ := hk
  refine ⟨h, Server.leads_oneFile Server.root_mem_owners .ideal 0 _, ?_⟩
  rw [fatWrite_refuses_iff Env.ideal_reliable.writes h rfl rfl hk (by decide) (· < 0)
    (by decide) (fun _ hr hlt => absurd hlt (Int.not_lt.mpr hr)), Superblock.need32,
    Server.bytePerCluster_oneFile, List.length_range']
  decide

end Fat
