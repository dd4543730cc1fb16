import LLPFilesystem.FatChain
import Mathlib.Data.Finset.Card
import Mathlib.Order.Interval.Finset.Nat

/-!
# The allocator, run on a chain

The loops of the allocator walk chains, so each has its run on a linked
list: which cluster the walk leaves, and that it leaves nothing else. From
them come the runs of the operations – taking clusters from the front of the
free list, appending one to a chain, and giving a chain back – with the
server each leaves written out.

A request for `n` clusters against a free list of length `F` ends in one of
three ways, and the walk of `pop_free_clusters` (`popWalk_of_lt`,
`popWalk_of_length`, `popWalk_of_gt`) tells them apart: it stops on the last
cluster taken when `n ≤ F`, on `END_OF_CHAIN` with part of the request left
when `n > F + 1`, and on `END_OF_CHAIN` with *nothing* left when `n = F + 1`
– which the code takes for success.
-/

namespace Fat

variable {env : Env} {s : Server} {buf : Buf} {c d v i fuel n : ℕ}
  {l l₁ l₂ : List ℕ}

/-! ## Chains of data clusters -/

/-- **A chain of the table**: a linked list of data clusters. -/
structure Server.Chain (s : Server) (c : ℕ) (l : List ℕ) : Prop where
  linked : Linked s.next endOfChain c l
  data : ∀ d ∈ l, s.superblock.IsData d

namespace Server.Chain

theorem tail (h : s.Chain c (d :: l)) : s.Chain (s.next d) l :=
  ⟨h.linked.2.2, fun x hx => h.data x (List.mem_cons_of_mem d hx)⟩

theorem head_eq (h : s.Chain c (d :: l)) : c = d := h.linked.1

theorem head_data (h : s.Chain c (d :: l)) : s.superblock.IsData d :=
  h.data d List.mem_cons_self

theorem suffix (h : s.Chain c (l₁ ++ d :: l₂)) : s.Chain d (d :: l₂) :=
  ⟨h.linked.suffix, fun x hx => h.data x (List.mem_append_right l₁ hx)⟩

theorem nodup (h : s.Chain c l) : l.Nodup := h.linked.nodup

/-- The terminator is no data cluster, so a nonempty chain has a head. -/
theorem ne_end (h : s.Chain c l) (hl : l ≠ []) : c ≠ endOfChain := by
  intro hc
  subst hc
  exact hl h.linked.eq_nil

/-- **A chain has at most as many clusters as the table has entries.** -/
theorem length_le (h : s.Chain c l) :
    l.length ≤ s.superblock.clusterCount - (1 + s.superblock.clusterPerFat) := by
  have hsub : l.toFinset ⊆ Finset.Ico (1 + s.superblock.clusterPerFat)
      s.superblock.clusterCount := by
    intro x hx
    exact Finset.mem_Ico.mpr (h.data x (List.mem_toFinset.mp hx))
  have hcard := Finset.card_le_card hsub
  rwa [List.toFinset_card_of_nodup h.nodup, Nat.card_Ico] at hcard

/-- The walk bound of the table outlasts every chain. -/
theorem length_lt_fuel (hg : s.superblock.Geometry) (h : s.Chain c l) :
    l.length < s.chainFuel := by
  have hl := h.length_le
  have ht := hg.table
  unfold Server.chainFuel Server.fatSize
  omega

/-- A chain depends on the entries of its own clusters only. -/
theorem congr {s' : Server} (h : s.Chain c l)
    (hsb : ∀ d, s'.superblock.IsData d ↔ s.superblock.IsData d)
    (hn : ∀ d ∈ l, s'.next d = s.next d) : s'.Chain c l :=
  ⟨h.linked.congr hn, fun d hd => (hsb d).mpr (h.data d hd)⟩

end Server.Chain

/-! ## Walks -/

theorem followChain_run (hg : s.superblock.Geometry)
    (h : s.Chain c (l ++ [d])) (hf : (l ++ [d]).length ≤ fuel) :
    (followChain fuel c).run env s = .ok d s := by
  induction fuel generalizing c l with
  | zero =>
    rw [List.length_append] at hf
    exact absurd hf (by simp)
  | succ fuel ih =>
    cases l with
    | nil =>
      have hc : c = d := h.head_eq
      subst hc
      have hn : s.next c = endOfChain := h.linked.next_single
      rw [followChain, Prog.bind_ok _ (readFatEntry_run hg h.head_data),
        if_pos hn]
      rfl
    | cons a l =>
      have hc : c = a := h.head_eq
      subst hc
      have ht : s.Chain (s.next c) (l ++ [d]) := h.tail
      rw [followChain, Prog.bind_ok _ (readFatEntry_run hg h.head_data),
        if_neg (ht.ne_end (by simp))]
      exact ih ht (Nat.le_of_succ_le_succ hf)

/-- Skipping as many clusters as come before a part of the chain arrives at
that part, which may be the end. -/
theorem skipClusters_run (env : Env) (hg : s.superblock.Geometry)
    (h : s.Chain c (l₁ ++ l₂)) :
    ∃ d, (skipClusters l₁.length c).run env s = .ok d s ∧ s.Chain d l₂ := by
  induction l₁ generalizing c with
  | nil => exact ⟨c, rfl, h⟩
  | cons a l₁ ih =>
    have hc : c = a := h.head_eq
    subst hc
    obtain ⟨d, hd, hl⟩ := ih h.tail
    refine ⟨d, ?_, hl⟩
    rw [List.length_cons, skipClusters,
      Prog.bind_ok _ (readFatEntry_run hg h.head_data)]
    exact hd

/-- Skipping `i` clusters arrives at the `i`-th. -/
theorem skipClusters_getElem? (env : Env) (hg : s.superblock.Geometry)
    (h : s.Chain c l) (hi : l[i]? = some d) : (skipClusters i c).run env s = .ok d s := by
  obtain ⟨hlt, rfl⟩ := List.getElem?_eq_some_iff.mp hi
  have hsplit : s.Chain c (l.take i ++ l.drop i) := by rwa [List.take_append_drop]
  obtain ⟨d, hd, hl⟩ := skipClusters_run env hg hsplit
  rw [List.length_take_of_le (Nat.le_of_lt hlt)] at hd
  rw [hd, hl.linked.eq_headD, List.drop_eq_getElem_cons hlt]
  rfl

/-- Skipping past the end of a chain reads the entry of `END_OF_CHAIN`. -/
theorem skipClusters_stop (hg : s.superblock.Geometry) (h : s.Chain c l)
    (hi : l.length < i) :
    (skipClusters i c).run env s = .stop .outOfBounds s := by
  induction i generalizing c l with
  | zero => exact absurd hi (Nat.not_lt_zero _)
  | succ i ih =>
    cases l with
    | nil =>
      have hc : c = endOfChain := h.linked
      subst hc
      rw [skipClusters, Prog.bind_stop _ (readFatEntry_stop hg (by
        show 0 < _
        omega))]
    | cons a l =>
      have hc : c = a := h.head_eq
      subst hc
      rw [skipClusters, Prog.bind_ok _ (readFatEntry_run hg h.head_data)]
      exact ih h.tail (Nat.lt_of_succ_lt_succ hi)

theorem countFrom_run (hg : s.superblock.Geometry) (h : s.Chain c l)
    (hf : l.length < fuel) :
    (countFrom fuel c).run env s = .ok l.length s := by
  induction fuel generalizing c l with
  | zero => exact absurd hf (Nat.not_lt_zero _)
  | succ fuel ih =>
    rw [countFrom, Prog.bind_ok _ (Prog.run_get env s)]
    cases l with
    | nil =>
      have hc : c = endOfChain := h.linked
      subst hc
      rw [Prog.bind_ok _ (check_run (show _ ∨ endOfChain = 0 from Or.inr rfl) env s), if_pos rfl]
      rfl
    | cons a l =>
      have hc : c = a := h.head_eq
      subst hc
      have hle : s.superblock.rootClusterStart ≤ c := by
        rw [hg.root]
        exact h.head_data.1
      rw [Prog.bind_ok _ (check_run (Or.inl hle) env s),
        if_neg h.head_data.ne_end,
        Prog.bind_ok _ (readFatEntry_run hg h.head_data),
        Prog.bind_ok _ (ih h.tail (Nat.lt_of_succ_lt_succ hf))]
      show Outcome.ok (1 + l.length) s = _
      rw [Nat.add_comm, List.length_cons]

/-- **Counting a chain gives its length.** -/
theorem countClusterInChain_run (hg : s.superblock.Geometry) (h : s.Chain c l) :
    (countClusterInChain c).run env s = .ok l.length s := by
  rw [countClusterInChain, Prog.bind_ok _ (Prog.run_get env s)]
  exact countFrom_run hg h (h.length_lt_fuel hg)

/-- **The last cluster of a chain.** -/
theorem getLastClusterInChain_run (hg : s.superblock.Geometry)
    (h : s.Chain c (l ++ [d])) :
    (getLastClusterInChain c).run env s = .ok d s := by
  rw [getLastClusterInChain, Prog.bind_ok _ (Prog.run_get env s),
    if_neg (h.ne_end (by simp))]
  exact followChain_run hg h (Nat.le_of_lt (h.length_lt_fuel hg))

/-! ## The walk along the free list -/

/-- The request ends inside the list: the walk stops on its last cluster. -/
theorem popWalk_of_lt (hg : s.superblock.Geometry)
    (h : s.Chain c (l₁ ++ d :: l₂)) :
    (popWalk l₁.length c).run env s = .ok (0, d) s := by
  induction l₁ generalizing c with
  | nil =>
    have hc : c = d := h.head_eq
    subst hc
    rfl
  | cons a l₁ ih =>
    have hc : c = a := h.head_eq
    subst hc
    rw [List.length_cons, popWalk, if_neg h.head_data.ne_end,
      Prog.bind_ok _ (readFatEntry_run hg h.head_data)]
    exact ih h.tail

/-- **The request is one longer than the list**: the walk arrives at
`END_OF_CHAIN` with nothing left of the request. -/
theorem popWalk_of_length (hg : s.superblock.Geometry) (h : s.Chain c l) :
    (popWalk l.length c).run env s = .ok (0, endOfChain) s := by
  induction l generalizing c with
  | nil =>
    have hc : c = endOfChain := h.linked
    subst hc
    rfl
  | cons a l ih =>
    have hc : c = a := h.head_eq
    subst hc
    rw [List.length_cons, popWalk, if_neg h.head_data.ne_end,
      Prog.bind_ok _ (readFatEntry_run hg h.head_data)]
    exact ih h.tail

/-- The request is longer by more than one: part of it is left. -/
theorem popWalk_of_gt (hg : s.superblock.Geometry) (h : s.Chain c l)
    (hn : l.length < n) :
    (popWalk n c).run env s = .ok (n - l.length, endOfChain) s := by
  induction l generalizing c n with
  | nil =>
    have hc : c = endOfChain := h.linked
    subst hc
    obtain ⟨m, rfl⟩ := Nat.exists_eq_succ_of_ne_zero (Nat.ne_of_gt hn)
    rw [popWalk, if_pos rfl]
    rfl
  | cons a l ih =>
    have hc : c = a := h.head_eq
    subst hc
    obtain ⟨m, rfl⟩ := Nat.exists_eq_succ_of_ne_zero (Nat.ne_of_gt
      (Nat.lt_of_le_of_lt (Nat.zero_le _) hn))
    rw [popWalk, if_neg h.head_data.ne_end,
      Prog.bind_ok _ (readFatEntry_run hg h.head_data),
      ih h.tail (Nat.lt_of_succ_lt_succ hn), List.length_cons,
      Nat.succ_sub_succ]

/-! ## The operations -/

namespace Server

/-- The server after the superblock has been written to its cluster. -/
def writeSuperblock (s : Server) (env : Env) : Server :=
  s.writeCluster env
    ((s.newCluster env).blit 0 s.superblock.bytes superblockSize) 0

/-- The server after one buffer has been written to several clusters. -/
def writeClusters (s : Server) (env : Env) (buf : Buf) (l : List ℕ) : Server :=
  l.foldl (fun s c => s.writeCluster env buf c) s

/-- The server after the clusters `l`, of which `d` is the last, have been
taken from the free list, `rest` being what remains of it. -/
def popped (s : Server) (env : Env) (l : List ℕ) (d rest : ℕ) : Server :=
  (((s.setFree rest).writeSuperblock env).linkFat env d endOfChain).writeClusters
    env (s.newCluster env) l

/-- The server after a chain from `c` to `d` has been put in front of the
free list. -/
def pushed (s : Server) (env : Env) (c d : ℕ) : Server :=
  ((s.linkFat env d s.superblock.freeClusterStart).setFree c).writeSuperblock env

@[simp] theorem superblock_writeSuperblock :
    (s.writeSuperblock env).superblock = s.superblock := rfl

@[simp] theorem next_writeSuperblock (d : ℕ) :
    (s.writeSuperblock env).next d = s.next d := rfl

@[simp] theorem superblock_writeClusters :
    (s.writeClusters env buf l).superblock = s.superblock := by
  induction l generalizing s with
  | nil => rfl
  | cons a l ih => exact ih

@[simp] theorem fatTable_writeClusters :
    (s.writeClusters env buf l).fatTable = s.fatTable := by
  induction l generalizing s with
  | nil => rfl
  | cons a l ih => exact ih

@[simp] theorem next_writeClusters (d : ℕ) :
    (s.writeClusters env buf l).next d = s.next d := by
  unfold next
  rw [fatTable_writeClusters, superblock_writeClusters]

/-- The superblock write touches no data cluster. -/
theorem cluster_writeSuperblock (hd : s.superblock.IsData d)
    (hi : i < s.superblock.bytePerCluster) :
    (s.writeSuperblock env).cluster d i = s.cluster d i :=
  cluster_writeCluster_of_ne hd.ne_end hi

/-- Clusters that were not written hold what they held. -/
theorem cluster_writeClusters_of_notMem (hd : d ∉ l)
    (hi : i < s.superblock.bytePerCluster) :
    (s.writeClusters env buf l).cluster d i = s.cluster d i := by
  induction l generalizing s with
  | nil => rfl
  | cons a l ih =>
    have hne : d ≠ a := fun h => hd (by rw [h]; exact List.mem_cons_self)
    have htl : d ∉ l := fun h => hd (List.mem_cons_of_mem a h)
    exact (ih (s := s.writeCluster env buf a) htl hi).trans
      (cluster_writeCluster_of_ne hne hi)

/-- Clusters that were written hold the buffer. -/
theorem cluster_writeClusters (hw : env.WritesFull) (hd : d ∈ l)
    (hi : i < s.superblock.bytePerCluster) :
    (s.writeClusters env buf l).cluster d i = buf i := by
  induction l generalizing s with
  | nil => exact absurd hd List.not_mem_nil
  | cons a l ih =>
    by_cases hdl : d ∈ l
    · exact ih (s := s.writeCluster env buf a) hdl hi
    · rcases List.mem_cons.mp hd with rfl | h
      · exact (cluster_writeClusters_of_notMem
          (s := s.writeCluster env buf d) hdl hi).trans
          (cluster_writeCluster hw hi)
      · exact absurd h hdl

/-- The buffer the allocator zeroes clusters with is zero. -/
theorem newCluster_of_lt (hi : i < s.superblock.bytePerCluster) :
    s.newCluster env i = 0 := if_pos hi

@[simp] theorem superblock_popped {rest : ℕ} :
    (s.popped env l d rest).superblock = (s.setFree rest).superblock := by
  rw [popped, superblock_writeClusters]
  rfl

@[simp] theorem superblock_pushed :
    (s.pushed env c d).superblock = (s.setFree c).superblock := rfl

/-- The chain that was taken ends where it was cut. -/
theorem next_popped_self {rest : ℕ} :
    (s.popped env l d rest).next d = endOfChain := by
  rw [popped, next_writeClusters]
  exact next_linkFat_self (by unfold endOfChain; norm_num)

/-- No other entry changes when clusters are taken. -/
theorem next_popped_of_ne {rest x : ℕ} (hd : s.superblock.IsData d)
    (hx : s.superblock.IsData x) (h : x ≠ d) :
    (s.popped env l d rest).next x = s.next x := by
  rw [popped, next_writeClusters]
  exact next_linkFat_of_ne (s := (s.setFree rest).writeSuperblock env) hd hx h

/-- The chain that was put back is followed by the old free list. -/
theorem next_pushed_self (h : s.superblock.freeClusterStart < 2 ^ 32) :
    (s.pushed env c d).next d = s.superblock.freeClusterStart :=
  next_linkFat_self h

/-- No other entry changes when a chain is put back. -/
theorem next_pushed_of_ne {x : ℕ} (hd : s.superblock.IsData d)
    (hx : s.superblock.IsData x) (h : x ≠ d) :
    (s.pushed env c d).next x = s.next x := next_linkFat_of_ne hd hx h

/-- **Taking clusters changes no other cluster of the disk.** -/
theorem cluster_popped_of_notMem {rest x : ℕ} (hg : s.superblock.Geometry)
    (hd : s.superblock.IsData d) (hx : s.superblock.IsData x) (hxl : x ∉ l)
    (hi : i < s.superblock.bytePerCluster) :
    (s.popped env l d rest).cluster x i = s.cluster x i := by
  have hz : (s.popped env l d rest).cluster x i
      = (((s.setFree rest).writeSuperblock env).linkFat env d endOfChain).cluster x i :=
    cluster_writeClusters_of_notMem
      (s := ((s.setFree rest).writeSuperblock env).linkFat env d endOfChain) hxl hi
  rw [hz, cluster_linkFat (s := (s.setFree rest).writeSuperblock env)
    hg.setFree hd hx hi]
  exact cluster_writeSuperblock (s := s.setFree rest) hx hi

/-- The clusters taken are zero. -/
theorem cluster_popped {rest x : ℕ} (hw : env.WritesFull) (hxl : x ∈ l)
    (hi : i < s.superblock.bytePerCluster) :
    (s.popped env l d rest).cluster x i = 0 :=
  (cluster_writeClusters
    (s := ((s.setFree rest).writeSuperblock env).linkFat env d endOfChain)
    hw hxl hi).trans (newCluster_of_lt hi)

/-- Putting a chain back changes no data cluster of the disk. -/
theorem cluster_pushed {x : ℕ} (hg : s.superblock.Geometry)
    (hd : s.superblock.IsData d) (hx : s.superblock.IsData x)
    (hi : i < s.superblock.bytePerCluster) :
    (s.pushed env c d).cluster x i = s.cluster x i :=
  (cluster_writeSuperblock (s := (s.linkFat env d _).setFree c) hx hi).trans
    (cluster_linkFat hg hd hx hi)

end Server

theorem writeSuperblockToDisk_run (hg : s.superblock.Geometry) :
    writeSuperblockToDisk.run env s
      = .ok (s.writeStatus env) (s.writeSuperblock env) := by
  have hroom : 0 < s.superblock.clusterCount :=
    Nat.lt_of_le_of_lt (Nat.zero_le _) hg.room
  have hnew : getNewCluster.run env s = .ok (s.newCluster env) s := rfl
  rw [writeSuperblockToDisk, Prog.bind_ok _ hnew,
    Prog.bind_ok _ (Prog.run_get env s)]
  exact writeClusterToDisk_run hg hroom

theorem zeroClusters_run (hg : s.superblock.Geometry)
    (h : s.Chain c l) (hl : l ≠ []) (hf : l.length ≤ fuel) :
    (zeroClusters buf fuel c).run env s = .ok () (s.writeClusters env buf l) := by
  induction fuel generalizing c l s with
  | zero => exact absurd (List.eq_nil_of_length_eq_zero (Nat.le_zero.mp hf)) hl
  | succ fuel ih =>
    cases l with
    | nil => exact absurd rfl hl
    | cons a l =>
      have hc : c = a := h.head_eq
      subst hc
      have hcd := h.head_data
      rw [zeroClusters, Prog.bind_ok _ (writeClusterToDisk_run hg hcd.2),
        Prog.bind_ok _ (readFatEntry_run (s := s.writeCluster env buf c) hg hcd)]
      cases l with
      | nil =>
        rw [Server.next_writeCluster, if_pos h.linked.next_single]
        rfl
      | cons b l =>
        have ht : s.Chain (s.next c) (b :: l) := h.tail
        rw [Server.next_writeCluster, if_neg (ht.ne_end (List.cons_ne_nil b l))]
        exact ih (s := s.writeCluster env buf c) hg
          ⟨ht.linked, ht.data⟩ (List.cons_ne_nil b l) (Nat.le_of_succ_le_succ hf)

/-- **A request the free list can serve** takes its first clusters, in
order, and leaves the rest. -/
theorem popFreeClusters_run (hg : s.superblock.Geometry)
    (h : s.Chain s.superblock.freeClusterStart ((l₁ ++ [d]) ++ l₂)) :
    (popFreeClusters (l₁.length + 1)).run env s
      = .ok s.superblock.freeClusterStart
        (s.popped env (l₁ ++ [d]) d (s.next d)) := by
  have h' : s.Chain s.superblock.freeClusterStart (l₁ ++ d :: l₂) := by
    rwa [List.append_assoc] at h
  have hd : s.superblock.IsData d := h'.suffix.head_data
  set s₁ := (s.setFree (s.next d)).writeSuperblock env with hs₁
  set s₂ := s₁.linkFat env d endOfChain with hs₂
  -- after the cut, the clusters taken are a chain of their own
  have hcut : s₂.Chain s.superblock.freeClusterStart (l₁ ++ [d]) := by
    refine ⟨h'.linked.cut ?_ (fun x hx => ?_), fun x hx => ?_⟩
    · exact Server.next_linkFat_self (by unfold endOfChain; norm_num)
    · have hxd : x ≠ d := by
        intro hxd
        subst hxd
        have hn := h'.nodup
        rw [List.nodup_append] at hn
        exact hn.2.2 x hx x List.mem_cons_self rfl
      exact Server.next_linkFat_of_ne (s := s₁) hd
        (h'.data x (List.mem_append_left _ hx)) hxd
    · exact h.data x (List.mem_append_left _ hx)
  have hlen : (l₁ ++ [d]).length ≤ s.chainFuel :=
    Nat.le_of_lt (Server.Chain.length_lt_fuel (s := s₂) hg.setFree hcut)
  rw [popFreeClusters, Prog.bind_ok _ (check_run (Nat.succ_pos _) env s),
    Prog.bind_ok _ (Prog.run_get env s), Nat.add_sub_cancel,
    Prog.bind_ok _ (popWalk_of_lt hg h')]
  dsimp only
  rw [if_neg (Nat.lt_irrefl 0), Prog.bind_ok _ (readFatEntry_run hg hd),
    Prog.bind_ok _ (Prog.run_modify _ env s),
    Prog.bind_ok _ (writeSuperblockToDisk_run hg.setFree),
    Prog.bind_ok _ (updateFatEntry_run (s := s₁) hg.setFree hd),
    Prog.bind_ok _ (show getNewCluster.run env s₂ = .ok (s.newCluster env) s₂ from rfl),
    Prog.bind_ok _ (zeroClusters_run (s := s₂) hg.setFree hcut (by simp) hlen)]
  rfl

/-- **A request one larger than the free list** is taken for served, and the
code reads the FAT entry of `END_OF_CHAIN`. -/
theorem popFreeClusters_stop (hg : s.superblock.Geometry)
    (h : s.Chain s.superblock.freeClusterStart l) :
    (popFreeClusters (l.length + 1)).run env s = .stop .outOfBounds s := by
  rw [popFreeClusters, Prog.bind_ok _ (check_run (Nat.succ_pos _) env s),
    Prog.bind_ok _ (Prog.run_get env s), Nat.add_sub_cancel,
    Prog.bind_ok _ (popWalk_of_length hg h)]
  dsimp only
  rw [if_neg (Nat.lt_irrefl 0), Prog.bind_stop _ (readFatEntry_stop hg (by
    unfold endOfChain
    omega))]

/-- **A request larger by more than one** is refused, and nothing changes. -/
theorem popFreeClusters_refused (hg : s.superblock.Geometry)
    (h : s.Chain s.superblock.freeClusterStart l) (hn : l.length + 1 < n) :
    (popFreeClusters n).run env s = .ok endOfChain s := by
  rw [popFreeClusters, Prog.bind_ok _ (check_run (by omega) env s),
    Prog.bind_ok _ (Prog.run_get env s),
    Prog.bind_ok _ (popWalk_of_gt hg h (by omega))]
  dsimp only
  rw [if_pos (by omega)]
  rfl

/-- Putting a chain of known last cluster in front of the free list. -/
theorem pushFreeList_run (hg : s.superblock.Geometry) (hd : s.superblock.IsData d) :
    (pushFreeList c d).run env s
      = .ok (((s.linkFat env d s.superblock.freeClusterStart).setFree
          c).writeStatus env) (s.pushed env c d) := by
  rw [pushFreeList, Prog.bind_ok _ (Prog.run_get env s),
    Prog.bind_ok _ (updateFatEntry_run hg hd),
    Prog.bind_ok _ (Prog.run_modify _ env _)]
  exact writeSuperblockToDisk_run (s := (s.linkFat env d _).setFree c) hg.setFree

/-- **Giving a chain back.** -/
theorem freeClusterChain_run (hg : s.superblock.Geometry)
    (h : s.Chain c (l ++ [d])) :
    (freeClusterChain c).run env s = .ok () (s.pushed env c d) := by
  rw [freeClusterChain, Prog.bind_ok _ (Prog.run_get env s),
    Prog.bind_ok _ (followChain_run hg h (Nat.le_of_lt (h.length_lt_fuel hg))),
    Prog.bind_ok _ (pushFreeList_run hg (h.data d (by simp)))]
  rfl

end Fat
