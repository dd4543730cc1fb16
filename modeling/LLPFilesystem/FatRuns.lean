import LLPFilesystem.FatFormat

/-!
# Runs of the allocator

The operations of the file system change the FAT in five ways: they take
clusters for a new chain, link clusters behind a chain that grows, append a
single cluster to a directory, cut a file that shrinks, and give a whole
chain back. `AllocOp` lists them with the code that performs each, and
`AllocStep` is one of them, taken whenever the operations would take it.

Each is one step of the pool the table stores (`AllocOp.code_run`). A run
from the formatted state therefore keeps the clusters partitioned
(`partitioned_of_run`), however the steps are ordered.
-/

namespace Fat

variable {env : Env} {s t : Server} {hs hs' : Multiset ℕ} {p : Pool ℕ} {op : AllocOp}

/-- **A step of the allocator.** Chains are named by their first cluster. -/
inductive AllocOp where
  /-- Take `n` clusters for a new owner. -/
  | pop (n : ℕ)
  /-- Grow the chain of an owner by `n` clusters. -/
  | grow (head n : ℕ)
  /-- Append one cluster to the chain of an owner. -/
  | add (head : ℕ)
  /-- Cut the chain of an owner behind its `i`-th cluster. -/
  | cut (head i : ℕ)
  /-- Give the chain of an owner back. -/
  | release (head : ℕ)

namespace AllocOp

/-- The code that performs a step. It returns the first cluster it is
about. -/
def code : AllocOp → FatM ℕ
  | pop n => popFreeClusters n
  | grow head n => do
    let numClusterAllocated ← countClusterInChain head
    let _ ← growFile head numClusterAllocated (numClusterAllocated + n)
    return head
  | add head => addFreeCluster head
  | cut head i => do
    let newLastCluster ← skipClusters i head
    cutChain newLastCluster
    return head
  | release head => do
    freeClusterChain head
    return head

/-- When the operations take a step, `hs` being the first clusters of the
owners: a request is served by the free list, a cut is behind a cluster of
the chain, and the root directory is not given back. -/
def Enabled (env : Env) (s : Server) (hs : Multiset ℕ) : AllocOp → Prop
  | pop n => 1 ≤ n ∧ ∃ free, fatStatfs.run env s = .ok free s ∧ n ≤ free
  | grow head n => head ∈ hs ∧ 1 ≤ n
    ∧ ∃ free, fatStatfs.run env s = .ok free s ∧ n ≤ free
  | add head => head ∈ hs ∧ ∃ free, fatStatfs.run env s = .ok free s ∧ 1 ≤ free
  | cut head i => head ∈ hs
    ∧ ∃ n, (countClusterInChain head).run env s = .ok n s ∧ i < n
  | release head => head ∈ hs ∧ head ≠ s.superblock.rootClusterStart

/-- The owners after a step that returned `c`. -/
def heads (c : ℕ) (hs : Multiset ℕ) : AllocOp → Multiset ℕ
  | pop _ => c ::ₘ hs
  | grow _ _ => hs
  | add _ => hs
  | cut _ _ => hs
  | release head => hs.erase head

end AllocOp

/-- One step of the allocator, from a server and the first clusters of its
owners. -/
def AllocStep (env : Env) (x y : Server × Multiset ℕ) : Prop :=
  ∃ op : AllocOp, ∃ c, op.Enabled env x.1 x.2 ∧ op.code.run env x.1 = .ok c y.1
    ∧ y.2 = op.heads c x.2

/-- **The clusters are partitioned**: the free list and the chains of the
owners all end, and together they contain every data cluster exactly once. -/
structure Server.Partitioned (t : Server) (env : Env) (hs : Multiset ℕ)
    (p : Pool ℕ) : Prop where
  free : Linked t.next endOfChain t.superblock.freeClusterStart p.free
  owners : ∀ o ∈ p.owners, Linked t.next endOfChain (o.headD endOfChain) o
  heads : p.owners.map (·.headD endOfChain) = hs
  root : t.superblock.rootClusterStart ∈ hs
  /-- Disjointness, range and covering in one. -/
  cells : ∀ c, p.cells.count c
    = if 1 + t.superblock.clusterPerFat ≤ c ∧ c < t.superblock.clusterCount then 1 else 0
  countFree : fatStatfs.run env t = .ok p.free.length t
  countOwner : ∀ o ∈ p.owners,
    (countClusterInChain (o.headD endOfChain)).run env t = .ok o.length t
  total : p.free.length + (p.owners.map List.length).sum
    = t.superblock.clusterCount - t.superblock.clusterPerFat - 1
  /-- Every step the operations may take next returns. -/
  progress : env.WritesFull → ∀ op : AllocOp, op.Enabled env t hs →
    ∃ c u, op.code.run env t = .ok c u

/-! ## One step -/

theorem fatStatfs_run (h : s.Owns p) :
    fatStatfs.run env s = .ok p.free.length s := by
  rw [fatStatfs, Prog.bind_ok _ (Prog.run_get env s)]
  exact countClusterInChain_run h.geometry h.freeChain

/-- The owner whose chain starts at a given cluster. -/
theorem exists_owner (h : s.Owns p) (hh : p.owners.map (·.headD endOfChain) = hs)
    {head : ℕ} (hm : head ∈ hs) :
    ∃ o e os, p.owners = (o ++ [e]) ::ₘ os ∧ (o ++ [e]).headD endOfChain = head
      ∧ hs = head ::ₘ os.map (·.headD endOfChain) := by
  rw [← hh] at hm
  obtain ⟨o, ho, rfl⟩ := Multiset.mem_map.mp hm
  obtain ⟨os, hos⟩ := Multiset.exists_cons_of_mem ho
  rcases o.eq_nil_or_concat with rfl | ⟨o', e, rfl⟩
  · exact absurd rfl (h.owners _ ho).1
  · rw [List.concat_eq_append] at *
    refine ⟨o', e, os, hos, rfl, ?_⟩
    rw [← hh, hos, Multiset.map_cons]

/-- **A step of the allocator is a step of the pool**, and it returns unless
its last write fails. -/
theorem AllocOp.code_run (h : s.Owns p)
    (hh : p.owners.map (·.headD endOfChain) = hs) (he : op.Enabled env s hs) :
    ∃ c t q, Pool.Step p q ∧ t.Owns q
      ∧ (∃ v, t.superblock = (s.setFree v).superblock)
      ∧ q.owners.map (·.headD endOfChain) = op.heads c hs
      ∧ (op.code.run env s = .ok c t
        ∨ ¬ env.WritesFull ∧ op.code.run env s = .stop .assertion t) := by
  cases op with
  | pop n =>
    obtain ⟨f, os⟩ := p
    obtain ⟨hn, free, hfree, hle⟩ := he
    rw [fatStatfs_run h] at hfree
    obtain rfl : f.length = free := by injection hfree
    obtain ⟨l, d, r, rfl, rfl⟩ := Server.Owns.exists_split hn hle
    refine ⟨_, _, _, .alloc (l ++ [d]) r os (by simp), h.popped env,
      ⟨_, Server.superblock_popped⟩, ?_, Or.inl (popFreeClusters_run h.geometry h.freeChain)⟩
    rw [Multiset.map_cons, h.freeClusterStart_eq, AllocOp.heads, ← hh]
    cases l <;> rfl
  | grow head n =>
    obtain ⟨hm, hn, free, hfree, hle⟩ := he
    obtain ⟨o, e, os, ho, rfl, hos⟩ := exists_owner h hh hm
    obtain ⟨f, _⟩ := p
    obtain rfl := ho
    rw [fatStatfs_run h] at hfree
    obtain rfl : f.length = free := by injection hfree
    obtain ⟨l, d, r, rfl, rfl⟩ := Server.Owns.exists_split hn hle
    have hchain := h.chain (Multiset.mem_cons_self _ _)
    refine ⟨(o ++ [e]).headD endOfChain, s.grown env (l ++ [d]) d e, _,
      .grow (l ++ [d]) r (o ++ [e]) os, h.grown env, ⟨_, Server.superblock_grown⟩, ?_,
      Or.inl ?_⟩
    · rw [AllocOp.heads, hos, Multiset.map_cons]
      cases o <;> rfl
    · rw [AllocOp.code, Prog.bind_ok _ (countClusterInChain_run h.geometry hchain),
        Prog.bind_ok _ (growFile_run h rfl)]
      rfl
  | add head =>
    obtain ⟨hm, free, hfree, hle⟩ := he
    obtain ⟨o, e, os, ho, rfl, hos⟩ := exists_owner h hh hm
    obtain ⟨f, _⟩ := p
    obtain rfl := ho
    rw [fatStatfs_run h] at hfree
    obtain rfl : f.length = free := by injection hfree
    obtain ⟨d, r, rfl⟩ := List.exists_cons_of_length_pos hle
    refine ⟨d, s.grown env [d] d e, _, .grow [d] r (o ++ [e]) os,
      h.grown (l := []) env, ⟨_, Server.superblock_grown⟩, ?_, Or.inl (addFreeCluster_run h)⟩
    rw [AllocOp.heads, hos, Multiset.map_cons]
    cases o <;> rfl
  | cut head i =>
    obtain ⟨hm, n, hn, hi⟩ := he
    obtain ⟨o, e, os, ho, rfl, hos⟩ := exists_owner h hh hm
    obtain ⟨f, _⟩ := p
    obtain rfl := ho
    have hchain := h.chain (Multiset.mem_cons_self _ _)
    rw [countClusterInChain_run h.geometry hchain] at hn
    obtain rfl : (o ++ [e]).length = n := by injection hn
    obtain ⟨l, d, r, hsplit, hlen⟩ := Server.Owns.exists_split (Nat.succ_pos i) hi
    obtain rfl : l.length = i := Nat.succ_injective hlen
    have hp : Pool.Step ⟨f, (o ++ [e]) ::ₘ os⟩ ⟨r ++ f, (l ++ [d]) ::ₘ os⟩ := by
      rw [hsplit]
      exact .cut f (l ++ [d]) r os (by simp)
    rw [List.append_assoc, List.singleton_append] at hsplit
    rw [hsplit] at h hchain
    obtain ⟨c, hskip, hc⟩ := skipClusters_run env h.geometry hchain
    obtain rfl : c = d := hc.head_eq
    refine ⟨(o ++ [e]).headD endOfChain, s.shrunk env c r, _, hp, h.shrunk env,
      Server.exists_superblock_shrunk, ?_, ?_⟩
    · rw [AllocOp.heads, hos, Multiset.map_cons, hsplit]
      cases l <;> rfl
    · obtain ⟨result, hcut, hres⟩ := cutChain_check h env
      rw [hsplit, AllocOp.code, Prog.bind_ok _ hskip]
      by_cases hr : result = -1
      · rw [check_stop (by simpa using hr)] at hcut
        refine Or.inr ⟨fun hw => absurd (hres fun k _ => hw k) (by rw [hr]; decide), ?_⟩
        exact Prog.bind_stop _ hcut
      · rw [check_run hr] at hcut
        exact Or.inl (Prog.bind_ok _ hcut)
  | release head =>
    obtain ⟨hm, -⟩ := he
    obtain ⟨o, e, os, ho, rfl, hos⟩ := exists_owner h hh hm
    obtain ⟨f, _⟩ := p
    obtain rfl := ho
    have hchain := h.chain (Multiset.mem_cons_self _ _)
    refine ⟨(o ++ [e]).headD endOfChain, s.pushed env _ e, _,
      .release f (o ++ [e]) os, h.pushed env, ⟨_, Server.superblock_pushed⟩, ?_,
      Or.inl ?_⟩
    · rw [AllocOp.heads, hos, Multiset.erase_cons_head]
    · rw [AllocOp.code, Prog.bind_ok _ (freeClusterChain_run h.geometry hchain)]
      rfl

/-! ## Runs -/

/-- A server that owns a pool whose cells are the data clusters is
partitioned. -/
theorem Server.Owns.partitioned (h : s.Owns p)
    (hh : p.owners.map (·.headD endOfChain) = hs)
    (hroot : s.superblock.rootClusterStart ∈ hs)
    (hc : ∀ c, c ∈ p.cells ↔ s.superblock.IsData c) : s.Partitioned env hs p where
  free := h.free
  owners := fun o ho => (h.owners o ho).2
  heads := hh
  root := hroot
  cells := fun c => by
    by_cases hd : s.superblock.IsData c
    · exact (Multiset.count_eq_one_of_mem h.nodup ((hc c).mpr hd)).trans
        (if_pos hd).symm
    · exact (Multiset.count_eq_zero.mpr (fun hm => hd ((hc c).mp hm))).trans
        (if_neg hd).symm
  countFree := fatStatfs_run h
  countOwner := fun o ho => countClusterInChain_run h.geometry (h.chain ho)
  total := by
    have hcells : p.cells = (Finset.Ico (1 + s.superblock.clusterPerFat)
        s.superblock.clusterCount).val :=
      (Multiset.Nodup.ext h.nodup (Finset.nodup _)).mpr (fun c => by
        rw [hc c, Finset.mem_val, Finset.mem_Ico]
        exact Iff.rfl)
    rw [← Pool.card_cells, hcells, Finset.card_val, Nat.card_Ico, Nat.sub_sub,
      Nat.add_comm 1]
  progress := fun hw op he => by
    obtain ⟨c, t, q, -, -, -, -, hrun | ⟨hnw, -⟩⟩ := AllocOp.code_run h hh he
    · exact ⟨c, t, hrun⟩
    · exact absurd hw hnw

/-- The root directory stays an owner. -/
theorem AllocOp.root_mem_heads (he : op.Enabled env s hs)
    (hroot : s.superblock.rootClusterStart ∈ hs) (c : ℕ) :
    s.superblock.rootClusterStart ∈ op.heads c hs := by
  cases op with
  | pop n => exact Multiset.mem_cons_of_mem hroot
  | grow head n => exact hroot
  | add head => exact hroot
  | cut head i => exact hroot
  | release head => exact (Multiset.mem_erase_of_ne (Ne.symm he.2)).mpr hroot

/-- **A run of the allocator is a run of the pool.** -/
theorem exists_pool_of_run (h : s.Owns p)
    (hh : p.owners.map (·.headD endOfChain) = hs)
    (hroot : s.superblock.rootClusterStart ∈ hs)
    (hr : Relation.ReflTransGen (AllocStep env) (s, hs) (t, hs')) :
    ∃ q, Pool.Reachable p q ∧ t.Owns q
      ∧ (∃ v, t.superblock = (s.setFree v).superblock)
      ∧ q.owners.map (·.headD endOfChain) = hs'
      ∧ t.superblock.rootClusterStart ∈ hs' := by
  generalize hy : (t, hs') = y at hr
  induction hr generalizing t hs' with
  | refl =>
    obtain ⟨rfl, rfl⟩ := Prod.mk.inj hy
    exact ⟨p, .refl, h, ⟨t.superblock.freeClusterStart, rfl⟩, hh, hroot⟩
  | tail _ hstep ih =>
    subst hy
    obtain ⟨op, c, he, hrun, rfl⟩ := hstep
    obtain ⟨q, hq, ho, ⟨v, hv⟩, hqh, hqr⟩ := ih rfl
    obtain ⟨c', t', q', hs', ho', ⟨v', hv'⟩, hh', hcode⟩ := AllocOp.code_run ho hqh he
    rcases hcode with hcode | ⟨-, hcode⟩
    · rw [hcode] at hrun
      injection hrun with hc ht
      subst hc ht
      refine ⟨q', hq.tail hs', ho', ⟨v', ?_⟩, hh', ?_⟩
      · rw [hv', Server.setFree, hv]
        rfl
      · rw [hv']
        exact AllocOp.root_mem_heads he hqr c'
    · rw [hcode] at hrun
      cases hrun

/-- **In every state the allocator can reach from the formatted one, the
clusters are partitioned**: every chain walk ends, no cluster is in two
chains or lost, and what is free and what is owned always add up to the data
clusters of the disk. -/
theorem partitioned_of_run {s₀ : Server} (hf : formatDisk.run env s₀ = .ok () s)
    (hr : Relation.ReflTransGen (AllocStep env)
      (s, {s.superblock.rootClusterStart}) (t, hs)) :
    ∃ p, t.Partitioned env hs p := by
  obtain rfl := formatDisk_ok hf
  have hroot : (s₀.formatted env).superblock.rootClusterStart = 4 := by
    rw [Server.superblock_formatted]
    rfl
  have hheads : Server.freshPool.owners.map (·.headD endOfChain)
      = {(s₀.formatted env).superblock.rootClusterStart} := by
    rw [hroot]
    rfl
  obtain ⟨q, hq, ho, ⟨v, hv⟩, hh, hmem⟩ := exists_pool_of_run
    (Server.owns_formatted s₀ env) hheads (Multiset.mem_singleton_self _) hr
  refine ⟨q, ho.partitioned hh hmem (fun c => ?_)⟩
  rw [hq.cells_eq, Server.cells_freshPool, hv]
  rw [Server.isData_setFree, Server.isData_formatted, Multiset.mem_coe,
    List.mem_range'_1]

/-- The run that formats a blank disk and takes two clusters for a new
owner. -/
theorem partitioned_of_run_ideal :
    ∃ c, ∃ t : Server, ∃ p, t.Partitioned .ideal {c, 4} p := by
  have hw := Env.ideal_reliable.writes
  have hf := formatDisk_run (s := Server.blank) hw
  have hroot : (Server.blank.formatted .ideal).superblock.rootClusterStart = 4 := by
    rw [Server.superblock_formatted]
    rfl
  have ho := Server.owns_formatted .blank .ideal
  have hlen : Server.freshPool.free.length = 2555 := List.length_range'
  have hpop : (AllocOp.pop 2).Enabled .ideal (Server.blank.formatted .ideal) {4} :=
    ⟨by decide, _, fatStatfs_run ho, by rw [hlen]; decide⟩
  have hfirst := partitioned_of_run hf .refl
  rw [hroot] at hfirst
  obtain ⟨p, hp⟩ := hfirst
  obtain ⟨c, t, hrun⟩ := hp.progress hw _ hpop
  have hstep : AllocStep .ideal (Server.blank.formatted .ideal, {4}) (t, {c, 4}) :=
    ⟨_, c, hpop, hrun, rfl⟩
  rw [← hroot] at hstep
  have hthen := partitioned_of_run hf (.single hstep)
  rw [hroot] at hthen
  exact ⟨c, t, hthen⟩

end Fat
