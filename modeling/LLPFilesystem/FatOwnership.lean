import LLPFilesystem.FatAlloc
import LLPFilesystem.FatFile
import LLPFilesystem.Pool

/-!
# Who owns which cluster

The FAT stores a pool of clusters: the free list and one chain for every
owner. `Server.Owns` says that a server's table stores a given pool – that
the chains are linked as the pool lists them, that no cluster is in two of
them, and that all of them are data clusters. Each surgery the code makes on
the table is a step of the pool, or two steps in a row, and the server it
leaves owns the pool after the step.
-/

namespace Fat

variable {env : Env} {s : Server} {c d v i n : ℕ} {f l o : List ℕ}
  {os : Multiset (List ℕ)} {p : Pool ℕ}

/-- **The table stores the pool `p`.** -/
structure Server.Owns (s : Server) (p : Pool ℕ) : Prop where
  geometry : s.superblock.Geometry
  free : Linked s.next endOfChain s.superblock.freeClusterStart p.free
  owners : ∀ o ∈ p.owners, o ≠ [] ∧ Linked s.next endOfChain (o.headD endOfChain) o
  nodup : p.cells.Nodup
  data : ∀ c ∈ p.cells, s.superblock.IsData c

namespace Server.Owns

/-- The free list is a chain. -/
theorem freeChain (h : s.Owns p) :
    s.Chain s.superblock.freeClusterStart p.free :=
  ⟨h.free, fun c hc => h.data c (Pool.mem_cells.mpr (Or.inl hc))⟩

/-- What an owner owns is a chain. -/
theorem chain (h : s.Owns p) (ho : o ∈ p.owners) :
    s.Chain (o.headD endOfChain) o :=
  ⟨(h.owners o ho).2, fun c hc => h.data c (Pool.mem_cells.mpr (Or.inr ⟨o, ho, hc⟩))⟩

theorem owner_data (h : s.Owns p) (ho : o ∈ p.owners) (hc : c ∈ o) :
    s.superblock.IsData c := (h.chain ho).data c hc

theorem free_data (h : s.Owns p) (hc : c ∈ p.free) : s.superblock.IsData c :=
  h.freeChain.data c hc

/-- The head of the free list fits an entry. -/
theorem freeClusterStart_lt (h : s.Owns p) :
    s.superblock.freeClusterStart < 2 ^ 32 := by
  have hn := h.geometry.clusterCount_lt
  have hf := h.freeChain
  revert hf
  cases p.free with
  | nil =>
    intro hf
    have h0 : s.superblock.freeClusterStart = endOfChain := hf.linked
    rw [h0]
    unfold endOfChain
    norm_num
  | cons a l =>
    intro hf
    have ha := hf.head_data.2
    rw [← hf.head_eq] at ha
    omega

/-- **A server owns what another does** if it has the same free list and its
table agrees on the clusters of the pool. -/
theorem congr {s' : Server} (h : s.Owns p) (hg : s'.superblock.Geometry)
    (hf : s'.superblock.freeClusterStart = s.superblock.freeClusterStart)
    (hd : ∀ c, s'.superblock.IsData c ↔ s.superblock.IsData c)
    (hn : ∀ c ∈ p.cells, s'.next c = s.next c) : s'.Owns p where
  geometry := hg
  free := by
    rw [hf]
    exact h.free.congr (fun c hc => hn c (Pool.mem_cells.mpr (Or.inl hc)))
  owners := fun o ho => ⟨(h.owners o ho).1, (h.owners o ho).2.congr
    (fun c hc => hn c (Pool.mem_cells.mpr (Or.inr ⟨o, ho, hc⟩)))⟩
  nodup := h.nodup
  data := fun c hc => (hd c).mpr (h.data c hc)

/-- Writing a data cluster leaves the table alone. -/
theorem writeCluster {buf : Buf} (h : s.Owns p) : (s.writeCluster env buf c).Owns p :=
  ⟨h.geometry, h.free, h.owners, h.nodup, h.data⟩

/-- Reading leaves the table alone. -/
theorem preads (h : s.Owns p) (k : ℕ) : ({ s with preads := k } : Server).Owns p :=
  ⟨h.geometry, h.free, h.owners, h.nodup, h.data⟩

/-- A server with the same table owns the same pool. -/
theorem of_table {t : Server} (h : s.Owns p) (hsb : t.superblock = s.superblock)
    (hfat : t.fatTable = s.fatTable) : t.Owns p :=
  h.congr (hsb ▸ h.geometry) (by rw [hsb]) (fun _ => by rw [hsb]) (fun c _ => by
    unfold Server.next
    rw [hsb, hfat])

/-! ## The surgeries

Every surgery redirects the entry of one cluster `d`. The chains that do not
contain it are where they were. -/

theorem owner_congr {s' : Server} (h : s.Owns p)
    (hn : ∀ {x : ℕ}, s.superblock.IsData x → x ≠ d → s'.next x = s.next x)
    (ho : o ∈ p.owners) (hd : d ∉ o) :
    o ≠ [] ∧ Linked s'.next endOfChain (o.headD endOfChain) o :=
  ⟨(h.owners o ho).1, (h.owners o ho).2.congr
    (fun _ hx => hn (h.owner_data ho hx) (fun hxd => hd (hxd ▸ hx)))⟩

theorem free_congr {s' : Server} (h : s.Owns p)
    (hn : ∀ {x : ℕ}, s.superblock.IsData x → x ≠ d → s'.next x = s.next x)
    (hd : d ∉ p.free) :
    Linked s'.next endOfChain s.superblock.freeClusterStart p.free :=
  h.free.congr (fun _ hx => hn (h.free_data hx) (fun hxd => hd (hxd ▸ hx)))

/-- A cluster occurs once in a chain. -/
theorem notMem_of_chain (hl : Linked s.next endOfChain c (l ++ d :: o)) :
    d ∉ l ∧ d ∉ o :=
  ⟨fun h => (List.nodup_append.mp hl.nodup).2.2 d h d List.mem_cons_self rfl,
    (List.nodup_cons.mp hl.suffix.nodup).1⟩

/-- **Taking clusters** from the front of the free list gives a new owner. -/
theorem popped (h : s.Owns ⟨(l ++ [d]) ++ f, os⟩) (env : Env) :
    (s.popped env (l ++ [d]) d (s.next d)).Owns ⟨f, (l ++ [d]) ::ₘ os⟩ := by
  have hstep : Pool.Step ⟨(l ++ [d]) ++ f, os⟩ ⟨f, (l ++ [d]) ::ₘ os⟩ :=
    .alloc _ _ _ (by simp)
  have hd : s.superblock.IsData d := h.free_data (by simp)
  have hfree : Linked s.next endOfChain s.superblock.freeClusterStart
      (l ++ d :: f) := by
    have hl := h.free
    simpa only [List.append_assoc, List.singleton_append] using hl
  obtain ⟨hdl, hdf⟩ := notMem_of_chain hfree
  have hne : ∀ {x : ℕ}, s.superblock.IsData x → x ≠ d →
      (s.popped env (l ++ [d]) d (s.next d)).next x = s.next x :=
    fun hx hxd => next_popped_of_ne hd hx hxd
  refine ⟨?_, ?_, fun o ho => ?_, ?_, ?_⟩
  · rw [superblock_popped]
    exact h.geometry.setFree
  · rw [superblock_popped]
    exact hfree.rest.congr (fun x hx => hne (h.free_data (by simp [hx]))
      (fun hxd => hdf (hxd ▸ hx)))
  · rcases Multiset.mem_cons.mp ho with rfl | hos
    · have hhead : (l ++ [d]).headD endOfChain = s.superblock.freeClusterStart := by
        cases l <;> exact hfree.1.symm
      rw [hhead]
      exact ⟨by simp, hfree.cut next_popped_self (fun x hx =>
        hne (h.free_data (by simp [hx])) (fun hxd => hdl (hxd ▸ hx)))⟩
    · exact h.owner_congr hne hos
        (fun hdo => Pool.notMem_free h.nodup hos hdo (by simp))
  · rw [hstep.cells_eq]
    exact h.nodup
  · rw [hstep.cells_eq, superblock_popped]
    exact h.data

/-- Splitting an owner in two moves no cell. -/
theorem cells_split (f l o : List ℕ) (d : ℕ) (os : Multiset (List ℕ)) :
    (Pool.mk f (l ::ₘ (o ++ [d]) ::ₘ os)).cells
      = (Pool.mk f ((o ++ d :: l) ::ₘ os)).cells := by
  rw [Pool.cells_cons, Pool.cells_cons, Pool.cells_cons, ← add_assoc,
    Multiset.coe_add, show o ++ d :: l = (o ++ [d]) ++ l by simp]
  exact congrArg (· + _) (Multiset.coe_eq_coe.mpr List.perm_append_comm)

/-- **Linking one owner's chain behind another's** makes them one. -/
theorem link (h : s.Owns ⟨f, l ::ₘ (o ++ [d]) ::ₘ os⟩) (env : Env) :
    (s.linkFat env d (l.headD endOfChain)).Owns ⟨f, (o ++ d :: l) ::ₘ os⟩ := by
  have hmem : o ++ [d] ∈ l ::ₘ (o ++ [d]) ::ₘ os := by simp
  have hmeml : l ∈ l ::ₘ (o ++ [d]) ::ₘ os := by simp
  have hd : s.superblock.IsData d := h.owner_data hmem (by simp)
  have hdl : d ∉ l := fun hl =>
    Pool.notMem_other h.nodup hl (o ++ [d]) (by simp) (by simp)
  obtain ⟨hdo, -⟩ := notMem_of_chain (h.owners _ hmem).2
  have hne : ∀ {x : ℕ}, s.superblock.IsData x → x ≠ d →
      (s.linkFat env d (l.headD endOfChain)).next x = s.next x :=
    fun hx hxd => next_linkFat_of_ne hd hx hxd
  have hself : (s.linkFat env d (l.headD endOfChain)).next d = l.headD endOfChain := by
    refine next_linkFat_self ?_
    have hn := h.geometry.clusterCount_lt
    obtain ⟨a, l', rfl⟩ := List.exists_cons_of_ne_nil (h.owners l hmeml).1
    have ha := (h.owner_data hmeml List.mem_cons_self).2
    show a < _
    omega
  refine ⟨h.geometry, ?_, fun o' ho' => ?_, ?_, ?_⟩
  · exact h.free_congr hne (Pool.notMem_free h.nodup hmem (by simp))
  · rcases Multiset.mem_cons.mp ho' with rfl | hos
    · have hhead : (o ++ d :: l).headD endOfChain = (o ++ [d]).headD endOfChain := by
        cases o <;> rfl
      rw [hhead]
      exact ⟨by simp, (h.owners _ hmem).2.join hself
        (fun x hx => hne (h.owner_data hmem (by simp [hx])) (fun hxd => hdo (hxd ▸ hx)))
        (h.owner_congr hne hmeml hdl).2⟩
    · have hnd : (Pool.mk f ((o ++ [d]) ::ₘ l ::ₘ os)).cells.Nodup := by
        rw [Multiset.cons_swap]
        exact h.nodup
      exact h.owner_congr hne (by simp [hos])
        (Pool.notMem_other hnd (by simp) o' (by simp [hos]))
  · rw [← cells_split]
    exact h.nodup
  · rw [← cells_split]
    exact h.data

/-- **Cutting an owner's chain behind a cluster** makes two of it. -/
theorem cut (h : s.Owns ⟨f, (o ++ d :: l) ::ₘ os⟩) (hl : l ≠ []) (env : Env) :
    (s.linkFat env d endOfChain).Owns ⟨f, l ::ₘ (o ++ [d]) ::ₘ os⟩ := by
  have hmem : o ++ d :: l ∈ (o ++ d :: l) ::ₘ os := Multiset.mem_cons_self _ _
  have hd : s.superblock.IsData d := h.owner_data hmem (by simp)
  have hlink := (h.owners _ hmem).2
  obtain ⟨hdo, hdl⟩ := notMem_of_chain hlink
  have hne : ∀ {x : ℕ}, s.superblock.IsData x → x ≠ d →
      (s.linkFat env d endOfChain).next x = s.next x :=
    fun hx hxd => next_linkFat_of_ne hd hx hxd
  have hself : (s.linkFat env d endOfChain).next d = endOfChain :=
    next_linkFat_self (by unfold endOfChain; norm_num)
  refine ⟨h.geometry, ?_, fun o' ho' => ?_, ?_, ?_⟩
  · exact h.free_congr hne (Pool.notMem_free h.nodup hmem (by simp))
  · rcases Multiset.mem_cons.mp ho' with rfl | ho'
    · have hrest : Linked s.next endOfChain (o'.headD endOfChain) o' := by
        obtain ⟨a, l', rfl⟩ := List.exists_cons_of_ne_nil hl
        rw [show o ++ d :: a :: l' = (o ++ [d]) ++ a :: l' by simp] at hlink
        exact hlink.suffix
      exact ⟨hl, hrest.congr (fun x hx => hne (h.owner_data hmem (by simp [hx]))
        (fun hxd => hdl (hxd ▸ hx)))⟩
    rcases Multiset.mem_cons.mp ho' with rfl | hos
    · have hhead : (o ++ d :: l).headD endOfChain = (o ++ [d]).headD endOfChain := by
        cases o <;> rfl
      rw [hhead] at hlink
      exact ⟨by simp, hlink.cut hself (fun x hx =>
        hne (h.owner_data hmem (by simp [hx])) (fun hxd => hdo (hxd ▸ hx)))⟩
    · exact h.owner_congr hne (Multiset.mem_cons_of_mem hos)
        (Pool.notMem_other h.nodup (by simp) o' hos)
  · rw [cells_split]
    exact h.nodup
  · rw [cells_split]
    exact h.data

/-- Ending a chain at its last cluster changes nothing. -/
theorem cut_last (h : s.Owns p) (ho : o ++ [d] ∈ p.owners) (env : Env) :
    (s.linkFat env d endOfChain).Owns p := by
  have hd : s.superblock.IsData d := h.owner_data ho (by simp)
  refine h.congr h.geometry rfl (fun _ => Iff.rfl) (fun x hx => ?_)
  by_cases hxd : x = d
  · rw [hxd, next_linkFat_self (by unfold endOfChain; norm_num)]
    exact ((h.owners _ ho).2.next_last).symm
  · exact next_linkFat_of_ne hd (h.data x hx) hxd

/-- **Giving a chain back** puts it, in order, in front of the free list. -/
theorem pushed (h : s.Owns ⟨f, (o ++ [d]) ::ₘ os⟩) (env : Env) :
    (s.pushed env ((o ++ [d]).headD endOfChain) d).Owns ⟨(o ++ [d]) ++ f, os⟩ := by
  have hstep : Pool.Step ⟨f, (o ++ [d]) ::ₘ os⟩ ⟨(o ++ [d]) ++ f, os⟩ :=
    .release _ _ _
  have hmem : o ++ [d] ∈ (o ++ [d]) ::ₘ os := Multiset.mem_cons_self _ _
  have hd : s.superblock.IsData d := h.owner_data hmem (by simp)
  obtain ⟨hdo, -⟩ := notMem_of_chain (h.owners _ hmem).2
  have hne : ∀ {x : ℕ}, s.superblock.IsData x → x ≠ d →
      (s.pushed env ((o ++ [d]).headD endOfChain) d).next x = s.next x :=
    fun hx hxd => next_pushed_of_ne hd hx hxd
  refine ⟨h.geometry.setFree, ?_, fun o' hos => ?_, ?_, ?_⟩
  · rw [superblock_pushed, freeClusterStart_setFree, List.append_assoc,
      List.singleton_append]
    exact (h.owners _ hmem).2.join (next_pushed_self h.freeClusterStart_lt)
      (fun x hx => hne (h.owner_data hmem (by simp [hx])) (fun hxd => hdo (hxd ▸ hx)))
      (h.free_congr hne (Pool.notMem_free h.nodup hmem (by simp)))
  · exact h.owner_congr hne (Multiset.mem_cons_of_mem hos)
      (Pool.notMem_other h.nodup (by simp) o' hos)
  · rw [hstep.cells_eq]
    exact h.nodup
  · rw [hstep.cells_eq]
    exact h.data

end Server.Owns

/-! ## The operations -/

namespace Server

/-- The server after the clusters `l` of the free list, of which `d` is the
last, have been linked behind `e`, the last cluster of a chain. -/
def grown (s : Server) (env : Env) (l : List ℕ) (d e : ℕ) : Server :=
  (s.popped env l d (s.next d)).linkFat env e s.superblock.freeClusterStart

/-- The server after the chain of `d` has been cut behind `d`, the clusters
`rest` that followed it being put in front of the free list. -/
def shrunk (s : Server) (env : Env) (d : ℕ) (rest : List ℕ) : Server :=
  match rest.getLast? with
  | none => s.linkFat env d endOfChain
  | some e => (s.linkFat env d endOfChain).pushed env (s.next d) e

@[simp] theorem superblock_grown {e : ℕ} :
    (s.grown env l d e).superblock = (s.setFree (s.next d)).superblock :=
  superblock_popped

theorem shrunk_nil : s.shrunk env d [] = s.linkFat env d endOfChain := rfl

theorem shrunk_concat {e : ℕ} :
    s.shrunk env d (l ++ [e])
      = (s.linkFat env d endOfChain).pushed env (s.next d) e := by
  rw [shrunk, List.getLast?_concat]

/-- Shrinking a chain changes nothing in the superblock but the head of the
free list. -/
theorem exists_superblock_shrunk :
    ∃ v, (s.shrunk env d l).superblock = (s.setFree v).superblock := by
  unfold shrunk
  split
  · exact ⟨s.superblock.freeClusterStart, rfl⟩
  · exact ⟨s.next d, rfl⟩

end Server

namespace Server.Owns

variable {e : ℕ}

/-- The head of the free list is its first cluster. -/
theorem freeClusterStart_eq (h : s.Owns p) :
    s.superblock.freeClusterStart = p.free.headD endOfChain := by
  have hf := h.free
  revert hf
  cases p.free with
  | nil => exact fun hf => hf
  | cons a l => exact fun hf => hf.1

/-- A request within the free list splits it at the last cluster taken. -/
theorem exists_split (hn : 1 ≤ n) (hf : n ≤ f.length) :
    ∃ l d r, f = (l ++ [d]) ++ r ∧ l.length + 1 = n := by
  have hlt : n - 1 < f.length := by omega
  refine ⟨f.take (n - 1), f[n - 1], f.drop n, ?_, ?_⟩
  · rw [List.take_append_getElem hlt, Nat.sub_add_cancel hn,
      List.take_append_drop]
  · rw [List.length_take_of_le (Nat.le_of_lt hlt), Nat.sub_add_cancel hn]

/-- **Growing an owner's chain** by the first free clusters. -/
theorem grown (h : s.Owns ⟨(l ++ [d]) ++ f, (o ++ [e]) ::ₘ os⟩) (env : Env) :
    (s.grown env (l ++ [d]) d e).Owns ⟨f, ((o ++ [e]) ++ (l ++ [d])) ::ₘ os⟩ := by
  have hp := h.popped env
  have hl := hp.link env
  have hhead : (l ++ [d]).headD endOfChain = s.superblock.freeClusterStart := by
    rw [h.freeClusterStart_eq]
    cases l <;> rfl
  rw [hhead] at hl
  rw [List.append_assoc, List.singleton_append]
  exact hl

/-- **Shrinking an owner's chain** to its clusters up to `d`. -/
theorem shrunk (h : s.Owns ⟨f, (o ++ d :: l) ::ₘ os⟩) (env : Env) :
    (s.shrunk env d l).Owns ⟨l ++ f, (o ++ [d]) ::ₘ os⟩ := by
  rcases l.eq_nil_or_concat with rfl | ⟨l', e, rfl⟩
  · rw [shrunk_nil]
    exact h.cut_last (Multiset.mem_cons_self _ _) env
  · have hnext : s.next d = (l' ++ [e]).headD endOfChain := by
      have hl := (h.owners _ (Multiset.mem_cons_self _ _)).2.rest
      cases l' <;> exact hl.1
    rw [List.concat_eq_append] at h ⊢
    rw [shrunk_concat, hnext]
    exact (h.cut (by simp) env).pushed env

end Server.Owns

/-! ## The runs -/

section Runs

variable {e : ℕ}

/-- The chains of the other owners survive when clusters are taken. -/
theorem Server.Owns.chain_popped (h : s.Owns ⟨(l ++ [d]) ++ f, os⟩)
    (ho : o ∈ os) (env : Env) :
    (s.popped env (l ++ [d]) d (s.next d)).Chain (o.headD endOfChain) o :=
  (h.popped env).chain (Multiset.mem_cons_of_mem ho)

/-- **Growing a file that the free list can serve.** -/
theorem growFile_run (h : s.Owns ⟨(l ++ [d]) ++ f, (o ++ [e]) ::ₘ os⟩)
    {alloc final : ℕ} (hn : final = alloc + (l.length + 1)) :
    (growFile ((o ++ [e]).headD endOfChain) alloc final).run env s
      = .ok true (s.grown env (l ++ [d]) d e) := by
  have hne : s.superblock.freeClusterStart ≠ endOfChain :=
    h.freeChain.ne_end (by simp)
  have hp := h.popped env
  have he : s.superblock.IsData e := h.owner_data (Multiset.mem_cons_self _ _) (by simp)
  rw [growFile, if_pos (by omega), show final - alloc = l.length + 1 by omega,
    Prog.bind_ok _ (popFreeClusters_run h.geometry h.freeChain), if_neg hne,
    Prog.bind_ok _ (getLastClusterInChain_run hp.geometry
      (h.chain_popped (Multiset.mem_cons_self _ _) env)),
    Prog.bind_ok _ (updateFatEntry_run hp.geometry (hp.owner_data
      (Multiset.mem_cons_of_mem (Multiset.mem_cons_self _ _)) (by simp)))]
  rfl

/-- A file that is long enough is left alone. -/
theorem growFile_enough {c alloc final : ℕ} (hn : final ≤ alloc) :
    (growFile c alloc final).run env s = .ok true s := by
  rw [growFile, if_neg (Nat.not_lt_of_le hn)]
  rfl

/-- A file that would need two clusters or more beyond the free list is
refused, and nothing changes. -/
theorem growFile_refused (h : s.Owns p) {c alloc final : ℕ}
    (hn : alloc + p.free.length + 1 < final) :
    (growFile c alloc final).run env s = .ok false s := by
  rw [growFile, if_pos (by omega),
    Prog.bind_ok _ (popFreeClusters_refused h.geometry h.freeChain (by omega)),
    if_pos rfl]
  rfl

/-- A file that would need one cluster beyond the free list makes the
allocator read the entry of `END_OF_CHAIN`. -/
theorem growFile_stop (h : s.Owns p) {c alloc final : ℕ}
    (hn : final = alloc + p.free.length + 1) :
    (growFile c alloc final).run env s = .stop .outOfBounds s := by
  rw [growFile, if_pos (by omega), show final - alloc = p.free.length + 1 by omega,
    Prog.bind_stop _ (popFreeClusters_stop h.geometry h.freeChain)]

/-- Adding a cluster to a chain, from any of its clusters on. -/
theorem addFreeCluster_of_chain (h : s.Owns ⟨d :: f, (o ++ [e]) ::ₘ os⟩)
    (hc : (s.popped env [d] d (s.next d)).Chain c (l ++ [e])) :
    (addFreeCluster c).run env s = .ok d (s.grown env [d] d e) := by
  have h' : s.Owns ⟨([] ++ [d]) ++ f, (o ++ [e]) ::ₘ os⟩ := h
  have hd : s.superblock.freeClusterStart = d := h.freeClusterStart_eq
  have hp : (s.popped env [d] d (s.next d)).Owns ⟨f, [d] ::ₘ (o ++ [e]) ::ₘ os⟩ :=
    h'.popped env
  have hrun : (popFreeClusters 1).run env s
      = .ok d (s.popped env [d] d (s.next d)) :=
    (show (popFreeClusters 1).run env s = .ok s.superblock.freeClusterStart _ from
      popFreeClusters_run h'.geometry h'.freeChain).trans (congrArg (Outcome.ok · _) hd)
  rw [addFreeCluster, Prog.bind_ok _ hrun, Prog.bind_ok _ (Prog.run_get env _),
    Prog.bind_ok _ (followChain_run hp.geometry hc
      (Nat.le_of_lt (hc.length_lt_fuel hp.geometry))),
    Prog.bind_ok _ (updateFatEntry_run hp.geometry (hc.data e (by simp)))]
  rw [Server.grown, hd]
  rfl

/-- **Adding a cluster to a chain.** -/
theorem addFreeCluster_run (h : s.Owns ⟨d :: f, (o ++ [e]) ::ₘ os⟩) :
    (addFreeCluster ((o ++ [e]).headD endOfChain)).run env s
      = .ok d (s.grown env [d] d e) :=
  addFreeCluster_of_chain h (Server.Owns.chain_popped (l := []) h
    (Multiset.mem_cons_self _ _) env)

/-- Adding a cluster to a chain, from its last cluster on. -/
theorem addFreeCluster_last_run (h : s.Owns ⟨d :: f, (o ++ [e]) ::ₘ os⟩) :
    (addFreeCluster e).run env s = .ok d (s.grown env [d] d e) :=
  addFreeCluster_of_chain (l := []) h
    (Server.Owns.chain_popped (l := []) h (Multiset.mem_cons_self _ _) env).suffix

theorem check_state {q : Prop} [Decidable q] :
    ((check q).run env s).state = s := by
  by_cases hq : q
  · rw [check_run hq]
    rfl
  · rw [check_stop hq]
    rfl

/-- Cutting a chain ends with the assertion that its last write succeeded. -/
theorem cutChain_check (h : s.Owns ⟨f, (o ++ d :: l) ::ₘ os⟩) (env : Env) :
    ∃ result : ℤ, (cutChain d).run env s
        = (check (result ≠ -1)).run env (s.shrunk env d l)
      ∧ ((∀ k, s.pwrites.length < k → env.pwrite k = .full) → result = 0) := by
  have hmem : o ++ d :: l ∈ (o ++ d :: l) ::ₘ os := Multiset.mem_cons_self _ _
  have hd : s.superblock.IsData d := h.owner_data hmem (by simp)
  have hlink := (h.owners _ hmem).2
  rw [cutChain, Prog.bind_ok _ (readFatEntry_run h.geometry hd),
    Prog.bind_ok _ (updateFatEntry_run h.geometry hd)]
  rcases l.eq_nil_or_concat with rfl | ⟨l', e, rfl⟩
  · refine ⟨0, ?_, fun _ => rfl⟩
    rw [if_pos hlink.next_last, check_run (by decide)]
    rfl
  · rw [List.concat_eq_append] at *
    have hcut := h.cut (by simp) env
    have hhead : s.next d = (l' ++ [e]).headD endOfChain := by
      have hl := hlink.rest
      cases l' <;> exact hl.1
    have hne : s.next d ≠ endOfChain := by
      rw [hhead]
      exact (hcut.chain (Multiset.mem_cons_self _ _)).ne_end (by simp)
    have hch := hcut.chain (Multiset.mem_cons_self _ _)
    rw [← hhead] at hch
    have he : (s.linkFat env d endOfChain).superblock.IsData e :=
      hcut.owner_data (Multiset.mem_cons_self _ _) (by simp)
    set u := s.linkFat env d endOfChain
    refine ⟨((u.linkFat env e u.superblock.freeClusterStart).setFree
      (s.next d)).writeStatus env, ?_, fun hw => ?_⟩
    · rw [if_neg hne, Prog.bind_ok _ (Prog.run_get env _),
        Prog.bind_ok _ (followChain_run hcut.geometry hch
          (Nat.le_of_lt (hch.length_lt_fuel hcut.geometry))),
        Prog.bind_ok _ (pushFreeList_run hcut.geometry he), Server.shrunk_concat]
    · -- two links have been written before the superblock
      have hlast : env.pwrite (s.pwrites.length + 1 + 1) = .full := hw _ (by omega)
      show (if (env.pwrite (s.pwrites.length + 1 + 1)).result _ < _ then (-1 : ℤ) else 0) = 0
      rw [hlast]
      exact if_neg (lt_irrefl _)

/-- **Cutting a chain**, when writes succeed. -/
theorem cutChain_run (hw : env.WritesFull)
    (h : s.Owns ⟨f, (o ++ d :: l) ::ₘ os⟩) :
    (cutChain d).run env s = .ok () (s.shrunk env d l) := by
  obtain ⟨result, hrun, hres⟩ := cutChain_check h env
  rw [hrun, check_run (by rw [hres fun k _ => hw k]; decide)]

end Runs

/-! ## Growing the chain -/

/-- **The chain `o` has grown** by the first `k` free clusters, which are
zero; nothing else has changed. -/
structure Server.Grown (s t : Server) (f o : List ℕ) (os : Multiset (List ℕ)) (k : ℕ) :
    Prop where
  owns : t.Owns ⟨f.drop k, (o ++ f.take k) ::ₘ os⟩
  superblock : ∃ v, t.superblock = (s.setFree v).superblock
  links : ∀ c, s.superblock.IsData c → c ∉ o → c ∉ f.take k → t.next c = s.next c
  clusters : ∀ c, s.superblock.IsData c → c ∉ f.take k →
    ∀ i < s.superblock.bytePerCluster, t.cluster c i = s.cluster c i
  zero : ∀ c ∈ f.take k, ∀ i < s.superblock.bytePerCluster, t.cluster c i = 0

theorem Server.Grown.bytePerCluster {t : Server} {k : ℕ} (h : s.Grown t f o os k) :
    t.superblock.bytePerCluster = s.superblock.bytePerCluster :=
  bytePerCluster_of_setFree h.superblock

/-- Linking clusters behind a chain touches no other cluster of the disk. -/
theorem Server.Owns.cluster_grown {e : ℕ} (h : s.Owns ⟨(l ++ [d]) ++ f, (o ++ [e]) ::ₘ os⟩)
    (hc : s.superblock.IsData c) (hi : i < s.superblock.bytePerCluster) :
    (s.grown env (l ++ [d]) d e).cluster c i
      = (s.popped env (l ++ [d]) d (s.next d)).cluster c i := by
  have hp := h.popped env
  have he := hp.owner_data (c := e)
    (Multiset.mem_cons_of_mem (Multiset.mem_cons_self _ _)) (by simp)
  exact Server.cluster_linkFat (s := s.popped env (l ++ [d]) d (s.next d)) hp.geometry he
    (by rw [Server.superblock_popped]; exact hc)
    (by rw [Server.superblock_popped]; exact hi)

/-- Linking the first free clusters behind a chain grows it by them. -/
theorem Server.Owns.grown_spec (hw : env.WritesFull) {e : ℕ}
    (h : s.Owns ⟨(l ++ [d]) ++ f, (o ++ [e]) ::ₘ os⟩) :
    s.Grown (s.grown env (l ++ [d]) d e) ((l ++ [d]) ++ f) (o ++ [e]) os
      (l.length + 1) := by
  have htake : ((l ++ [d]) ++ f).take (l.length + 1) = l ++ [d] :=
    List.take_left' (by simp)
  have hdrop : ((l ++ [d]) ++ f).drop (l.length + 1) = f := List.drop_left' (by simp)
  have hd : s.superblock.IsData d := h.free_data (by simp)
  have hp := h.popped env
  have he := hp.owner_data (c := e)
    (Multiset.mem_cons_of_mem (Multiset.mem_cons_self _ _)) (by simp)
  refine ⟨?_, ⟨_, Server.superblock_grown⟩, fun c hc hco hct => ?_,
    fun c hc hct i hi => ?_, fun c hct i hi => ?_⟩
  · rw [htake, hdrop]
    exact h.grown env
  · rw [htake] at hct
    have hce : c ≠ e := fun hce => hco (by simp [hce])
    have hcd : c ≠ d := fun hcd => hct (by simp [hcd])
    exact (Server.next_linkFat_of_ne (s := s.popped env (l ++ [d]) d (s.next d)) he
      (by rw [Server.superblock_popped]; exact hc) hce).trans
      (Server.next_popped_of_ne hd hc hcd)
  · rw [htake] at hct
    exact (h.cluster_grown hc hi).trans
      (Server.cluster_popped_of_notMem h.geometry hd hc hct hi)
  · rw [htake] at hct
    exact (h.cluster_grown (h.free_data (List.mem_append_left _ hct)) hi).trans
      (Server.cluster_popped hw hct hi)

/-- **A file that is granted its clusters** has them, or they are linked behind its last
one. -/
theorem growFile_cases (env : Env) (h : s.Owns ⟨f, o ::ₘ os⟩) (hn : n ≤ o.length + f.length) :
    n ≤ o.length ∧ (growFile (o.headD endOfChain) o.length n).run env s = .ok true s
      ∨ ∃ l d r o' e, f = (l ++ [d]) ++ r ∧ o = o' ++ [e] ∧ n - o.length = l.length + 1
        ∧ (growFile (o.headD endOfChain) o.length n).run env s
          = .ok true (s.grown env (l ++ [d]) d e) := by
  rcases Nat.lt_or_ge o.length n with hlt | hge
  · obtain ⟨l, d, r, rfl, hl⟩ := Server.Owns.exists_split (Nat.sub_pos_of_lt hlt)
      (Nat.sub_le_iff_le_add'.mpr hn)
    rcases o.eq_nil_or_concat with rfl | ⟨o', e, rfl⟩
    · exact absurd rfl (h.owners _ (Multiset.mem_cons_self _ _)).1
    · rw [List.concat_eq_append] at *
      exact .inr ⟨l, d, r, o', e, rfl, rfl, hl.symm,
        growFile_run h (Nat.sub_eq_iff_eq_add' hlt.le |>.mp hl.symm)⟩
  · exact .inl ⟨hge, growFile_enough hge⟩

/-- What the chain is then, whether or not the writes succeed. -/
theorem growFile_owns (env : Env) (h : s.Owns ⟨f, o ::ₘ os⟩) (hn : n ≤ o.length + f.length) :
    ∃ t, (growFile (o.headD endOfChain) o.length n).run env s = .ok true t
      ∧ t.Owns ⟨f.drop (n - o.length), (o ++ f.take (n - o.length)) ::ₘ os⟩
      ∧ (∃ v, t.superblock = (s.setFree v).superblock)
      ∧ ∀ c, s.superblock.IsData c → c ∉ f.take (n - o.length) →
        ∀ i < s.superblock.bytePerCluster, t.cluster c i = s.cluster c i := by
  rcases growFile_cases env h hn with ⟨hle, hrun⟩ | ⟨l, d, r, o', e, rfl, rfl, hl, hrun⟩
  · refine ⟨s, hrun, ?_, ⟨s.superblock.freeClusterStart, rfl⟩, fun _ _ _ _ _ => rfl⟩
    rwa [Nat.sub_eq_zero_of_le hle, List.take_zero, List.append_nil, List.drop_zero]
  · have htake : ((l ++ [d]) ++ r).take (l.length + 1) = l ++ [d] := List.take_left' (by simp)
    have hdrop : ((l ++ [d]) ++ r).drop (l.length + 1) = r := List.drop_left' (by simp)
    rw [hl, htake, hdrop]
    exact ⟨_, hrun, h.grown env, ⟨_, Server.superblock_grown⟩, fun c hc hnew i hi =>
      (h.cluster_grown hc hi).trans
        (Server.cluster_popped_of_notMem h.geometry (h.free_data (by simp)) hc hnew hi)⟩

theorem growFile_grown (hw : env.WritesFull) (h : s.Owns ⟨f, o ::ₘ os⟩) {final : ℕ}
    (hn : final ≤ o.length + f.length) :
    ∃ t, (growFile (o.headD endOfChain) o.length final).run env s = .ok true t
      ∧ s.Grown t f o os (final - o.length) := by
  rcases growFile_cases env h hn with ⟨hle, hrun⟩ | ⟨l, d, r, o', e, rfl, rfl, hl, hrun⟩
  · refine ⟨s, hrun, ?_⟩
    rw [Nat.sub_eq_zero_of_le hle]
    refine ⟨?_, ⟨s.superblock.freeClusterStart, rfl⟩, fun _ _ _ _ => rfl,
      fun _ _ _ _ _ => rfl, ?_⟩
    · rwa [List.take_zero, List.append_nil, List.drop_zero]
    · intro c hc
      simp at hc
  · rw [hl]
    exact ⟨_, hrun, h.grown_spec hw⟩

end Fat
