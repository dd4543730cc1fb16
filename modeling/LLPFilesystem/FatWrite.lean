import LLPFilesystem.FatContents
import LLPFilesystem.FatEntries
import LLPFilesystem.FatOwnership

/-!
# Writing a file

The data phases of `update_file` – the first cluster, the whole clusters
after it, the rest – each store their part of the buffer at its place of the
file, and together the whole buffer (`writeData_run`). With the phases before
them, which make the chain long enough and bring the entry up to date, they
make up `update_file` (`updateFile_run`), whose effect is `Server.Written`.
-/

namespace Fat

variable {env : Env} {s t : Server} {c d i j n k off size offset : ℕ} {l o : List ℕ}
  {src buf : Buf} {e : FatDirEntry} {x : ℕ × ℕ}

/-! ## The data phases -/

theorem storeCluster_run (hw : env.WritesFull) (hg : s.superblock.Geometry)
    (hc : s.superblock.IsData c) (buf : Buf) :
    (storeCluster buf c).run env s = .ok () (s.writeCluster env buf c) := by
  rw [storeCluster, Prog.bind_ok _ (writeClusterToDisk_run hg hc.2),
    Server.writeStatus_of_writesFull hw, check_run (by decide)]

/-- **Modifying a part of a cluster** stores that part. -/
theorem modifyCluster_run (hr : env.Reliable) (hg : s.superblock.Geometry)
    (hl : l.Nodup) (hj : l[j]? = some c) (hc : s.superblock.IsData c)
    (hn : off + n ≤ s.superblock.bytePerCluster) (buf src : Buf) :
    ∃ b t, (modifyCluster buf c off src n).run env s = .ok b t
      ∧ s.Stored t l (j * s.superblock.bytePerCluster + off) src n := by
  set b := (buf.blit 0 (s.cluster c) s.superblock.bytePerCluster).blit off src n with hb
  refine ⟨b, ({ s with preads := s.preads + 1 } : Server).writeCluster env b c, ?_,
    Server.Stored.writeCluster hr.writes hl hj hn (s.preads + 1) (fun i hi => ?_)⟩
  · rw [modifyCluster, Prog.bind_ok _ (readEntireClusterFromDisk_full hr.reads hg hc.2)]
    dsimp only
    rw [Prog.bind_ok _ (check_run (by decide) env _), ← hb,
      Prog.bind_ok _ (storeCluster_run (s := { s with preads := s.preads + 1 }) hr.writes
        hg hc b)]
    rfl
  · rw [hb]
    unfold Buf.blit
    split
    · rfl
    · rw [if_pos ⟨Nat.zero_le i, by omega⟩, Nat.sub_zero]

/-- The clusters that are written whole. -/
theorem writeWhole_run (hr : env.Reliable) (hg : s.superblock.Geometry)
    (h : s.Chain c l) (hj : l[j]? = some d) (hn : j + n < l.length) (buf : Buf) (off : ℕ) :
    ∃ d' t, (writeWhole buf s.superblock.bytePerCluster n d off).run env s = .ok d' t
      ∧ l[j + n]? = some d'
      ∧ s.Stored t l ((j + 1) * s.superblock.bytePerCluster) (buf.shift off)
        (n * s.superblock.bytePerCluster) := by
  induction n generalizing s j d off with
  | zero =>
    refine ⟨d, s, rfl, hj, ?_⟩
    rw [Nat.zero_mul]
    exact .refl s s.preads l _ _
  | succ n ih =>
    obtain ⟨a, ha⟩ : ∃ a, l[j + 1]? = some a :=
      ⟨l[j + 1], List.getElem?_eq_getElem (by omega)⟩
    have hda : s.superblock.IsData a := h.data a (List.mem_of_getElem? ha)
    have hnext : (readFatEntry d).run env s = .ok a s := by
      rw [readFatEntry_run hg (h.data d (List.mem_of_getElem? hj)),
        h.linked.next_getElem? hj ha]
    have hfirst : s.Stored (s.writeCluster env (buf.shift off) a) l
        ((j + 1) * s.superblock.bytePerCluster + 0) (buf.shift off)
        s.superblock.bytePerCluster :=
      .writeCluster hr.writes h.nodup ha (Nat.le_of_eq (Nat.zero_add _)) s.preads
        (fun i hi => (Buf.blit_of_mem (Nat.zero_le i) (by omega)).symm)
    obtain ⟨d', t, hrun, hd', hrest⟩ := ih (s := s.writeCluster env (buf.shift off) a) hg
      (h.of_table rfl rfl) ha (by omega) (off + s.superblock.bytePerCluster)
    refine ⟨d', t, ?_, ?_, ?_⟩
    · rw [writeWhole, Prog.bind_ok _ hnext,
        Prog.bind_ok _ (storeCluster_run hr.writes hg hda _)]
      exact hrun
    · rw [← hd']
      congr 1
      omega
    · rw [Nat.add_zero] at hfirst
      rw [Nat.add_mul n, Nat.one_mul, Nat.add_comm (n * _)]
      refine hfirst.trans ?_
      rw [Buf.shift_shift, ← Nat.succ_mul]
      exact hrest

/-- **The part of the buffer behind the first cluster**, stored from the
next cluster on. -/
theorem writeRest_run (hr : env.Reliable) (hg : s.superblock.Geometry)
    (h : s.Chain c l) (hj : l[j]? = some d) (off n : ℕ) (cluster buf : Buf)
    (hn : (j + 1) * s.superblock.bytePerCluster + n
      ≤ l.length * s.superblock.bytePerCluster) :
    ∃ t, (writeRest cluster buf d off n).run env s = .ok () t
      ∧ s.Stored t l ((j + 1) * s.superblock.bytePerCluster) (buf.shift off) n := by
  have hb := hg.page_pos
  set b := s.superblock.bytePerCluster with hbdef
  have hdm := Nat.div_add_mod n b
  rw [Nat.mul_comm] at hdm
  have hmod := Nat.mod_lt n hb
  have hpos : (j + 1 + n / b) * b ≤ l.length * b := by
    rw [Nat.add_mul]
    omega
  have hlen : j + n / b < l.length := by
    have := Nat.le_of_mul_le_mul_right hpos hb
    omega
  obtain ⟨d', t, hrun, hd', hst⟩ := writeWhole_run hr hg h hj hlen buf off
  have hsb : t.superblock.bytePerCluster = b := congrArg _ hst.superblock
  rw [writeRest, Prog.bind_ok _ (Prog.run_get env s)]
  dsimp only
  rw [← hbdef, Prog.bind_ok _ hrun]
  by_cases h0 : n % b = 0
  · refine ⟨t, by rw [if_pos h0]; rfl, ?_⟩
    have hst' := hst
    rwa [show n / b * b = n by omega] at hst'
  · -- the rest of the buffer goes to the start of one more cluster
    have hlt : j + 1 + n / b < l.length := by
      refine Nat.lt_of_mul_lt_mul_right (a := b) ?_
      rw [Nat.add_mul]
      omega
    obtain ⟨a, ha⟩ : ∃ a, l[j + n / b + 1]? = some a :=
      ⟨l[j + n / b + 1], List.getElem?_eq_getElem (by omega)⟩
    have ht := h.of_table hst.superblock hst.fatTable
    have hgt : t.superblock.Geometry := hst.superblock ▸ hg
    have hnext : (readFatEntry d').run env t = .ok a t := by
      rw [readFatEntry_run hgt (ht.data d' (List.mem_of_getElem? hd')),
        ht.linked.next_getElem? hd' ha]
    obtain ⟨_, u, hmod', hlast⟩ := modifyCluster_run hr hgt h.nodup ha
      (ht.data a (List.mem_of_getElem? ha))
      (show 0 + n % b ≤ t.superblock.bytePerCluster by omega) cluster
      (buf.shift (off + n / b * b))
    refine ⟨u, ?_, ?_⟩
    · rw [if_neg h0, Prog.bind_ok _ hnext, Prog.bind_ok _ hmod']
      rfl
    · have hpos' : (j + n / b + 1) * t.superblock.bytePerCluster + 0
          = (j + 1) * b + n / b * b := by
        rw [hsb, Nat.add_zero, ← Nat.add_mul, Nat.add_right_comm]
      rw [hpos', ← Buf.shift_shift] at hlast
      have hall := hst.trans hlast
      rwa [hdm] at hall

/-- **The data phases of `update_file`** store the buffer in the file. -/
theorem writeData_run (hr : env.Reliable) (hg : s.superblock.Geometry)
    (h : s.Chain c l) (buf : Buf) (hsize : 0 < size) (hoff : offset < 2 ^ 32)
    (hsz : size < 2 ^ 32)
    (hn : offset + size ≤ l.length * s.superblock.bytePerCluster) :
    ∃ t, (writeData c buf size offset).run env s = .ok () t
      ∧ s.Stored t l offset buf size := by
  have hb := hg.page_pos
  set b := s.superblock.bytePerCluster with hbdef
  have hdm := Nat.div_add_mod offset b
  rw [Nat.mul_comm] at hdm
  have hmod := Nat.mod_lt offset hb
  have hj : offset / b < l.length := by
    refine Nat.div_lt_of_lt_mul ?_
    rw [Nat.mul_comm]
    omega
  obtain ⟨d, hd⟩ : ∃ d, l[offset / b]? = some d :=
    ⟨l[offset / b], List.getElem?_eq_getElem hj⟩
  have hdd : s.superblock.IsData d := h.data d (List.mem_of_getElem? hd)
  set m := min size (b - offset % b) with hm
  have hskip := skipClusters_getElem? env hg h hd
  have hnew : getNewCluster.run env s = .ok (s.newCluster env) s := rfl
  -- the first cluster: in part, or whole
  obtain ⟨cl, t₁, hrun, hst⟩ : ∃ cl t₁, (writeData c buf size offset).run env s
      = (if size - m = 0 then return ()
        else writeRest cl buf d m (size - m)).run env t₁ ∧ s.Stored t₁ l offset buf m := by
    rw [writeData, Prog.bind_ok _ (Prog.run_get env s)]
    dsimp only
    rw [u32_of_lt hoff, u32_of_lt hsz, ← hbdef, Prog.bind_ok _ hskip, ← hm,
      Prog.bind_ok _ hnew]
    by_cases hmb : m < b
    · obtain ⟨cl, t₁, hrun, hst⟩ := modifyCluster_run hr hg h.nodup hd hdd
        (show offset % b + m ≤ s.superblock.bytePerCluster by omega) (s.newCluster env) buf
      rw [← hbdef, hdm] at hst
      refine ⟨cl, t₁, ?_, hst⟩
      rw [if_pos hmb, Prog.bind_ok _ hrun]
    · have hst : s.Stored (s.writeCluster env buf d) l (offset / b * b + 0) buf b :=
        .writeCluster hr.writes h.nodup hd (Nat.le_of_eq (Nat.zero_add _)) s.preads
          (fun i hi => (Buf.blit_of_mem (Nat.zero_le i) (by omega)).symm)
      rw [show offset / b * b + 0 = offset by omega, show b = m by omega] at hst
      refine ⟨s.newCluster env, s.writeCluster env buf d, ?_, hst⟩
      rw [if_neg hmb]
      exact Prog.bind_ok _ (Prog.bind_ok _ (storeCluster_run hr.writes hg hdd buf))
  rw [hrun]
  by_cases hrest : size - m = 0
  · rw [if_pos hrest]
    rw [show m = size by omega] at hst
    exact ⟨t₁, rfl, hst⟩
  · have hsb : t₁.superblock.bytePerCluster = b := congrArg _ hst.superblock
    have hnext : (offset / b + 1) * b = offset + m := by
      rw [Nat.add_mul, Nat.one_mul]
      omega
    obtain ⟨u, hrun', hst'⟩ := writeRest_run hr (hst.superblock ▸ hg)
      (h.of_table hst.superblock hst.fatTable) hd m (size - m) cl buf
      (by rw [hsb, hnext]; omega)
    rw [if_neg hrest]
    refine ⟨u, hrun', ?_⟩
    rw [hsb, hnext] at hst'
    have hall := hst.trans hst'
    rwa [Nat.add_sub_cancel' (Nat.min_le_left _ _)] at hall

/-! ## A file that has grown -/

/-- A file that has grown reads as before, and as zero behind its old end. -/
theorem Server.Grown.fileBuf {f : List ℕ} {os : Multiset (List ℕ)}
    (hgr : s.Grown t f o os k) (h : s.Owns ⟨f, o ::ₘ os⟩) (i : ℕ) :
    t.fileBuf (o ++ f.take k) i = s.fileBuf o i := by
  unfold Server.fileBuf
  rw [hgr.bytePerCluster]
  refine paged_append_zero h.geometry.page_pos (fun c hc i hi => ?_) hgr.zero i
  have hmem : o ∈ o ::ₘ os := Multiset.mem_cons_self _ _
  exact hgr.clusters c (h.owner_data hmem hc)
    (fun hf => Pool.notMem_free h.nodup hmem hc (List.mem_of_mem_take hf)) i hi

/-! ## The file and its entry -/

/-- **A file of the server**: its chain is `o`, the other chains are `os`, and
its entry `e` is found in the slot `x` of its parent directory `pl`. -/
structure Server.HasFile (s : Server) (env : Env) (f o : List ℕ)
    (os : Multiset (List ℕ)) (pl : List ℕ) (x : ℕ × ℕ) (e : FatDirEntry) : Prop where
  owns : s.Owns ⟨f, o ::ₘ os⟩
  parent : pl ∈ os
  head : o.headD endOfChain = e.firstCluster.toNat
  found : s.findSlot env pl (fun e' => e'.nameStr == e.nameStr) = some x
  entry : s.slotEntry env x = e
  inside : s.Inside x
  type : e.type = dirEntryTypeFile

namespace Server.HasFile

/-- The file whose entry is the only one with its name. -/
theorem of_unique {f o pl : List ℕ} {os : Multiset (List ℕ)} (howns : s.Owns ⟨f, o ::ₘ os⟩)
    (hparent : pl ∈ os) (hfirst : e.firstCluster.toNat = o.headD endOfChain)
    (hslot : x ∈ s.slots pl) (hentry : s.slotEntry env x = e)
    (hunique : ∀ y ∈ s.slots pl, (s.slotEntry env y).nameStr = e.nameStr → y = x)
    (hinside : s.Inside x) (htype : e.type = dirEntryTypeFile) :
    s.HasFile env f o os pl x e where
  owns := howns
  parent := hparent
  head := hfirst.symm
  found := findSlot_of_unique hslot (by rw [hentry]; exact beq_self_eq_true _)
    fun y hy hname => hunique y hy (eq_of_beq hname)
  entry := hentry
  inside := hinside
  type := htype

/-- The clusters of the other owners are not those of the file, and not free. -/
theorem of_other {f l o pl : List ℕ} {os : Multiset (List ℕ)}
    (h : s.HasFile env f o os pl x e) (hl : l ∈ os) (hc : c ∈ l) :
    s.superblock.IsData c ∧ c ∉ o ∧ ∀ k, c ∉ f.take k :=
  ⟨h.owns.owner_data (Multiset.mem_cons_of_mem hl) hc,
    fun hco => Pool.notMem_other h.owns.nodup hco l hl hc, fun _ hcf =>
    Pool.notMem_free h.owns.nodup (Multiset.mem_cons_of_mem hl) hc (List.mem_of_mem_take hcf)⟩

end Server.HasFile

/-- **What `update_file` does**: the chain has grown by the first `k` free
clusters, the buffer is stored in the file, the entry has the size it needs,
and nothing else has changed. -/
structure Server.Written (s t : Server) (env : Env) (f o : List ℕ)
    (os : Multiset (List ℕ)) (x : ℕ × ℕ) (e : FatDirEntry) (k : ℕ) (buf : Buf)
    (size offset : ℕ) : Prop where
  owns : t.Owns ⟨f.drop k, (o ++ f.take k) ::ₘ os⟩
  superblock : ∃ v, t.superblock = (s.setFree v).superblock
  bytes : ∀ i < (o ++ f.take k).length * s.superblock.bytePerCluster,
    t.fileBuf (o ++ f.take k) i = (s.fileBuf o).blit offset buf size i
  links : ∀ c, s.superblock.IsData c → c ∉ o → c ∉ f.take k → t.next c = s.next c
  clusters : ∀ c, s.superblock.IsData c → c ∉ o → c ∉ f.take k →
    ∀ i < s.superblock.bytePerCluster,
      (c = x.1 → i < x.2 ∨ x.2 + dirEntrySize ≤ i) → t.cluster c i = s.cluster c i
  entry : ∃ time, t.slotEntry env x = { e with
    size := UInt32.ofNat (max e.size.toNat (offset + size)), time := time }

/-- The entry is brought up to date when the file has grown. -/
theorem updateSize_run (hr : env.Reliable) (hg : s.superblock.Geometry)
    (h : s.Chain c l) (hfind : s.findSlot env l (fun e' => e'.nameStr == e.nameStr) = some x)
    (hx : s.Inside x) (he : s.slotEntry env x = e) (htype : e.type = dirEntryTypeFile)
    (newSize : ℕ) :
    ∃ t time, (updateSize c e newSize).run env s = .ok () t
      ∧ s.Rewritten t env x { e with
        size := UInt32.ofNat (max e.size.toNat newSize), time := time } := by
  rw [updateSize, Prog.bind_ok _ (Prog.run_read env s),
    Prog.bind_ok _ (Prog.run_get env s)]
  by_cases hlt : e.size.toNat < newSize
  · rw [if_pos hlt, Nat.max_eq_right (Nat.le_of_lt hlt)]
    set e' : FatDirEntry := { e with
      size := UInt32.ofNat newSize, time := UInt64.ofNat (env.time s.pwrites.length) }
    have hname : e'.nameStr = e.nameStr := FatDirEntry.nameStr_file_congr htype rfl rfl
    rw [← hname] at hfind
    obtain ⟨t, hrun, ht⟩ := updateDirEntry_rewritten hr hg h hfind hx
    refine ⟨t, e'.time, ?_, ht⟩
    rw [Prog.bind_ok _ hrun]
    exact check_run (by decide) env t
  · rw [if_neg hlt, Nat.max_eq_left (Nat.not_lt.mp hlt)]
    refine ⟨s, e.time, rfl, rfl, rfl, fun _ _ _ _ => rfl, ?_⟩
    rw [he, UInt32.ofNat_toNat]

/-- **The last byte of a write**, reduced to 32 bits. -/
theorem finalByteToWrite_eq (hsize : 0 < size) :
    finalByteToWrite size offset = (offset + size - 1) % 2 ^ 32 := by
  unfold finalByteToWrite u32 sub32
  omega

/-- **Room has been made for a write** of `size` bytes at `offset`, and the size
recorded: the chain `o` has been grown by `k` free clusters and reads as before,
and of the old data only the entry in the slot `x` has changed. -/
structure Server.Prepared (s u : Server) (env : Env) (f o : List ℕ)
    (os : Multiset (List ℕ)) (x : ℕ × ℕ) (e : FatDirEntry) (k newSize : ℕ) : Prop where
  owns : u.Owns ⟨f.drop k, (o ++ f.take k) ::ₘ os⟩
  superblock : ∃ v, u.superblock = (s.setFree v).superblock
  bytes : u.fileBuf (o ++ f.take k) = s.fileBuf o
  links : ∀ c, s.superblock.IsData c → c ∉ o → c ∉ f.take k → u.next c = s.next c
  clusters : ∀ c, s.superblock.IsData c → c ∉ f.take k →
    ∀ i < s.superblock.bytePerCluster,
      (c = x.1 → i < x.2 ∨ x.2 + dirEntrySize ≤ i) → u.cluster c i = s.cluster c i
  entry : ∃ time, u.slotEntry env x = { e with
    size := UInt32.ofNat (max e.size.toNat newSize), time := time }

/-- The clusters of the parent directory belong to another owner. -/
theorem Server.HasFile.notMem_grown {f : List ℕ} {os : Multiset (List ℕ)} {pl : List ℕ}
    (h : s.HasFile env f o os pl x e) (hc : c ∈ pl) : c ∉ o ++ f.take k := by
  obtain ⟨-, hco, hcf⟩ := h.of_other h.parent hc
  exact fun hmem => (List.mem_append.mp hmem).elim hco (hcf k)

/-- Growing a chain and recording the new size. -/
theorem Server.HasFile.prepared (hr : env.Reliable) {f : List ℕ} {os : Multiset (List ℕ)}
    {pl : List ℕ} (h : s.HasFile env f o os pl x e) {need : ℕ} (newSize : ℕ)
    (hn : need ≤ o.length + f.length) :
    ∃ s₁ u, (growFile (o.headD endOfChain) o.length need).run env s = .ok true s₁
      ∧ (updateSize (pl.headD endOfChain) e newSize).run env s₁ = .ok () u
      ∧ s.Prepared u env f o os x e (need - o.length) newSize := by
  set b := s.superblock.bytePerCluster with hbdef
  set k := need - o.length with hk
  have hxs := (Server.findSlot_some h.found).1
  have hxl : x.1 ∈ pl := (Server.mem_slots.mp hxs).1
  -- the chain is made long enough
  obtain ⟨s₁, hgrow, hgr⟩ := growFile_grown hr.writes h.owns hn
  obtain ⟨v, hv⟩ := hgr.superblock
  have hsb : s₁.superblock.bytePerCluster = b := by rw [hv]; rfl
  -- the parent directory is where it was
  have hpld : ∀ c ∈ pl, s.superblock.IsData c := fun c hc =>
    h.owns.owner_data (Multiset.mem_cons_of_mem h.parent) hc
  have hslots : ∀ y ∈ s.slots pl, s₁.slotEntry env y = s.slotEntry env y :=
    Server.slotEntry_of_clusters hsb (fun c hc => hgr.clusters c (hpld c hc)
      (fun hcf => h.notMem_grown (k := k) hc (List.mem_append_right _ hcf)))
  have hfind : s₁.findSlot env pl (fun e' => e'.nameStr == e.nameStr) = some x := by
    rw [← h.found]
    exact Server.findSlot_congr hsb (fun y hy => by rw [hslots y hy])
  -- the entry is brought up to date
  obtain ⟨u, time, hsize, hre⟩ := updateSize_run hr hgr.owns.geometry
    (hgr.owns.chain (Multiset.mem_cons_of_mem h.parent)) hfind
    (by unfold Server.Inside; rw [hsb]; exact h.inside) ((hslots x hxs).trans h.entry)
    h.type newSize
  refine ⟨s₁, u, hgrow, hsize, hgr.owns.of_table hre.superblock hre.fatTable,
    ⟨v, hre.superblock.trans hv⟩, ?_, fun c hc hco hct => ?_, fun c hc hct i hi hx => ?_,
    time, hre.entry⟩
  · -- the entry lies in another chain, and a grown file reads as before
    funext j
    rw [← hgr.fileBuf h.owns j]
    unfold Server.fileBuf
    rw [hre.superblock, hsb]
    exact paged_congr h.owns.geometry.page_pos (fun c hc i hi =>
      hre.clusters c i (by rw [hsb]; exact hi)
        (fun hcx => absurd hc (hcx ▸ h.notMem_grown hxl))) j
  · rw [Server.next_eq_of_table hre.superblock hre.fatTable]
    exact hgr.links c hc hco hct
  · rw [hre.clusters c i (by rw [hsb]; exact hi) hx]
    exact hgr.clusters c hc hct i hi

/-- **A write comes down to storing the data** once room has been made. -/
theorem updateFile_prepared (hr : env.Reliable) {f : List ℕ} {os : Multiset (List ℕ)}
    {pl : List ℕ} (h : s.HasFile env f o os pl x e) (buf : Buf) (hsize : 0 < size)
    (hsum : offset + size < 2 ^ 32)
    (hn : (offset + size - 1) / s.superblock.bytePerCluster + 1 ≤ o.length + f.length) :
    ∃ u, s.Prepared u env f o os x e
        ((offset + size - 1) / s.superblock.bytePerCluster + 1 - o.length) (offset + size)
      ∧ u.Chain (o.headD endOfChain) (o ++ f.take
        ((offset + size - 1) / s.superblock.bytePerCluster + 1 - o.length))
      ∧ offset + size ≤ (o ++ f.take
        ((offset + size - 1) / s.superblock.bytePerCluster + 1 - o.length)).length
          * u.superblock.bytePerCluster
      ∧ (updateFile (pl.headD endOfChain) e buf size offset).run env s
        = (do
          writeData (o.headD endOfChain) buf size offset
          return (size : ℤ) : FatM ℤ).run env u := by
  have hmem : o ∈ o ::ₘ os := Multiset.mem_cons_self _ _
  have hb := h.owns.geometry.page_pos
  set b := s.superblock.bytePerCluster with hbdef
  set need := (offset + size - 1) / b + 1 with hneed
  set k := need - o.length with hk
  obtain ⟨s₁, u, hgrow, hupdate, hp⟩ := h.prepared hr (offset + size) hn
  obtain ⟨v, hv⟩ := hp.superblock
  have hsb : u.superblock.bytePerCluster = b := by rw [hv]; rfl
  have hchain := hp.owns.chain (Multiset.mem_cons_self (o ++ f.take k) os)
  have hhead : (o ++ f.take k).headD endOfChain = o.headD endOfChain := by
    obtain ⟨a, o', rfl⟩ := List.exists_cons_of_ne_nil (h.owns.owners o hmem).1
    rfl
  have hlen : need ≤ (o ++ f.take k).length := by
    rw [List.length_append, List.length_take]
    omega
  have hbytes : offset + size ≤ (o ++ f.take k).length * b := by
    have hlt := Nat.lt_mul_div_succ (offset + size - 1) hb
    rw [Nat.mul_comm, ← hneed] at hlt
    exact Nat.le_trans (by omega) (Nat.mul_le_mul_right b hlen)
  have hcap : offset + size < 2 ^ 31 := by
    have hle := hchain.length_le
    rw [hv] at hle
    refine Nat.lt_of_le_of_lt (Nat.le_trans hbytes (Nat.mul_le_mul_right b ?_))
      h.owns.geometry.capacity
    exact Nat.le_trans hle (Nat.sub_le _ _)
  have hfinal : finalByteToWrite size offset = offset + size - 1 := by
    rw [finalByteToWrite_eq hsize, Nat.mod_eq_of_lt (by omega)]
  refine ⟨u, hp, hhead ▸ hchain, by rw [hsb]; exact hbytes, ?_⟩
  rw [updateFile, Prog.bind_ok _ (check_run h.type env s), Prog.bind_ok _ (Prog.run_get env s)]
  dsimp only
  rw [← h.head, Prog.bind_ok _ (countClusterInChain_run h.owns.geometry (h.owns.chain hmem)),
    hfinal, Prog.bind_ok _ hgrow, if_pos rfl, Nat.sub_add_cancel (by omega),
    u32_of_lt (by omega), Prog.bind_ok _ hupdate, i32_of_lt (by omega)]

/-- **Writing to a file** what its chain and the free list have room for. -/
theorem updateFile_run (hr : env.Reliable) {f : List ℕ} {os : Multiset (List ℕ)}
    {pl : List ℕ} (h : s.HasFile env f o os pl x e) (buf : Buf) (hsize : 0 < size)
    (hsum : offset + size < 2 ^ 32)
    (hn : (offset + size - 1) / s.superblock.bytePerCluster + 1 ≤ o.length + f.length) :
    ∃ t, (updateFile (pl.headD endOfChain) e buf size offset).run env s = .ok (size : ℤ) t
      ∧ s.Written t env f o os x e
        ((offset + size - 1) / s.superblock.bytePerCluster + 1 - o.length) buf size
        offset := by
  obtain ⟨u, hp, hchain, hbytes, hrun⟩ := updateFile_prepared hr h buf hsize hsum hn
  set k := (offset + size - 1) / s.superblock.bytePerCluster + 1 - o.length
  obtain ⟨v, hv⟩ := hp.superblock
  have hsb := Server.bytePerCluster_of_setFree ⟨v, hv⟩
  obtain ⟨t, hwrite, hst⟩ := writeData_run hr hp.owns.geometry hchain buf hsize
    (by omega) (by omega) hbytes
  have hxo : x.1 ∉ o ++ f.take k :=
    h.notMem_grown (Server.mem_slots.mp (Server.findSlot_some h.found).1).1
  refine ⟨t, ?_, hp.owns.of_table hst.superblock hst.fatTable,
    ⟨v, hst.superblock.trans hv⟩, fun i hi => ?_, fun c hc hco hct => ?_,
    fun c hc hco hct i hi hx => ?_, ?_⟩
  · rw [hrun, Prog.bind_ok _ hwrite]
    rfl
  · rw [hst.bytes i (by rw [hsb]; exact hi), hp.bytes]
  · rw [Server.next_eq_of_table hst.superblock hst.fatTable]
    exact hp.links c hc hco hct
  · rw [hst.others c (by simp [hco, hct]) i (by rw [hsb]; exact hi)]
    exact hp.clusters c hc hct i hi hx
  · obtain ⟨time, hentry⟩ := hp.entry
    refine ⟨time, ?_⟩
    rw [← hentry]
    exact Server.slotEntry_congr (by rw [hst.superblock])
      (fun i _ _ hi => hst.others x.1 hxo i hi)

end Fat
