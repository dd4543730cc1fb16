import LLPFilesystem.FatSync
import LLPFilesystem.FatCausal

/-!
# Updates that return

What each function that changes the superblock or the FAT leaves when it returns: the pool
its table stores, and a disk that agrees with memory if it did before. Reads may fail here;
writes succeed.

One call is different: a write of no bytes right behind the last cluster of a file
(`Server.EmptyWriteAtEnd`). It follows the chain to `END_OF_CHAIN`, which as a cluster number
names the cluster of the superblock, and reads that cluster and writes it back. The bytes are
the same – unless the read fails, which the server does not notice, and then it writes zeros
over the superblock (`updateFile_emptyWrite`).
-/

namespace Fat

variable {env : Env} {s t : Server} {buf src : Buf} {b c d k n off pc size offset : ℕ}
  {f l o : List ℕ} {os : Multiset (List ℕ)} {p : Pool ℕ} {e : FatDirEntry} {r : ℤ}
  {hs : Multiset ℕ} {path : List UInt8} {α : Type} {a : α}

/-! ## Writing to a file -/

theorem ReadOnly.skipClusters (env : Env) (n c : ℕ) : ReadOnly env (skipClusters n c) := by
  induction n generalizing c with
  | zero => exact .pure env _
  | succ n ih => exact (ReadOnly.readFatEntry env c).bind fun next => ih next

namespace KeepsTable

theorem writeWhole (env : Env) (src : Buf) (b n c off : ℕ) :
    KeepsTable env (writeWhole src b n c off) := by
  induction n generalizing c off with
  | zero => exact pure env _
  | succ n ih =>
    exact (of_readOnly (ReadOnly.readFatEntry env c)).bind fun next =>
      (storeCluster env _ next).bind fun _ => ih next _

theorem writeRest (env : Env) (cluster src : Buf) (c off n : ℕ) :
    KeepsTable env (writeRest cluster src c off n) :=
  (get env).bind fun _ => (writeWhole env src _ _ c off).bind fun last =>
    Prog.Within.ite (fun _ => pure env _) fun _ =>
      (of_readOnly (ReadOnly.readFatEntry env last)).bind fun next =>
        (modifyCluster env cluster next 0 _ _).bind fun _ => pure env _

theorem writeData (env : Env) (c : ℕ) (src : Buf) (size offset : ℕ) :
    KeepsTable env (writeData c src size offset) := by
  have hrest : ∀ (cluster : Buf) (d m n : ℕ), KeepsTable env
      (if n = 0 then return () else Fat.writeRest cluster src d m n) := fun cluster d m n =>
    Prog.Within.ite (fun _ => pure env _) fun _ => writeRest env cluster src d m n
  refine (get env).bind fun s => (of_readOnly (.skipClusters env _ c)).bind fun d =>
    bind (fun s => ⟨rfl, rfl⟩)
    fun cluster => Prog.Within.ite (fun _ => ?_) (fun _ => ?_)
  · exact (modifyCluster env cluster d _ src _).bind fun cluster => hrest cluster d _ _
  · refine bind ?_ fun cluster => hrest cluster d _ _
    exact (storeCluster env src d).bind fun _ => pure env _

end KeepsTable

/-- A file that has been given its clusters leaves a disk that agrees. -/
theorem growFile_synced (hw : env.WritesFull) (h : s.Owns ⟨f, o ::ₘ os⟩) (hsync : s.Synced)
    (hrun : (growFile (o.headD endOfChain) o.length n).run env s = .ok true t)
    (hn : n ≤ o.length + f.length) : t.Synced := by
  rcases growFile_cases env h hn with ⟨-, hgrow⟩ | ⟨l, d, r, o', e, rfl, rfl, -, hgrow⟩
  · rw [hgrow] at hrun
    cases hrun
    exact hsync
  · rw [hgrow] at hrun
    cases hrun
    exact hsync.grown hw h.geometry (fun c hc => h.free_data (List.mem_append_left r hc)) d e

/-- **A write that returns does not wrap**: what the chain holds fits an `int`, so the sum of
its offset and its size fits an `unsigned int`, and the write ends inside the chain. -/
theorem write_inside {m : ℕ} (hm : (m + 1) * b < 2 ^ 31) (hb : 0 < b)
    (hneed : finalByteToWrite size offset / b + 1 ≤ m) (hsize : u32 size ≤ (m + 1) * b)
    (hoffset : u32 offset / b ≤ m) :
    0 < u32 offset + u32 size ∧ u32 offset + u32 size < 2 ^ 32
      ∧ finalByteToWrite size offset = u32 offset + u32 size - 1
      ∧ u32 offset + u32 size ≤ m * b := by
  have hlt : u32 offset < (m + 1) * b := by
    rw [← Nat.div_lt_iff_lt_mul hb]
    exact Nat.lt_succ_of_le hoffset
  have hfinal : finalByteToWrite size offset < m * b := by
    rw [← Nat.div_lt_iff_lt_mul hb]
    exact hneed
  rw [Nat.add_mul, Nat.one_mul] at hm
  have hsum : u32 offset + u32 size < 2 ^ 32 := by
    rw [Nat.add_mul, Nat.one_mul] at hlt hsize
    omega
  have heq : finalByteToWrite size offset
      = (u32 offset + u32 size + (2 ^ 32 - 1)) % 2 ^ 32 := by
    rw [finalByteToWrite, u32_of_lt hsum]
    unfold sub32
    rfl
  rw [heq] at hfinal ⊢
  omega

/-- A slot of a directory, inside its cluster, holds the name. -/
def Server.HasSlot (s : Server) (env : Env) (l : List ℕ) (name : List UInt8) : Prop :=
  ∃ x ∈ s.slots l, (s.slotEntry env x).nameStr = name ∧ s.Inside x

/-- **A write of no bytes right behind the last cluster** of a file, in the chain it has or
is given, by a call that finds the entry it has to update. -/
structure Server.EmptyWriteAtEnd (s : Server) (env : Env) (p : Pool ℕ) (parentCluster : ℕ)
    (dirEntry : FatDirEntry) (size offset : ℕ) : Prop where
  type : dirEntry.type = dirEntryTypeFile
  empty : u32 size = 0
  start : 0 < u32 offset
  aligned : s.superblock.bytePerCluster ∣ u32 offset
  behind : ∃ o ∈ p.owners, o.headD endOfChain = dirEntry.firstCluster.toNat
    ∧ o.length ≤ u32 offset / s.superblock.bytePerCluster
    ∧ u32 offset / s.superblock.bytePerCluster ≤ o.length + p.free.length
  entry : dirEntry.size.toNat < u32 offset → ∃ l ∈ p.owners, l.headD endOfChain = parentCluster
    ∧ (dirEntry.nameStr = [] ∨ s.HasSlot env l dirEntry.nameStr)

theorem entryAt_newCluster (ho : off < s.superblock.bytePerCluster) :
    (entryAt (s.newCluster env) off).nameStr = [] := by
  refine FatDirEntry.isFree_iff.mp ?_
  show (s.newCluster env off == 0) = true
  rw [Server.newCluster_of_lt ho]
  rfl

/-- **An update that does not fail has found an entry of the name**, inside its cluster – or
one without a name, which a failed read looks like. -/
theorem updateDirEntry_found (hg : s.superblock.Geometry) (h : s.Chain c l) (hl : l ≠ [])
    (hrun : (updateDirEntry c e false).run env s = .ok r t) (hr : r ≠ -1) :
    e.nameStr = [] ∨ s.HasSlot env l e.nameStr := by
  rw [updateDirEntry, Prog.bind_ok _ (Prog.run_get env s)] at hrun
  obtain ⟨k, d, hd, ⟨buf, off, hhit, hfind, hbuf⟩ | ⟨-, hmiss⟩⟩ := scanDir_ok hg h hl hrun
  · rw [if_neg Bool.false_ne_true] at hhit
    obtain ⟨cluster, u, hput, -⟩ := Prog.bind_eq_ok_iff.mp hhit
    obtain ⟨hin, -⟩ := putEntryAt_ok d hput
    have hmatch := List.find?_some hfind
    have hname : (entryAt buf off).nameStr = e.nameStr := beq_iff_eq.mp hmatch
    have hmem := List.mem_of_find?_eq_some hfind
    rcases hbuf with rfl | rfl
    · exact .inr ⟨(d, off), Server.mem_slots.mpr ⟨hd, hmem⟩, hname, hin⟩
    · rw [entryAt_newCluster (mem_dirSlots.mp hmem).2] at hname
      exact .inl hname.symm
  · cases hmiss
    exact absurd rfl hr

theorem updateSize_found (hg : s.superblock.Geometry) (h : s.Chain c l) (hl : l ≠ [])
    (htype : e.type = dirEntryTypeFile) (hn : e.size.toNat < n)
    (hrun : (updateSize c e n).run env s = .ok () t) :
    e.nameStr = [] ∨ s.HasSlot env l e.nameStr := by
  rw [updateSize, Prog.bind_ok _ (Prog.run_read env s), Prog.bind_ok _ (Prog.run_get env s),
    if_pos hn] at hrun
  obtain ⟨r, u, hupdate, hcheck⟩ := Prog.bind_eq_ok_iff.mp hrun
  have hr : r ≠ -1 := by
    intro hr
    rw [check_stop (by simpa using hr)] at hcheck
    cases hcheck
  have hname : ({ e with
      size := UInt32.ofNat n
      time := UInt64.ofNat (env.time s.pwrites.length) } : FatDirEntry).nameStr = e.nameStr :=
    FatDirEntry.nameStr_file_congr htype rfl rfl
  rw [← hname]
  exact updateDirEntry_found hg h hl hupdate hr

/-- A chain that has grown holds the entries it held; its new clusters hold none. -/
theorem Server.Grown.slot_found {m : Multiset (List ℕ)} {l' : List ℕ} (h : s.Owns ⟨f, m⟩)
    (hgr : s.Grown t f o os k) (hl : l ∈ m) (hl' : ∀ d ∈ l', d ∈ l ∨ d ∈ f.take k)
    {name : List UInt8} (hname : name ≠ [])
    (hfound : t.HasSlot env l' name) : s.HasSlot env l name := by
  obtain ⟨⟨d, off⟩, hx, hx', hin⟩ := hfound
  rw [Server.Inside, hgr.bytePerCluster] at hin
  obtain ⟨hd, hoff⟩ := Server.mem_slots.mp hx
  rw [hgr.bytePerCluster] at hoff
  have hlt : off < s.superblock.bytePerCluster := (mem_dirSlots.mp hoff).2
  rcases hl' d hd with hdl | hnew
  · refine ⟨(d, off), Server.mem_slots.mpr ⟨hdl, hoff⟩, ?_, hin⟩
    rw [← hgr.slotEntry_owner h hl hdl]
    exact hx'
  · refine absurd ?_ hname
    rw [← hx']
    refine FatDirEntry.isFree_iff.mp ((Server.isFree_slotEntry ?_).mpr (hgr.zero d hnew off hlt))
    rwa [hgr.bytePerCluster]

theorem writeData_offset_ok (hg : s.superblock.Geometry) (h : s.Chain c l)
    (hrun : (writeData c src size offset).run env s = .ok () t) :
    u32 offset / s.superblock.bytePerCluster ≤ l.length := by
  rw [writeData, Prog.bind_ok _ (Prog.run_get env s)] at hrun
  obtain ⟨d, u, hskip, -⟩ := Prog.bind_eq_ok_iff.mp hrun
  exact (skipClusters_ok hg h hskip).2.1

/-- The chain of an owner after another, or the same, has grown at its end. -/
theorem exists_grown_owner {g : List ℕ} (ho : o ≠ []) (hl : l ∈ o ::ₘ os) :
    ∃ l' ∈ (o ++ g) ::ₘ os, l'.headD endOfChain = l.headD endOfChain
      ∧ (∀ d ∈ l, d ∈ l') ∧ ∀ d ∈ l', d ∈ l ∨ d ∈ g := by
  rcases Multiset.mem_cons.mp hl with rfl | hmem
  · refine ⟨l ++ g, Multiset.mem_cons_self _ _, ?_, fun d hd => List.mem_append_left g hd,
      fun d hd => List.mem_append.mp hd⟩
    obtain ⟨x, l, rfl⟩ := List.exists_cons_of_ne_nil ho
    rfl
  · exact ⟨l, Multiset.mem_cons_of_mem hmem, rfl, fun d hd => hd, fun d hd => .inl hd⟩

/-- **A write that has returned, phase by phase**: the chain `o` got its clusters, then the
entry its size, then the clusters the data. -/
structure Phases (env : Env) (s s₁ u t : Server) (f o : List ℕ) (os : Multiset (List ℕ))
    (pc : ℕ) (e : FatDirEntry) (src : Buf) (size offset need : ℕ) : Prop where
  type : e.type = dirEntryTypeFile
  need_eq : need = finalByteToWrite size offset / s.superblock.bytePerCluster + 1
  enough : need ≤ o.length + f.length
  grow : (growFile (o.headD endOfChain) o.length need).run env s = .ok true s₁
  owns : s₁.Owns ⟨f.drop (need - o.length), (o ++ f.take (need - o.length)) ::ₘ os⟩
  bytePerCluster : s₁.superblock.bytePerCluster = s.superblock.bytePerCluster
  update : (updateSize pc e (u32 offset + u32 size)).run env s₁ = .ok () u
  kept : s₁.Kept u
  data : (writeData e.firstCluster.toNat src size offset).run env u = .ok () t
  chain : u.Chain e.firstCluster.toNat (o ++ f.take (need - o.length))
  pos : 0 < u32 offset + u32 size
  lt : u32 offset + u32 size < 2 ^ 32
  final : finalByteToWrite size offset = u32 offset + u32 size - 1
  inside : u32 offset + u32 size
    ≤ (o ++ f.take (need - o.length)).length * s.superblock.bytePerCluster

theorem Phases.superblock_bytes {s₁ u : Server} {need : ℕ}
    (h : Phases env s s₁ u t f o os pc e src size offset need) :
    u.superblock.bytePerCluster = s.superblock.bytePerCluster := by
  rw [h.kept.table.superblock, h.bytePerCluster]

/-- A write that returns has been refused, with nothing done, or has gone through its
phases. -/
theorem updateFile_phases (h : s.Owns ⟨f, o ::ₘ os⟩)
    (hhead : o.headD endOfChain = e.firstCluster.toNat) (hl : l ∈ o ::ₘ os)
    (hrun : (updateFile (l.headD endOfChain) e src size offset).run env s = .ok r t) :
    t = s ∧ r = -enomem ∨ r = i32 size ∧ ∃ s₁ u need,
      Phases env s s₁ u t f o os (l.headD endOfChain) e src size offset need := by
  have htype : e.type = dirEntryTypeFile := by
    by_contra hne
    rw [updateFile, Prog.bind_stop _ (check_stop hne env s)] at hrun
    cases hrun
  rcases Nat.lt_or_ge (o.length + f.length)
    (finalByteToWrite size offset / s.superblock.bytePerCluster + 1) with hgt | hle
  · rcases Nat.eq_or_lt_of_le (Nat.succ_le_of_lt hgt) with heq | hgt
    · rw [updateFile_stop h hhead htype heq.symm] at hrun
      cases hrun
    · rw [updateFile_refused h hhead htype hgt] at hrun
      cases hrun
      exact .inl ⟨rfl, rfl⟩
  obtain ⟨s₁, hgrow, howns, ⟨v, hv⟩, -⟩ := growFile_owns env h hle
  have hb := Server.bytePerCluster_of_setFree ⟨v, hv⟩
  set need := finalByteToWrite size offset / s.superblock.bytePerCluster + 1 with hneed
  have hg := howns.geometry
  have ho := (h.owners o (Multiset.mem_cons_self _ _)).1
  obtain ⟨l', hl', hhead', -, -⟩ := exists_grown_owner (g := f.take (need - o.length)) ho hl
  have hchain := howns.chain (Multiset.mem_cons_self _ _)
  obtain ⟨x, o', rfl⟩ := List.exists_cons_of_ne_nil ho
  set k := need - (x :: o').length with hk
  rw [show ((x :: o') ++ f.take k).headD endOfChain = e.firstCluster.toNat from hhead] at hchain
  have hgrow' := hgrow
  rw [hhead] at hgrow
  rw [updateFile_grow h hhead htype, Prog.bind_ok _ hgrow, if_pos rfl] at hrun
  obtain ⟨_, u, hupdate, hrest⟩ := Prog.bind_eq_ok_iff.mp hrun
  obtain ⟨_, _, hdata, hret⟩ := Prog.bind_eq_ok_iff.mp hrest
  cases hret
  have hkept : s₁.Kept u := updateSize_kept hg (hhead' ▸ howns.chain hl')
    (howns.owners l' hl').1 hupdate
  have hg₂ := hkept.table.geometry hg
  have hchain₂ := hkept.table.chain hchain
  have hb₂ : u.superblock.bytePerCluster = s.superblock.bytePerCluster := by
    rw [hkept.table.superblock, hb]
  -- the write ends inside the chain, so it does not wrap
  have hsize := writeData_ok hg₂ hchain₂ hdata
  have hoffset := writeData_offset_ok hg₂ hchain₂ hdata
  rw [hb₂] at hsize hoffset
  set m := ((x :: o') ++ f.take k).length with hm
  have hmlen : m = (x :: o').length + k := by
    rw [hm, List.length_append, List.length_take, Nat.min_eq_left]
    omega
  have hcap : (m + 1) * s.superblock.bytePerCluster < 2 ^ 31 := by
    have hlen := hchain₂.length_le
    have hroom := hg₂.room
    rw [hg₂.root] at hroom
    rw [← hb₂]
    refine lt_of_le_of_lt (Nat.mul_le_mul_right _ ?_) hg₂.capacity
    omega
  obtain ⟨hpos, hlt, hfinal, hend⟩ := write_inside hcap h.geometry.page_pos
    (by omega) hsize hoffset
  have hsum : u32 (finalByteToWrite size offset + 1) = u32 offset + u32 size := by
    rw [hfinal, Nat.sub_add_cancel hpos]
    exact u32_of_lt hlt
  rw [hsum] at hupdate
  exact .inr ⟨rfl, s₁, u, need, htype, hneed, hle, hgrow', howns, hb, hupdate, hkept, hdata,
    hchain₂, hpos, hlt, hfinal, hend⟩

/-- The data ends inside the chain: it touches no cluster behind it, unless there is none. -/
theorem Phases.data_kept {s₁ u : Server} {need : ℕ}
    (h : Phases env s s₁ u t f o os pc e src size offset need)
    (hin : u32 offset / s.superblock.bytePerCluster < (o ++ f.take (need - o.length)).length) :
    u.Kept t :=
  writeData_kept (h.kept.table.geometry h.owns.geometry) h.chain
    (by rwa [h.superblock_bytes]) (by rw [h.superblock_bytes]; exact h.inside) h.data

/-- A write that does not start inside the chain is empty, and right behind it. -/
theorem Phases.behind {s₁ u : Server} {need : ℕ}
    (h : Phases env s s₁ u t f o os pc e src size offset need)
    (hge : (o ++ f.take (need - o.length)).length ≤ u32 offset / s.superblock.bytePerCluster) :
    u32 size = 0
      ∧ u32 offset = (o ++ f.take (need - o.length)).length * s.superblock.bytePerCluster := by
  have hb : 0 < s.superblock.bytePerCluster := by
    rw [← h.bytePerCluster]
    exact h.owns.geometry.page_pos
  have hstart := (Nat.le_div_iff_mul_le hb).mp hge
  have hinside := h.inside
  omega

/-- **What a write that returns leaves**: the file may have taken clusters from the front of
the free list, and the disk agrees with memory if it did – unless the write was empty and
right behind the last cluster. -/
theorem updateFile_ok (hw : env.WritesFull) (h : s.Owns ⟨f, o ::ₘ os⟩)
    (hhead : o.headD endOfChain = e.firstCluster.toNat) (hl : l ∈ o ::ₘ os)
    (hrun : (updateFile (l.headD endOfChain) e src size offset).run env s = .ok r t) :
    ∃ k, t.Owns ⟨f.drop k, (o ++ f.take k) ::ₘ os⟩
      ∧ (¬ s.EmptyWriteAtEnd env ⟨f, o ::ₘ os⟩ (l.headD endOfChain) e size offset →
        s.Synced → t.Synced) := by
  rcases updateFile_phases h hhead hl hrun with ⟨rfl, -⟩ | ⟨-, s₁, u, need, hp⟩
  · refine ⟨0, ?_, fun _ hsync => hsync⟩
    rwa [List.drop_zero, List.take_zero, List.append_nil]
  have hsame := (KeepsTable.writeData env _ src size offset).of_ok hp.data
  refine ⟨need - o.length, (hp.owns.of_table hp.kept.table.superblock
    hp.kept.table.fatTable).of_table hsame.superblock hsame.fatTable, fun hempty hsync => ?_⟩
  have hsync₁ := growFile_synced hw h hsync hp.grow hp.enough
  refine Server.Kept.synced ?_ (hp.kept.synced hsync₁)
  set m := (o ++ f.take (need - o.length)).length with hm
  have hmlen : m ≤ o.length + f.length ∧ o.length ≤ m := by
    rw [hm, List.length_append, List.length_take]
    omega
  rcases Nat.lt_or_ge (u32 offset / s.superblock.bytePerCluster) m with hlt | hge
  · exact hp.data_kept hlt
  · obtain ⟨hsize, hq⟩ := hp.behind hge
    have hdiv : u32 offset / s.superblock.bytePerCluster = m := by
      rw [hq, Nat.mul_div_cancel _ h.geometry.page_pos]
    refine absurd ⟨hp.type, hsize, by have := hp.pos; omega, ⟨m, by rw [hq, Nat.mul_comm]⟩, ⟨o,
      Multiset.mem_cons_self _ _, hhead, by rw [hdiv]; exact hmlen.2, by rw [hdiv]; exact hmlen.1⟩,
      fun hlt => ⟨l, hl, rfl, ?_⟩⟩ hempty
    by_cases hname : e.nameStr = []
    · exact .inl hname
    · have ho := (h.owners o (Multiset.mem_cons_self _ _)).1
      obtain ⟨l', hl', hhead', -, hgrown⟩ :=
        exists_grown_owner (g := f.take (need - o.length)) ho hl
      obtain ⟨s₂, hgrow, hgr⟩ := growFile_grown hw h hp.enough
      obtain rfl : s₂ = s₁ := by
        have hrun' := hgrow.symm.trans hp.grow
        cases hrun'
        rfl
      have hupdate := hp.update
      rw [hsize, Nat.add_zero, ← hhead'] at hupdate
      have hfound := (updateSize_found hgr.owns.geometry (hgr.owns.chain hl')
        (hgr.owns.owners l' hl').1 hp.type hlt hupdate).resolve_left hname
      exact .inr (hgr.slot_found h hl hgrown hname hfound)

/-! ## The empty write behind the last cluster -/

/-- The superblock of a disk the server relies on is not all zeros. -/
theorem Superblock.Geometry.exists_bytes_ne (hg : s.superblock.Geometry) :
    ∃ i < superblockSize, s.superblock.bytes i ≠ 0 := by
  by_contra hzero
  push Not at hzero
  have hpage := hg.page
  have hlt := hg.bytePerCluster_lt
  have hfield : leNat (fun _ => 0) 0 4 = s.superblock.bytePerCluster :=
    leNat_bytes (m := fun _ => 0) (fun i hi => (hzero i hi).symm) (by decide) (by omega)
      fun i hi => by interval_cases i <;> rfl
  rw [show leNat (fun _ => 0) 0 4 = 0 from rfl] at hfield
  rw [← hfield] at hpage
  exact absurd hpage (by decide)

/-- **Zeros over the superblock**: the disk does not agree any more. -/
theorem not_synced_writeCluster (hw : env.WritesFull) (hg : s.superblock.Geometry) :
    ¬ (s.writeCluster env (s.newCluster env) 0).Synced := by
  intro hsync
  obtain ⟨i, hi, hne⟩ := hg.exists_bytes_ne
  refine hne ((hsync.superblock i hi).symm.trans ?_)
  have hib : i < s.superblock.bytePerCluster := hi.trans_le hg.page
  have hread : (s.writeCluster env (s.newCluster env) 0).cluster 0 i = s.newCluster env i :=
    Server.cluster_writeCluster hw hib
  rw [Server.newCluster_of_lt hib] at hread
  rw [← hread]
  show _ = (s.writeCluster env (s.newCluster env) 0).fatDisk (0 * _ + i)
  rw [Nat.zero_mul, Nat.zero_add]

theorem modifyCluster_failed (hw : env.WritesFull) (hg : s.superblock.Geometry)
    (hc : c < s.superblock.clusterCount) (hfail : env.pread s.preads = .failed) (buf src : Buf) :
    (modifyCluster buf c off src 0).run env s
      = .ok buf (s.readOnce.writeCluster env buf c) := by
  have hread := readClusterFromDisk_failed hg hc (le_refl _) hfail buf
  have hstore : (storeCluster buf c).run env s.readOnce
      = .ok () (s.readOnce.writeCluster env buf c) := by
    rw [storeCluster, Prog.bind_ok _ (writeClusterToDisk_run (s := s.readOnce) hg hc),
      Server.writeStatus_of_writesFull hw]
    exact check_run (by decide) env _
  rw [modifyCluster, readEntireCluster_bind, Prog.bind_ok _ hread]
  dsimp only
  rw [check_full, Buf.blit_zero, Prog.bind_ok _ hstore]
  rfl

/-- **An empty write right behind the chain** whose read fails writes zeros over the
superblock. -/
theorem writeData_failed (hw : env.WritesFull) (hg : s.superblock.Geometry) (h : s.Chain c l)
    (hempty : u32 size = 0) (haligned : s.superblock.bytePerCluster ∣ u32 offset)
    (hbehind : u32 offset / s.superblock.bytePerCluster = l.length)
    (hfail : env.pread s.preads = .failed) :
    (writeData c src size offset).run env s
      = .ok () (s.readOnce.writeCluster env (s.newCluster env) 0) := by
  have hskip : (skipClusters l.length c).run env s = .ok endOfChain s := by
    obtain ⟨d, hrun, hd⟩ := skipClusters_run env hg
      (show s.Chain c (l ++ []) by rwa [List.append_nil])
    rw [hrun, show d = endOfChain from hd.linked]
  have hnew : getNewCluster.run env s = .ok (s.newCluster env) s := rfl
  have hmodify : (modifyCluster (s.newCluster env) endOfChain 0 src 0).run env s
      = .ok (s.newCluster env) (s.readOnce.writeCluster env (s.newCluster env) 0) :=
    modifyCluster_failed hw hg ((Nat.zero_le _).trans_lt hg.room) hfail _ _
  rw [writeData, Prog.bind_ok _ (Prog.run_get env s)]
  dsimp only
  rw [hbehind, Prog.bind_ok _ hskip, Prog.bind_ok _ hnew, hempty, Nat.zero_min,
    Nat.mod_eq_zero_of_dvd haligned, if_pos hg.page_pos, Prog.bind_ok _ hmodify]
  rfl

/-- The environment with other outcomes of its reads. -/
def Env.withReads (env : Env) (reads : ℕ → Transfer) : Env := { env with pread := reads }

/-- A scan whose first reads fail finds nothing in the clusters they were for. -/
theorem scanDir_skips {valid : Superblock → ℕ → Bool} {q : FatDirEntry → Bool}
    {hit : ℕ → Buf → ℕ → FatM α} {miss : ℕ → FatM α} {m : List ℕ} {fuel : ℕ}
    (hg : s.superblock.Geometry) (h : s.Chain c (l ++ d :: m))
    (hvalid : ∀ x ∈ l, valid s.superblock x = true)
    (hzero : ∀ o < s.superblock.bytePerCluster, q (entryAt (s.newCluster env) o) = false)
    (hfail : ∀ j < l.length, env.pread (s.preads + j) = .failed) :
    (scanDir valid q hit miss (l.length + fuel) c).run env s
      = (scanDir valid q hit miss fuel d).run env { s with preads := s.preads + l.length } := by
  induction l generalizing c s with
  | nil =>
    obtain rfl : c = d := h.head_eq
    rw [List.length_nil, Nat.zero_add]
    rfl
  | cons x l ih =>
    obtain rfl : c = x := h.head_eq
    have hread : (readClusterFromDisk (s.newCluster env) c 0 s.superblock.bytePerCluster).run env s
        = .ok (0, s.newCluster env) s.readOnce :=
      readClusterFromDisk_failed hg h.head_data.2 (le_refl _)
        (hfail 0 (Nat.succ_pos l.length)) _
    have hnone : (dirSlots s.superblock.bytePerCluster).find?
        (fun o => q (entryAt (s.newCluster env) o)) = none :=
      List.find?_eq_none.mpr fun o ho => by
        rw [hzero o (mem_dirSlots.mp ho).2]
        exact Bool.false_ne_true
    have htail := h.tail.preads (s.preads + 1)
    have hnext : (readFatEntry c).run env s.readOnce = .ok (s.next c) s.readOnce :=
      readFatEntry_run (s := s.readOnce) hg h.head_data
    have hrest := ih (s := s.readOnce) hg htail
      (fun y hy => hvalid y (List.mem_cons_of_mem c hy)) hzero fun j hj => by
        have hj' := hfail (j + 1) (Nat.succ_lt_succ hj)
        rw [← hj']
        exact congrArg env.pread (Nat.add_right_comm s.preads 1 j)
    rw [List.length_cons, Nat.succ_add, scanDir, Prog.bind_ok _ (Prog.run_get env s),
      Prog.bind_ok _ (check_run (hvalid c List.mem_cons_self) env s), loadCluster_bind,
      Prog.bind_ok _ hread, check_full]
    dsimp only
    rw [hnone]
    dsimp only
    rw [Prog.bind_ok _ hnext, if_neg (htail.ne_end (by simp)), hrest]
    show (scanDir valid q hit miss fuel d).run env { s with preads := s.preads + 1 + l.length } = _
    rw [Nat.add_right_comm]
    rfl

/-- **A slot that is looked for can be reached**, or one before it in its cluster: the reads
of the clusters in front fail, and those from there on succeed. -/
theorem scanDir_reaches {q : FatDirEntry → Bool} {hit : ℕ → Buf → ℕ → FatM α}
    {miss : ℕ → FatM α} {x : ℕ × ℕ} {fuel : ℕ} (hg : s.superblock.Geometry) (h : s.Chain c l)
    (hx : x ∈ s.slots l) (hq : q (s.slotEntry env x) = true)
    (hzero : ∀ o < s.superblock.bytePerCluster, q (entryAt (s.newCluster env) o) = false)
    (hhit : ∀ c buf o, Causal (hit c buf o)) (hmiss : ∀ c, Causal (miss c))
    (hf : l.length ≤ fuel) :
    ∃ reads k o, o ≤ x.2
      ∧ (scanDir (fun _ _ => true) q hit miss fuel c).run (env.withReads reads) s
        = (hit x.1 (s.clusterBuf env x.1) o).run (env.withReads fun _ => .full)
          { s with preads := k } := by
  obtain ⟨hxl, hxs⟩ := Server.mem_slots.mp hx
  obtain ⟨l₁, l₂, rfl⟩ := List.append_of_mem hxl
  set full : ℕ → Transfer := fun _ => .full with hfull
  set reads : ℕ → Transfer := fun j => if j < s.preads + l₁.length then .failed else full j
    with hreads
  set u : Server := { s with preads := s.preads + l₁.length } with hu
  rw [List.length_append] at hf
  obtain ⟨m, rfl⟩ := Nat.exists_eq_add_of_le (Nat.le_of_add_right_le hf)
  have hchain : u.Chain x.1 (x.1 :: l₂) := by
    obtain ⟨d, -, hd⟩ := skipClusters_run env hg h
    have hd' := hd.preads (s.preads + l₁.length)
    rwa [hd.head_eq] at hd'
  -- the first slot that is looked for is in the cluster of `x`, and not behind `x`
  obtain ⟨o, ho⟩ := Option.isSome_iff_exists.mp (List.find?_isSome
    (p := fun o => q (entryAt (u.clusterBuf (env.withReads full) x.1) o)).mpr ⟨x.2, hxs, hq⟩)
  have hfind : u.findSlot (env.withReads full) (x.1 :: l₂) q = some (x.1, o) := by
    rw [Server.findSlot_cons, show u.superblock.bytePerCluster
      = s.superblock.bytePerCluster from rfl, ho]
    rfl
  have hskip : (scanDir (fun _ _ => true) q hit miss (l₁.length + m) c).run
      (env.withReads reads) s
        = (scanDir (fun _ _ => true) q hit miss m x.1).run (env.withReads reads) u :=
    scanDir_skips hg h (fun _ _ => rfl) hzero fun j hj => if_pos (Nat.add_lt_add_left hj _)
  have hlater : (scanDir (fun _ _ => true) q hit miss m x.1).run (env.withReads reads) u
      = (scanDir (fun _ _ => true) q hit miss m x.1).run (env.withReads full) u :=
    (Causal.scanDir hhit hmiss m x.1).congr _ _ u ⟨fun j hj _ =>
      if_neg (Nat.not_lt_of_le hj), fun _ _ _ => rfl, rfl, rfl⟩
  have hlast : ∃ l' d, x.1 :: l₂ = l' ++ [d] := by
    rcases (x.1 :: l₂).eq_nil_or_concat with hcons | ⟨l', d, hcons⟩
    · cases hcons
    · exact ⟨l', d, by rw [hcons, List.concat_eq_append]⟩
  obtain ⟨l', d, hcons⟩ := hlast
  have hlen : (x.1 :: l₂).length ≤ m := by omega
  rw [hcons] at hchain hfind hlen
  have hfull' : (env.withReads full).ReadsFull := fun _ => rfl
  obtain ⟨k, hk⟩ := scanDir_run (s := u) (fun _ _ => true) q hit miss hfull' hg hchain
    (fun _ _ => rfl) hlen hfind
  exact ⟨reads, k, o, find_dirSlots_le ho hxs hq, hskip.trans (hlater.trans hk)⟩

/-- An entry without a name is updated where a failed read finds a free slot. -/
theorem updateDirEntry_unnamed (hw : env.WritesFull) (hg : s.superblock.Geometry)
    (h : s.Chain c l) (hl : l ≠ []) (hnil : e.nameStr = []) :
    ∃ reads t, (updateDirEntry c e false).run (env.withReads reads) s = .ok 0 t := by
  obtain ⟨y, l, rfl⟩ := List.exists_cons_of_ne_nil hl
  obtain rfl : c = y := h.head_eq
  have hc := h.head_data
  set env' := env.withReads fun _ => .failed with henv
  have hread : (readClusterFromDisk (s.newCluster env') c 0 s.superblock.bytePerCluster).run env'
      s = .ok (0, s.newCluster env') s.readOnce :=
    readClusterFromDisk_failed hg hc.2 (le_refl _) rfl _
  have hfree : (fun e' : FatDirEntry => e'.nameStr == e.nameStr) = FatDirEntry.isFree := by
    funext e'
    rw [hnil, Bool.eq_iff_iff, beq_iff_eq]
    exact FatDirEntry.isFree_iff.symm
  have hput : (putEntryAt (s.newCluster env') 0 e).run env' s.readOnce
      = .ok ((s.newCluster env').blit 0 e.bytes dirEntrySize) s.readOnce :=
    putEntryAt_run (x := (c, 0)) (Server.inside_zero (s := s.readOnce) hg c) _ e
  refine ⟨fun _ => .failed, s.readOnce.writeCluster env'
    ((s.newCluster env').blit 0 e.bytes dirEntrySize) c, ?_⟩
  rw [← henv, updateDirEntry, Prog.bind_ok _ (Prog.run_get env' s), hfree, Server.chainFuel,
    scanDir, Prog.bind_ok _ (Prog.run_get env' s), Prog.bind_ok _ (check_run rfl env' s),
    loadCluster_bind, Prog.bind_ok _ hread, check_full]
  dsimp only
  rw [find_isFree_newCluster hg]
  dsimp only
  rw [if_neg Bool.false_ne_true, Prog.bind_ok _ hput,
    writeClusterToDisk_run (s := s.readOnce) hg hc.2,
    Server.writeStatus_of_writesFull (show env'.WritesFull from hw)]

/-- An entry that has a name and is in the directory, inside a cluster, or has none, can be
updated: with reads that fail for the clusters in front, and succeed from there on. -/
theorem updateDirEntry_succeeds (hw : env.WritesFull) (hg : s.superblock.Geometry)
    (h : s.Chain c l) (hl : l ≠ []) (hfound : e.nameStr = [] ∨ s.HasSlot env l e.nameStr) :
    ∃ reads t, (updateDirEntry c e false).run (env.withReads reads) s = .ok 0 t := by
  by_cases hnil : e.nameStr = []
  · exact updateDirEntry_unnamed hw hg h hl hnil
  · obtain ⟨x, hx, hname, hin⟩ := hfound.resolve_left hnil
    have hcausal : ∀ (d : ℕ) (buf : Buf) (o : ℕ), Causal (if false = true then
        writeClusterToDisk (buf.blit o (fun _ => 0) 1) d
      else putEntryAt buf o e >>= fun cluster => writeClusterToDisk cluster d) :=
      fun d buf o => .ite (.writeClusterToDisk _ d)
        ((Causal.putEntryAt buf o e).bind fun cluster => .writeClusterToDisk cluster d)
    have hmiss : ∀ _ : ℕ, Causal (return -1 : FatM ℤ) := fun _ => .pure _
    have hzero : ∀ o < s.superblock.bytePerCluster,
        ((entryAt (s.newCluster env) o).nameStr == e.nameStr) = false := fun o ho =>
      beq_false_of_ne fun heq => hnil (heq.symm.trans (entryAt_newCluster ho))
    obtain ⟨reads, k, o, hle, hscan⟩ := scanDir_reaches (q := fun e' => e'.nameStr == e.nameStr)
      hg h hx (beq_iff_eq.mpr hname) hzero hcausal hmiss (Nat.le_of_lt (h.length_lt_fuel hg))
    have hino : ({ s with preads := k } : Server).Inside (x.1, o) :=
      Nat.le_trans (Nat.add_le_add_right hle _) hin
    rw [if_neg Bool.false_ne_true, putEntryAt_write (s := { s with preads := k })
      (x := (x.1, o)) hg (h.data _ (Server.mem_slots.mp hx).1) hino,
      Server.writeStatus_of_writesFull
        (show (env.withReads fun _ => .full).WritesFull from hw)] at hscan
    refine ⟨reads, _, Eq.trans ?_ hscan⟩
    rw [updateDirEntry, Prog.bind_ok _ (Prog.run_get _ s)]

theorem updateSize_succeeds (hw : env.WritesFull) (hg : s.superblock.Geometry)
    (h : s.Chain c l) (hl : l ≠ []) (htype : e.type = dirEntryTypeFile)
    (hfound : e.size.toNat < n → e.nameStr = [] ∨ s.HasSlot env l e.nameStr) :
    ∃ reads t, (updateSize c e n).run (env.withReads reads) s = .ok () t := by
  by_cases hn : e.size.toNat < n
  · set e' : FatDirEntry := { e with
      size := UInt32.ofNat n, time := UInt64.ofNat (env.time s.pwrites.length) } with he'
    have hname : e'.nameStr = e.nameStr := FatDirEntry.nameStr_file_congr htype rfl rfl
    obtain ⟨reads, t, hrun⟩ := updateDirEntry_succeeds (e := e') hw hg h hl
      (by rw [hname]; exact hfound hn)
    refine ⟨reads, t, ?_⟩
    rw [updateSize, Prog.bind_ok _ (Prog.run_read _ s), Prog.bind_ok _ (Prog.run_get _ s),
      if_pos hn]
    exact (Prog.bind_ok (fun result => check (result ≠ -1)) hrun).trans (check_run (by decide) _ t)
  · refine ⟨env.pread, s, ?_⟩
    rw [updateSize, Prog.bind_ok _ (Prog.run_read _ s), Prog.bind_ok _ (Prog.run_get _ s),
      if_neg hn]
    rfl

/-- A program that reads no cluster runs the same however reads end. -/
theorem Causal.withReads {x : FatM α} (hx : Causal x) (hun : Unread env x)
    (reads : ℕ → Transfer) (s : Server) : x.run (env.withReads reads) s = x.run env s := by
  refine hx.congr env (env.withReads reads) s ⟨fun k hk hlt => ?_, fun _ _ _ => rfl, rfl, rfl⟩
  rw [(hun s).preads] at hlt
  exact absurd hk (Nat.not_le_of_lt hlt)

theorem Unread.growFile (c n m : ℕ) : Unread env (growFile c n m) := by
  refine Prog.Within.ite (fun _ => (Unread.popFreeClusters _).bind fun first =>
    Prog.Within.ite (fun _ => Unread.pure _) fun _ => ?_) fun _ => Unread.pure _
  refine Unread.bind ?_ fun last =>
    (Unread.updateFatEntry last first true).bind fun _ => Unread.pure _
  exact Unread.get.bind fun s =>
    Prog.Within.ite (fun _ => Unread.pure _) fun _ => Unread.followChain _ _

/-- **The empty write behind the last cluster loses the superblock**, when the read of the
cluster it writes back fails. -/
theorem updateFile_emptyWrite (hw : env.WritesFull) (h : s.Owns p)
    (hempty : s.EmptyWriteAtEnd env p pc e size offset) (src : Buf) :
    ∃ reads r t, (updateFile pc e src size offset).run (env.withReads reads) s = .ok r t
      ∧ ¬ t.Synced := by
  obtain ⟨o, hmem, hhead, hlo, hhi⟩ := hempty.behind
  obtain ⟨os, hos⟩ := Multiset.exists_cons_of_mem hmem
  obtain ⟨f, _⟩ := p
  obtain rfl := hos
  have hb := h.geometry.page_pos
  set b := s.superblock.bytePerCluster with hbdef
  have hq : u32 offset / b * b = u32 offset := Nat.div_mul_cancel hempty.aligned
  have hfinal : finalByteToWrite size offset = u32 offset - 1 := by
    rw [finalByteToWrite, hempty.empty, Nat.add_zero, u32_of_lt (u32_lt offset)]
    exact sub32_of_le (u32_lt offset) hempty.start
  have hneed : finalByteToWrite size offset / b + 1 = u32 offset / b := by
    have hdiv := Nat.mul_sub_div 0 b (u32 offset / b) (by rw [Nat.mul_comm, hq]; exact hempty.start)
    rw [Nat.mul_comm, hq, Nat.zero_add, Nat.zero_div, Nat.zero_add] at hdiv
    rw [hfinal, hdiv]
    exact Nat.sub_add_cancel (Nat.div_pos (Nat.le_of_dvd hempty.start hempty.aligned) hb)
  have hn : u32 (finalByteToWrite size offset + 1) = u32 offset := by
    rw [hfinal, Nat.sub_add_cancel hempty.start]
    exact u32_of_lt (u32_lt offset)
  -- the file is given its clusters, and the size of its entry is updated
  obtain ⟨s₁, hgrow, hgr⟩ := growFile_grown hw h (hneed.trans_le hhi)
  set k := finalByteToWrite size offset / b + 1 - o.length with hk
  have ho := (h.owners o (Multiset.mem_cons_self _ _)).1
  have hupdate : ∃ reads u, (updateSize pc e (u32 offset)).run (env.withReads reads) s₁ = .ok () u
      ∧ s₁.Kept u := by
    by_cases hlt : e.size.toNat < u32 offset
    · obtain ⟨l, hl, rfl, hfound⟩ := hempty.entry hlt
      obtain ⟨l', hl', hhead', hold, -⟩ := exists_grown_owner (g := f.take k) ho hl
      have hparent := hgr.owns.chain hl'
      have hparent' := (hgr.owns.owners l' hl').1
      obtain ⟨reads, u, hrun⟩ := updateSize_succeeds (n := u32 offset) hw hgr.owns.geometry hparent
        hparent' hempty.type fun _ => hfound.imp id fun hslot => by
          obtain ⟨x, hx, hname, hin⟩ := hslot
          obtain ⟨hxl, hslot⟩ := Server.mem_slots.mp hx
          refine ⟨x, Server.mem_slots.mpr ⟨hold _ hxl, ?_⟩, ?_, ?_⟩
          · rwa [hgr.bytePerCluster]
          · rwa [hgr.slotEntry_owner h hl hxl]
          · rwa [Server.Inside, hgr.bytePerCluster]
      rw [hhead'] at hrun
      exact ⟨reads, u, hrun, updateSize_kept hgr.owns.geometry (hhead' ▸ hparent) hparent' hrun⟩
    · refine ⟨env.pread, s₁, ?_, .refl s₁⟩
      rw [updateSize, Prog.bind_ok _ (Prog.run_read _ s₁), Prog.bind_ok _ (Prog.run_get _ s₁),
        if_neg hlt]
      rfl
  obtain ⟨reads, u, hupdate, hkept⟩ := hupdate
  have hlater := (Causal.updateSize pc e (u32 offset)).later (env.withReads reads) s₁
  rw [hupdate] at hlater
  set failing : ℕ → Transfer := fun j => if j < u.preads then reads j else .failed with hfailing
  have hgrow' := ((Causal.growFile (o.headD endOfChain) o.length _).withReads
    (Unread.growFile _ _ _) failing s).trans hgrow
  have hupdate' : (updateSize pc e (u32 offset)).run (env.withReads failing) s₁ = .ok () u := by
    rw [← hupdate]
    refine (Causal.updateSize pc e (u32 offset)).congr _ _ s₁ ⟨fun j _ hj => ?_, fun _ _ _ => rfl,
      rfl, rfl⟩
    rw [hupdate] at hj
    exact if_pos hj
  -- then comes the write, whose read fails
  have hchain := hkept.table.chain (hgr.owns.chain (Multiset.mem_cons_self _ _))
  have hg := hkept.table.geometry hgr.owns.geometry
  have hbu : u.superblock.bytePerCluster = b := by
    rw [hkept.table.superblock, hgr.bytePerCluster]
  have hfail : (env.withReads failing).pread u.preads = .failed := if_neg (lt_irrefl u.preads)
  have hw' : (env.withReads failing).WritesFull := hw
  have hhi' : u32 offset / b ≤ o.length + f.length := hhi
  have hlen : u32 offset / b = (o ++ f.take k).length := by
    rw [List.length_append, List.length_take, Nat.min_eq_left (by omega)]
    omega
  have hdata : (writeData ((o ++ f.take k).headD endOfChain) src size offset).run
      (env.withReads failing) u = .ok () (u.readOnce.writeCluster (env.withReads failing)
        (u.newCluster (env.withReads failing)) 0) :=
    writeData_failed hw' hg hchain hempty.empty (by rw [hbu]; exact hempty.aligned)
      (by rw [hbu]; exact hlen) hfail
  obtain ⟨x, o', rfl⟩ := List.exists_cons_of_ne_nil ho
  rw [show ((x :: o') ++ f.take k).headD endOfChain = e.firstCluster.toNat from hhead] at hdata
  rw [hhead] at hgrow'
  refine ⟨failing, i32 size, _, ?_, not_synced_writeCluster (s := u.readOnce) hw' hg⟩
  rw [updateFile_grow h hhead hempty.type, Prog.bind_ok _ hgrow', if_pos rfl, hn,
    Prog.bind_ok _ hupdate', Prog.bind_ok _ hdata]
  rfl

/-! ## Truncating a file -/

/-- The chain of an owner after another, or the same, has been cut. -/
theorem exists_cut_owner {o' : List ℕ} (ho' : o' ≠ [])
    (hhead : o'.headD endOfChain = o.headD endOfChain) (hl : l ∈ o ::ₘ os) (hne : l ≠ []) :
    ∃ l' ∈ o' ::ₘ os, l'.headD endOfChain = l.headD endOfChain ∧ l' ≠ [] := by
  rcases Multiset.mem_cons.mp hl with rfl | hmem
  · exact ⟨o', Multiset.mem_cons_self _ _, hhead, ho'⟩
  · exact ⟨l, Multiset.mem_cons_of_mem hmem, rfl, hne⟩

/-- **A file that shrinks and returns** has been cut, and the disk agrees if it did. -/
theorem shrinkFile_ok (hw : env.WritesFull) (h : s.Owns ⟨f, o ::ₘ os⟩)
    (hhead : o.headD endOfChain = e.firstCluster.toNat) (hl : l ∈ o ::ₘ os)
    (hrun : (shrinkFile (l.headD endOfChain) e n).run env s = .ok r t) :
    ∃ f' o', t.Owns ⟨f', o' ::ₘ os⟩ ∧ o'.headD endOfChain = o.headD endOfChain
      ∧ (s.Synced → t.Synced) := by
  have hchain := h.chain (Multiset.mem_cons_self o os)
  rw [hhead] at hchain
  rw [shrinkFile, Prog.bind_ok _ (Prog.run_get env s)] at hrun
  obtain ⟨d, s', hskip, hrest⟩ := Prog.bind_eq_ok_iff.mp hrun
  obtain ⟨rfl, -, hd⟩ := skipClusters_ok h.geometry hchain hskip
  set i := u32 n / s'.superblock.bytePerCluster with hi
  obtain ⟨_, s₁, hcut, hlast⟩ := Prog.bind_eq_ok_iff.mp hrest
  obtain ⟨_, s₂, hupdate, hend⟩ := Prog.bind_eq_ok_iff.mp hlast
  obtain ⟨_, s₃, hcheck, hret⟩ := Prog.bind_eq_ok_iff.mp hend
  obtain rfl : s₃ = s₂ := (congrArg Outcome.state hcheck).symm.trans check_state
  cases hret
  cases hdrop : o.drop i with
  | nil =>
    rw [hdrop] at hd
    rw [show d = endOfChain from hd.linked, cutChain,
      Prog.bind_stop _ (readFatEntry_stop h.geometry (by unfold endOfChain; omega))] at hcut
    cases hcut
  | cons x rest =>
    rw [hdrop] at hd
    obtain rfl : d = x := hd.head_eq
    have hsplit : o = o.take i ++ d :: rest := by rw [← hdrop, List.take_append_drop]
    have howns : s'.Owns ⟨f, (o.take i ++ d :: rest) ::ₘ os⟩ := hsplit ▸ h
    rw [cutChain_run hw howns] at hcut
    cases hcut
    have hshrunk := howns.shrunk env
    have hhead' : (o.take i ++ [d]).headD endOfChain = o.headD endOfChain := by
      conv_rhs => rw [hsplit]
      cases o.take i <;> rfl
    have hcutNe : o.take i ++ [d] ≠ [] := by simp
    obtain ⟨l', hl', hlhead, hne⟩ := exists_cut_owner hcutNe hhead' hl (h.owners l hl).1
    rw [← hlhead] at hupdate
    have hkept := updateDirEntry_kept hshrunk.geometry (hshrunk.chain hl') hne hupdate
    exact ⟨_, _, hshrunk.of_table hkept.table.superblock hkept.table.fatTable, hhead',
      fun hsync => hkept.synced (hsync.shrunk hw h.geometry d rest)⟩

/-- **What a truncation that returns leaves**, once the entry has been found. -/
theorem truncateFile_ok (hw : env.WritesFull) (h : s.Owns ⟨f, o ::ₘ os⟩)
    (hhead : o.headD endOfChain = e.firstCluster.toNat) (hl : l ∈ o ::ₘ os)
    (hrun : (truncateFile (l.headD endOfChain) e n).run env s = .ok r t) :
    ∃ f' o', t.Owns ⟨f', o' ::ₘ os⟩ ∧ o'.headD endOfChain = o.headD endOfChain
      ∧ (¬ (e.size.toNat < n ∧ s.EmptyWriteAtEnd env ⟨f, o ::ₘ os⟩ (l.headD endOfChain) e
          (sub32 (u32 n) e.size.toNat) e.size.toNat) → s.Synced → t.Synced) := by
  unfold truncateFile at hrun
  split at hrun
  · cases hrun
    exact ⟨f, o, h, rfl, fun _ hsync => hsync⟩
  split at hrun
  · next hlt =>
    rw [extendFile] at hrun
    obtain ⟨_, u, hupdate, hret⟩ := Prog.bind_eq_ok_iff.mp hrun
    cases hret
    obtain ⟨k, howns, hsync⟩ := updateFile_ok hw h hhead hl hupdate
    refine ⟨_, _, howns, ?_, fun hempty => hsync fun he => hempty ⟨hlt, he⟩⟩
    obtain ⟨x, o, rfl⟩ := List.exists_cons_of_ne_nil (h.owners o (Multiset.mem_cons_self _ _)).1
    rfl
  · obtain ⟨f', o', howns, hhead', hsync⟩ := shrinkFile_ok hw h hhead hl hrun
    exact ⟨f', o', howns, hhead', fun _ => hsync⟩

/-! ## Inserting an entry -/

theorem storeEntry_kept {name : List UInt8} {first : ℕ} {type : UInt16}
    (hg : s.superblock.Geometry) (hc : s.superblock.IsData c)
    (hrun : (storeEntry env name first type c buf off).run env s = .ok r t) : s.Kept t := by
  rw [storeEntry, Prog.bind_ok _ (Prog.run_get env s)] at hrun
  obtain ⟨cluster, u, hput, hwrite⟩ := Prog.bind_eq_ok_iff.mp hrun
  obtain ⟨-, rfl⟩ := putEntryAt_ok c hput
  exact writeClusterToDisk_kept hg hc hwrite

/-- **A directory without room that is extended** takes a cluster from the free list. -/
theorem extendDirectory_ok {name : List UInt8} {first : ℕ} {type : UInt16}
    (hw : env.WritesFull) (h : s.Owns ⟨f, (l ++ [d]) ::ₘ os⟩)
    (hrun : (extendDirectory env name first type d).run env s = .ok r t) :
    ∃ k, t.Owns ⟨f.drop k, ((l ++ [d]) ++ f.take k) ::ₘ os⟩ ∧ (s.Synced → t.Synced) := by
  have hfree : hasFreeCluster.run env s
      = .ok (decide (s.superblock.rootClusterStart < s.superblock.freeClusterStart)) s := rfl
  rw [extendDirectory, Prog.bind_ok _ hfree] at hrun
  split at hrun
  · next hlt =>
    cases f with
    | nil =>
      rw [h.freeClusterStart_eq] at hlt
      exact absurd (of_decide_eq_true hlt) (Nat.not_lt_zero _)
    | cons x f =>
      have hnew : getNewCluster.run env (s.grown env [x] x d)
          = .ok ((s.grown env [x] x d).newCluster env) (s.grown env [x] x d) := rfl
      rw [Prog.bind_ok _ (addFreeCluster_last_run h), Prog.bind_ok _ hnew] at hrun
      have hgrown := h.grown (l := []) env
      have hx : (s.grown env [x] x d).superblock.IsData x :=
        hgrown.owner_data (Multiset.mem_cons_self _ _)
          (List.mem_append_right _ (List.mem_singleton_self x))
      have hkept := storeEntry_kept hgrown.geometry hx hrun
      refine ⟨1, hgrown.of_table hkept.table.superblock hkept.table.fatTable, fun hsync =>
        hkept.synced (hsync.grown hw h.geometry (fun c hc => ?_) x d)⟩
      rw [List.mem_singleton.mp hc]
      exact h.free_data List.mem_cons_self
  · cases hrun
    refine ⟨0, ?_, id⟩
    rwa [List.drop_zero, List.take_zero, List.append_nil]

/-- **An insertion that returns** may have extended the directory. -/
theorem addDirEntryToCluster_ok {name : List UInt8} {first : ℕ} {type : UInt16}
    (hw : env.WritesFull) (h : s.Owns ⟨f, l ::ₘ os⟩)
    (hrun : (addDirEntryToCluster (l.headD endOfChain) name first type).run env s = .ok r t) :
    ∃ k, t.Owns ⟨f.drop k, (l ++ f.take k) ::ₘ os⟩ ∧ (s.Synced → t.Synced) := by
  have hsame : ∀ u : Server, s.Kept u → ∃ k, u.Owns ⟨f.drop k, (l ++ f.take k) ::ₘ os⟩
      ∧ (s.Synced → u.Synced) := by
    intro u hkept
    refine ⟨0, ?_, hkept.synced⟩
    rw [List.drop_zero, List.take_zero, List.append_nil]
    exact h.of_table hkept.table.superblock hkept.table.fatTable
  have hchain := h.chain (Multiset.mem_cons_self l os)
  have hne := (h.owners l (Multiset.mem_cons_self l os)).1
  by_cases hfirst : s.superblock.IsData first
  · by_cases hn : NameFits name
    · rw [addDirEntryToCluster_scan hfirst hn] at hrun
      obtain ⟨k, d, hd, ⟨buf, o, hhit, -⟩ | ⟨hlast, hmiss⟩⟩ := scanDir_ok h.geometry hchain hne hrun
      · refine hsame t ((Server.Kept.preads s k).trans ?_)
        exact storeEntry_kept (s := { s with preads := k }) h.geometry (hchain.data d hd) hhit
      · obtain ⟨l', rfl⟩ := List.getLast?_eq_some_iff.mp hlast
        obtain ⟨i, howns, hsync⟩ := extendDirectory_ok hw (h.preads k) hmiss
        exact ⟨i, howns, fun hs => hsync (hs.preads k)⟩
    · rw [addDirEntryToCluster_long hfirst hn] at hrun
      cases hrun
      exact hsame s (.refl s)
  · have hstop : ¬ (1 + s.superblock.clusterPerFat ≤ first ∧ first < s.superblock.clusterCount) :=
      hfirst
    rw [addDirEntryToCluster, Prog.bind_ok _ (Prog.run_read env s),
      Prog.bind_ok _ (Prog.run_get env s), Prog.bind_stop _ (check_stop hstop env s)] at hrun
    cases hrun

end Fat
