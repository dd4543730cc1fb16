import LLPFilesystem.FatSplice

/-!
# Requests beyond the free list

What happens when a request cannot be served. The allocator tells three
cases apart: the free list is long enough, it is one cluster short, or it is
shorter still; only the last is refused. `update_file` computes the number of
clusters it needs in 32 bits (`Superblock.need32`), so which of the three it
meets depends on the reduced sum; and once the allocator has let it pass, it
does not fail any more: it returns the size, which is no negative `int`, or it
never returns (`updateFile_nonneg`).
-/

namespace Fat

variable {env : Env} {s t : Server} {c d i j n off size offset pc : ℕ}
  {f l o : List ℕ} {os : Multiset (List ℕ)} {p : Pool ℕ} {e : FatDirEntry}
  {buf cluster : Buf} {path : List UInt8} {α β : Type}

/-! ## Programs that keep the table

The data phases write clusters and nothing in memory, however they end. -/

/-- The superblock and the FAT in memory are the same. -/
structure Server.SameTable (s t : Server) : Prop where
  superblock : t.superblock = s.superblock
  fatTable : t.fatTable = s.fatTable

theorem Server.SameTable.chain (h : s.SameTable t) (hc : s.Chain c l) : t.Chain c l :=
  hc.of_table h.superblock h.fatTable

theorem Server.SameTable.geometry (h : s.SameTable t) (hg : s.superblock.Geometry) :
    t.superblock.Geometry := h.superblock ▸ hg

/-- **The program keeps the table**, however it ends. -/
abbrev KeepsTable (env : Env) (x : FatM α) : Prop := Prog.Within env Server.SameTable x

namespace KeepsTable

theorem pure (env : Env) (a : α) : KeepsTable env (Pure.pure a) :=
  Prog.Within.pure (fun _ => ⟨rfl, rfl⟩) a

theorem get (env : Env) : KeepsTable env (MonadState.get : FatM Server) :=
  Prog.Within.get (fun _ => ⟨rfl, rfl⟩)

theorem bind {x : FatM α} {g : α → FatM β} (hx : KeepsTable env x)
    (hg : ∀ a, KeepsTable env (g a)) : KeepsTable env (x >>= g) :=
  Prog.Within.bind (fun _ _ _ h h' =>
    ⟨h'.superblock.trans h.superblock, h'.fatTable.trans h.fatTable⟩) hx hg

/-- What changes nothing keeps the table. -/
theorem of_readOnly {x : FatM α} (h : ReadOnly env x) : KeepsTable env x := by
  intro s
  obtain ⟨k, hk⟩ := h s
  rw [hk]
  exact ⟨rfl, rfl⟩

theorem check (env : Env) (q : Prop) [Decidable q] : KeepsTable env (check q) :=
  of_readOnly (ReadOnly.check q)

theorem writeClusterToDisk (env : Env) (buf : Buf) (c : ℕ) :
    KeepsTable env (writeClusterToDisk buf c) := by
  refine (get env).bind (fun s => (check env _).bind (fun _ => bind ?_ (fun off => ?_)))
  · exact (get env).bind (fun s => (check env _).bind (fun _ => pure env _))
  · exact bind (fun s => ⟨rfl, rfl⟩) (fun n => pure env _)

theorem storeCluster (env : Env) (buf : Buf) (c : ℕ) :
    KeepsTable env (storeCluster buf c) :=
  (writeClusterToDisk env buf c).bind (fun _ => check env _)

theorem modifyCluster (env : Env) (cluster : Buf) (c off : ℕ) (src : Buf) (n : ℕ) :
    KeepsTable env (modifyCluster cluster c off src n) := by
  refine bind (of_readOnly ?_) (fun _ => (check env _).bind (fun _ =>
    (storeCluster env _ c).bind (fun _ => pure env _)))
  exact (ReadOnly.get env).bind (fun s => ReadOnly.readClusterFromDisk env cluster c 0 _)

/-- A scan keeps the table if what it does at its end does. -/
theorem scanDir {ok : Superblock → ℕ → Bool} {q : FatDirEntry → Bool}
    {hit : ℕ → Buf → ℕ → FatM α} {miss : ℕ → FatM α}
    (hhit : ∀ c cluster o, KeepsTable env (hit c cluster o))
    (hmiss : ∀ c, KeepsTable env (miss c)) (fuel c : ℕ) :
    KeepsTable env (scanDir ok q hit miss fuel c) := by
  induction fuel generalizing c with
  | zero => exact of_readOnly (ReadOnly.fail env _)
  | succ fuel ih =>
    refine (get env).bind (fun s => (check env _).bind (fun _ =>
      (of_readOnly (ReadOnly.loadCluster env c)).bind (fun cluster => ?_)))
    split
    · exact hhit _ _ _
    · exact (of_readOnly (ReadOnly.readFatEntry env c)).bind (fun next =>
        Prog.Within.ite (fun _ => hmiss c) (fun _ => ih next))

theorem updateDirEntry (env : Env) (c : ℕ) (e : FatDirEntry) (remove : Bool) :
    KeepsTable env (updateDirEntry c e remove) :=
  (get env).bind (fun _ => scanDir
    (fun c cluster o => Prog.Within.ite (fun _ => writeClusterToDisk env _ c)
      (fun _ => (of_readOnly (ReadOnly.putEntryAt env cluster o e)).bind
        fun cluster => writeClusterToDisk env cluster c))
    (fun _ => pure env _) _ c)

theorem updateSize (env : Env) (c : ℕ) (e : FatDirEntry) (newSize : ℕ) :
    KeepsTable env (updateSize c e newSize) := by
  refine bind (fun s => ⟨rfl, rfl⟩) (fun _ => (get env).bind (fun s =>
    Prog.Within.ite (fun _ => ?_) (fun _ => pure env _)))
  exact (updateDirEntry env c _ false).bind (fun _ => check env _)

end KeepsTable

/-! ## The data phases stay inside the chain

They read the entry of every cluster before they go on to the next, so a run
that returns has gone at most one cluster past the end of the chain. -/

/-- Reading an entry of a chain that returns has not been at its end. -/
theorem readFatEntry_ok (hg : s.superblock.Geometry) (h : s.Chain c l)
    (hrun : (readFatEntry c).run env s = .ok d t) : t = s ∧ 0 < l.length ∧ s.Chain d l.tail := by
  cases l with
  | nil =>
    have hc : c = endOfChain := h.linked
    rw [hc, readFatEntry_stop hg (by unfold endOfChain; omega)] at hrun
    cases hrun
  | cons a l =>
    obtain rfl : c = a := h.head_eq
    rw [readFatEntry_run hg h.head_data] at hrun
    cases hrun
    exact ⟨rfl, Nat.succ_pos _, h.tail⟩

theorem skipClusters_ok (hg : s.superblock.Geometry) (h : s.Chain c l)
    (hrun : (skipClusters n c).run env s = .ok d t) :
    t = s ∧ n ≤ l.length ∧ s.Chain d (l.drop n) := by
  induction n generalizing c l with
  | zero =>
    cases hrun
    exact ⟨rfl, Nat.zero_le _, h⟩
  | succ n ih =>
    rw [skipClusters] at hrun
    obtain ⟨a, s', hread, hrest⟩ := Prog.bind_eq_ok_iff.mp hrun
    obtain ⟨rfl, hpos, htail⟩ := readFatEntry_ok hg h hread
    obtain ⟨ht, hn, hd⟩ := ih htail hrest
    rw [List.length_tail] at hn
    rw [← List.drop_one, List.drop_drop, Nat.add_comm] at hd
    exact ⟨ht, by omega, hd⟩

theorem writeWhole_ok (hg : s.superblock.Geometry) (h : s.Chain c l) {b : ℕ}
    (hrun : (writeWhole buf b n c off).run env s = .ok d t) :
    s.SameTable t ∧ n ≤ l.length ∧ t.Chain d (l.drop n) := by
  induction n generalizing c l off s with
  | zero =>
    cases hrun
    exact ⟨⟨rfl, rfl⟩, Nat.zero_le _, h⟩
  | succ n ih =>
    rw [writeWhole] at hrun
    obtain ⟨a, s', hread, hrest⟩ := Prog.bind_eq_ok_iff.mp hrun
    obtain ⟨rfl, hpos, htail⟩ := readFatEntry_ok hg h hread
    obtain ⟨_, u, hstore, hrest⟩ := Prog.bind_eq_ok_iff.mp hrest
    have hu : s'.SameTable u := (KeepsTable.storeCluster env _ a).of_ok hstore
    obtain ⟨ht, hn, hd⟩ := ih (hu.geometry hg) (hu.chain htail) hrest
    rw [List.length_tail] at hn
    rw [← List.drop_one, List.drop_drop, Nat.add_comm] at hd
    exact ⟨⟨ht.superblock.trans hu.superblock, ht.fatTable.trans hu.fatTable⟩,
      by omega, hd⟩

theorem writeRest_ok (hg : s.superblock.Geometry) (h : s.Chain c l)
    (hrun : (writeRest cluster buf c off n).run env s = .ok () t) :
    n ≤ l.length * s.superblock.bytePerCluster := by
  have hb := hg.page_pos
  rw [writeRest, Prog.bind_ok _ (Prog.run_get env s)] at hrun
  dsimp only at hrun
  set b := s.superblock.bytePerCluster with hbdef
  have hdm := Nat.div_add_mod n b
  rw [Nat.mul_comm] at hdm
  obtain ⟨d, u, hwhole, hrest⟩ := Prog.bind_eq_ok_iff.mp hrun
  obtain ⟨hu, hn, hd⟩ := writeWhole_ok hg h hwhole
  by_cases h0 : n % b = 0
  · have hmul := Nat.mul_le_mul_right b hn
    omega
  · rw [if_neg h0] at hrest
    obtain ⟨_, u', hread, -⟩ := Prog.bind_eq_ok_iff.mp hrest
    obtain ⟨-, hpos, -⟩ := readFatEntry_ok (hu.geometry hg) hd hread
    rw [List.length_drop] at hpos
    have hmul : (n / b + 1) * b ≤ l.length * b := Nat.mul_le_mul_right b (by omega)
    have hlt := Nat.mod_lt n hb
    rw [Nat.add_mul, Nat.one_mul] at hmul
    omega

/-- **A write that returns has gone at most one cluster past the chain.** -/
theorem writeData_ok (hg : s.superblock.Geometry) (h : s.Chain c l)
    (hrun : (writeData c buf size offset).run env s = .ok () t) :
    u32 size ≤ (l.length + 1) * s.superblock.bytePerCluster := by
  rw [writeData, Prog.bind_ok _ (Prog.run_get env s)] at hrun
  dsimp only at hrun
  set b := s.superblock.bytePerCluster with hb
  set m := min (u32 size) (b - u32 offset % b) with hm
  obtain ⟨d, u, hskip, hrest⟩ := Prog.bind_eq_ok_iff.mp hrun
  obtain ⟨rfl, hn, hd⟩ := skipClusters_ok hg h hskip
  have hmb : m ≤ b := Nat.le_trans (Nat.min_le_right _ _) (Nat.sub_le _ _)
  have hnew : getNewCluster.run env u = .ok (u.newCluster env) u := rfl
  rw [Prog.bind_ok _ hnew] at hrest
  -- the first piece is at most a cluster, and the rest is inside the chain
  have hfirst : ∀ (x : FatM Buf) (cl : Buf) (u' : Server), KeepsTable env x →
      x.run env u = .ok cl u' →
      (if u32 size - m = 0 then return ()
        else writeRest cl buf d m (u32 size - m)).run env u' = .ok () t →
      u32 size - m ≤ l.length * b := by
    intro x cl u' hx hxrun hrest
    have hu' : u.SameTable u' := hx.of_ok hxrun
    by_cases h0 : u32 size - m = 0
    · omega
    · rw [if_neg h0] at hrest
      have hle := writeRest_ok (hu'.geometry hg) (hu'.chain hd) hrest
      rw [hu'.superblock, ← hb, List.length_drop] at hle
      exact Nat.le_trans hle (Nat.mul_le_mul_right b (Nat.sub_le _ _))
  have hrest' : u32 size - m ≤ l.length * b := by
    by_cases hlt : m < b
    · rw [if_pos hlt] at hrest
      obtain ⟨cl, u', hx, hrest⟩ := Prog.bind_eq_ok_iff.mp hrest
      exact hfirst _ cl u' (KeepsTable.modifyCluster env _ _ _ _ _) hx hrest
    · rw [if_neg hlt] at hrest
      obtain ⟨cl, u', hx, hrest⟩ := Prog.bind_eq_ok_iff.mp hrest
      exact hfirst (storeCluster buf d *> pure _) cl u'
        ((KeepsTable.storeCluster env _ _).bind (fun _ => KeepsTable.pure env _)) hx hrest
  rw [Nat.add_mul, Nat.one_mul]
  omega

/-! ## The three outcomes of a write -/

/-- How many clusters `update_file` takes a file to need that ends at `n`. -/
def Superblock.need32 (sb : Superblock) (n : ℕ) : ℕ :=
  (n - 1) % 2 ^ 32 / sb.bytePerCluster + 1

/-- `update_file` until it has asked for the clusters it lacks. -/
theorem updateFile_grow (h : s.Owns ⟨f, o ::ₘ os⟩)
    (hhead : o.headD endOfChain = e.firstCluster.toNat)
    (htype : e.type = dirEntryTypeFile) (buf : Buf) (size offset : ℕ) :
    (updateFile pc e buf size offset).run env s
      = (do
        let granted ← growFile e.firstCluster.toNat o.length
          (finalByteToWrite size offset / s.superblock.bytePerCluster + 1)
        if granted then do
          updateSize pc e (u32 (finalByteToWrite size offset + 1))
          writeData e.firstCluster.toNat buf size offset
          return i32 size
        else return -enomem : FatM ℤ).run env s := by
  have hcount : (countClusterInChain e.firstCluster.toNat).run env s = .ok o.length s := by
    rw [← hhead]
    exact countClusterInChain_run h.geometry (h.chain (Multiset.mem_cons_self o os))
  rw [updateFile, Prog.bind_ok _ (check_run htype env s),
    Prog.bind_ok _ (Prog.run_get env s)]
  dsimp only
  rw [Prog.bind_ok _ hcount]

/-- **A write that needs two clusters or more beyond the free list** is
refused, and nothing changes. -/
theorem updateFile_refused (h : s.Owns ⟨f, o ::ₘ os⟩)
    (hhead : o.headD endOfChain = e.firstCluster.toNat)
    (htype : e.type = dirEntryTypeFile)
    (hn : o.length + f.length + 1
      < finalByteToWrite size offset / s.superblock.bytePerCluster + 1) (buf : Buf) :
    (updateFile pc e buf size offset).run env s = .ok (-enomem) s := by
  rw [updateFile_grow h hhead htype,
    Prog.bind_ok _ (growFile_refused h hn), if_neg (by decide)]
  rfl

/-- **A write that needs one cluster beyond the free list** reads the entry of
`END_OF_CHAIN`. -/
theorem updateFile_stop (h : s.Owns ⟨f, o ::ₘ os⟩)
    (hhead : o.headD endOfChain = e.firstCluster.toNat)
    (htype : e.type = dirEntryTypeFile)
    (hn : finalByteToWrite size offset / s.superblock.bytePerCluster + 1
      = o.length + f.length + 1) (buf : Buf) :
    (updateFile pc e buf size offset).run env s = .stop .outOfBounds s := by
  rw [updateFile_grow h hhead htype, Prog.bind_stop _ (growFile_stop h hn)]

/-- **A write that is granted its clusters returns its size**, which is no
negative `int`, if it returns. -/
theorem updateFile_nonneg (hw : env.WritesFull) (h : s.Owns ⟨f, o ::ₘ os⟩)
    (hhead : o.headD endOfChain = e.firstCluster.toNat)
    (htype : e.type = dirEntryTypeFile)
    (hn : finalByteToWrite size offset / s.superblock.bytePerCluster + 1
      ≤ o.length + f.length) {r : ℤ}
    (hrun : (updateFile pc e buf size offset).run env s = .ok r t) :
    r = i32 size ∧ 0 ≤ r := by
  obtain ⟨s₁, hgrow, hgr⟩ := growFile_grown hw h hn
  rw [hhead] at hgrow
  have hg := hgr.owns.geometry
  have hchain := hgr.owns.chain (Multiset.mem_cons_self _ _)
  rw [updateFile_grow h hhead htype, Prog.bind_ok _ hgrow, if_pos rfl] at hrun
  obtain ⟨_, s₂, hsize, hrest⟩ := Prog.bind_eq_ok_iff.mp hrun
  have hsame : s₁.SameTable s₂ := (KeepsTable.updateSize env pc e _).of_ok hsize
  obtain ⟨_, s₃, hdata, hret⟩ := Prog.bind_eq_ok_iff.mp hrest
  cases hret
  refine ⟨rfl, ?_⟩
  obtain ⟨a, o', rfl⟩ :=
    List.exists_cons_of_ne_nil (h.owners o (Multiset.mem_cons_self _ _)).1
  rw [show ((a :: o') ++ _).headD endOfChain = e.firstCluster.toNat from hhead] at hchain
  -- the chain has fewer clusters than the disk, whose size fits an `int`
  have hle := writeData_ok (hsame.geometry hg) (hsame.chain hchain) hdata
  have hlen := hchain.length_le
  have hroom := hg.room
  rw [hg.root] at hroom
  have hcap := hg.capacity
  rw [hsame.superblock] at hle
  have hsz : u32 size < 2 ^ 31 :=
    Nat.lt_of_le_of_lt (Nat.le_trans hle (Nat.mul_le_mul_right _ (by omega))) hcap
  rw [i32_of_u32_lt hsz]
  exact Int.natCast_nonneg _

/-! ## Operations that report an error and change nothing -/

/-- Nothing on the disk and nothing in memory has changed. -/
structure Server.Unchanged (s t : Server) : Prop where
  superblock : t.superblock = s.superblock
  fatTable : t.fatTable = s.fatTable
  fatDisk : t.fatDisk = s.fatDisk

/-- **The operation returns an error**, a value that satisfies `q`, and has
changed nothing. -/
def Server.Refuses (s : Server) (env : Env) (x : FatM ℤ) (q : ℤ → Prop) : Prop :=
  ∃ r t, x.run env s = .ok r t ∧ q r ∧ s.Unchanged t

/-- What comes after a lookup decides whether the operation is refused. -/
theorem Server.refuses_bind {x : FatM α} {a : α} {g : α → FatM ℤ} {q : ℤ → Prop}
    (hx : x.run env s = .ok a t) (ht : s.ReadTo t) :
    s.Refuses env (x >>= g) q ↔ t.Refuses env (g a) q := by
  obtain ⟨k, rfl⟩ := ht
  unfold Refuses
  rw [Prog.bind_ok g hx]
  constructor
  · rintro ⟨r, u, hrun, hr, hu⟩
    exact ⟨r, u, hrun, hr, hu.superblock, hu.fatTable, hu.fatDisk⟩
  · rintro ⟨r, u, hrun, hr, hu⟩
    exact ⟨r, u, hrun, hr, hu.superblock, hu.fatTable, hu.fatDisk⟩

/-- **When a write is refused**: it needs at least two clusters beyond the free
list, as far as 32 bits tell. -/
theorem updateFile_refuses_iff (hw : env.WritesFull) (h : s.Owns ⟨f, o ::ₘ os⟩)
    (hhead : o.headD endOfChain = e.firstCluster.toNat)
    (htype : e.type = dirEntryTypeFile) {q : ℤ → Prop} (hq : q (-enomem))
    (hq' : ∀ r, 0 ≤ r → r = i32 size → ¬ q r) (buf : Buf) :
    s.Refuses env (updateFile pc e buf size offset) q
      ↔ o.length + f.length + 1
        < finalByteToWrite size offset / s.superblock.bytePerCluster + 1 := by
  constructor
  · rintro ⟨r, t, hrun, hr, -⟩
    by_contra hn
    rcases Nat.lt_or_eq_of_le (Nat.le_of_not_lt hn) with hlt | heq
    · obtain ⟨hval, hpos⟩ := updateFile_nonneg hw h hhead htype (by omega) hrun
      exact hq' r hpos hval hr
    · rw [updateFile_stop h hhead htype heq] at hrun
      cases hrun
  · intro hn
    exact ⟨-enomem, s, updateFile_refused h hhead htype hn buf, hq, rfl, rfl, rfl⟩

/-- The last byte an extension writes. -/
theorem finalByteToWrite_extend (hn : e.size.toNat < n) :
    finalByteToWrite (sub32 (u32 n) e.size.toNat) e.size.toNat = (n - 1) % 2 ^ 32 := by
  have hlt := e.size.toNat_lt
  unfold finalByteToWrite u32 sub32
  omega

/-- **When an extension is refused**: in addition, the number of bytes it adds
is not the one that reads as `-ENOMEM`. -/
theorem extendFile_refuses_iff (hw : env.WritesFull) (h : s.Owns ⟨f, o ::ₘ os⟩)
    (hhead : o.headD endOfChain = e.firstCluster.toNat)
    (htype : e.type = dirEntryTypeFile) (hn : e.size.toNat < n) :
    s.Refuses env (extendFile pc e n) (· ≠ 0)
      ↔ o.length + f.length + 1 < s.superblock.need32 n
        ∧ (n - e.size.toNat) % 2 ^ 32 ≠ 2 ^ 32 - 12 := by
  have hlt := e.size.toNat_lt
  set m := sub32 (u32 n) e.size.toNat with hm
  have hmval : m = (n - e.size.toNat) % 2 ^ 32 := by
    rw [hm]
    unfold sub32 u32
    omega
  have hneed : finalByteToWrite m e.size.toNat / s.superblock.bytePerCluster + 1
      = s.superblock.need32 n := by
    rw [hm, finalByteToWrite_extend hn, Superblock.need32]
  have henomem : (-enomem = i32 m) ↔ m = 2 ^ 32 - 12 := by
    have hm32 : m < 2 ^ 32 := hmval ▸ Nat.mod_lt _ (by decide)
    unfold i32 enomem
    rw [Int.bmod_def]
    omega
  rw [← hmval]
  constructor
  · rintro ⟨r, t, hrun, hr, hu⟩
    rw [extendFile] at hrun
    obtain ⟨r', t', hrun', hret⟩ := Prog.bind_eq_ok_iff.mp hrun
    rw [← hm] at hrun' hret
    have hrt : r = if r' = i32 m then 0 else -1 := by
      cases hret
      rfl
    have hne : r' ≠ i32 m := by
      intro heq
      rw [if_pos heq] at hrt
      exact hr hrt
    rcases Nat.lt_trichotomy (s.superblock.need32 n) (o.length + f.length + 1) with hlt | heq | hgt
    · obtain ⟨hval, -⟩ := updateFile_nonneg hw h hhead htype (by omega) hrun'
      exact absurd hval hne
    · rw [updateFile_stop h hhead htype (by omega)] at hrun'
      cases hrun'
    · rw [updateFile_refused h hhead htype (by omega)] at hrun'
      cases hrun'
      exact ⟨hgt, fun hm12 => hne (henomem.mpr hm12)⟩
  · rintro ⟨hgt, hne⟩
    refine ⟨-1, s, ?_, by decide, rfl, rfl, rfl⟩
    rw [extendFile, ← hm, Prog.bind_ok _ (updateFile_refused h hhead htype (by omega) _),
      if_neg (fun heq => hne (henomem.mp heq))]
    rfl

end Fat
