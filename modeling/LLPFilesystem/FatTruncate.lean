import LLPFilesystem.FatSplice

/-!
# Truncating a file

`fat_truncate` has two halves. Extending is a write of zeros at the end of the
file; shrinking cuts the chain behind the cluster that holds the new end, puts
the rest in front of the free list and rewrites the entry (`shrinkFile_run`).
They give one result (`fatTruncate_exact`): the contents are the old ones,
continued by zeros and cut at the new length.
-/

namespace Fat

variable {env : Env} {s t u : Server} {c d i j k n size offset : ℕ} {f l o pl : List ℕ}
  {os dirs : Multiset (List ℕ)} {x y : ℕ × ℕ} {e : FatDirEntry} {buf : Buf}
  {path name : List UInt8} {toks : List (List UInt8)}

/-! ## What cutting a chain leaves alone -/

namespace Server

/-- Shrinking a chain changes no entry outside it. -/
theorem next_shrunk_of_notMem (h : s.Owns ⟨f, (o ++ d :: l) ::ₘ os⟩)
    (hc : s.superblock.IsData c) (hco : c ∉ o ++ d :: l) :
    (s.shrunk env d l).next c = s.next c := by
  have hmem : o ++ d :: l ∈ (o ++ d :: l) ::ₘ os := Multiset.mem_cons_self _ _
  have hd : s.superblock.IsData d := h.owner_data hmem (by simp)
  have hcd : c ≠ d := fun hcd => hco (by simp [hcd])
  rcases l.eq_nil_or_concat with rfl | ⟨l', e, rfl⟩
  · exact next_linkFat_of_ne hd hc hcd
  · rw [List.concat_eq_append] at *
    have he : s.superblock.IsData e := h.owner_data hmem (by simp)
    have hce : c ≠ e := fun hce => hco (by simp [hce])
    rw [shrunk_concat]
    exact (next_pushed_of_ne (s := s.linkFat env d endOfChain) he hc hce).trans
      (next_linkFat_of_ne hd hc hcd)

/-- Shrinking a chain changes no data cluster. -/
theorem cluster_shrunk (h : s.Owns ⟨f, (o ++ d :: l) ::ₘ os⟩)
    (hc : s.superblock.IsData c) (hi : i < s.superblock.bytePerCluster) :
    (s.shrunk env d l).cluster c i = s.cluster c i := by
  have hmem : o ++ d :: l ∈ (o ++ d :: l) ::ₘ os := Multiset.mem_cons_self _ _
  have hd : s.superblock.IsData d := h.owner_data hmem (by simp)
  rcases l.eq_nil_or_concat with rfl | ⟨l', e, rfl⟩
  · exact cluster_linkFat h.geometry hd hc hi
  · rw [List.concat_eq_append] at *
    have he : s.superblock.IsData e := h.owner_data hmem (by simp)
    rw [shrunk_concat]
    exact (cluster_pushed (s := s.linkFat env d endOfChain) h.geometry he hc hi).trans
      (cluster_linkFat h.geometry hd hc hi)

end Server

/-! ## Shrinking -/

/-- **What the shrinking part of `fat_truncate` does**: the file keeps its
clusters up to the one that holds the new end, the others are in front of the
free list, the entry has the new size, and nothing else has changed. -/
structure Server.Shrunk (s t : Server) (env : Env) (f o : List ℕ)
    (os : Multiset (List ℕ)) (x : ℕ × ℕ) (e : FatDirEntry) (n : ℕ) : Prop where
  owns : t.Owns ⟨o.drop (n / s.superblock.bytePerCluster + 1) ++ f,
    o.take (n / s.superblock.bytePerCluster + 1) ::ₘ os⟩
  superblock : ∃ v, t.superblock = (s.setFree v).superblock
  links : ∀ c, s.superblock.IsData c → c ∉ o → t.next c = s.next c
  clusters : ∀ c, s.superblock.IsData c → ∀ i < s.superblock.bytePerCluster,
    (c = x.1 → i < x.2 ∨ x.2 + dirEntrySize ≤ i) → t.cluster c i = s.cluster c i
  entry : t.slotEntry env x = { e with size := UInt32.ofNat n }

/-- The cluster with the new end of a file is one of its clusters. -/
theorem Server.HasFile.div_lt_length (h : s.HasFile env f o os pl x e)
    (hn : n < e.size.toNat) (hlen : e.size.toNat ≤ o.length * s.superblock.bytePerCluster) :
    n / s.superblock.bytePerCluster < o.length :=
  (Nat.div_lt_iff_lt_mul h.owns.geometry.page_pos).mpr (Nat.lt_of_lt_of_le hn hlen)

/-- **Shrinking a file.** -/
theorem shrinkFile_run (hr : env.Reliable) (h : s.HasFile env f o os pl x e)
    (hn : n < e.size.toNat)
    (hlen : e.size.toNat ≤ o.length * s.superblock.bytePerCluster) :
    ∃ t, (shrinkFile (pl.headD endOfChain) e n).run env s = .ok 0 t
      ∧ s.Shrunk t env f o os x e n := by
  have hg := h.owns.geometry
  have hmem : o ∈ o ::ₘ os := Multiset.mem_cons_self _ _
  have hn32 : n < 2 ^ 32 := Nat.lt_trans hn e.size.toNat_lt
  have hj := h.div_lt_length hn hlen
  set j := n / s.superblock.bytePerCluster with hjdef
  obtain ⟨d, hd⟩ : ∃ d, o[j]? = some d := ⟨o[j], List.getElem?_eq_getElem hj⟩
  have htake : o.take (j + 1) = o.take j ++ [d] := by
    rw [List.take_add_one, hd]
    rfl
  have hsplit : o = o.take j ++ d :: o.drop (j + 1) := by
    obtain ⟨_, rfl⟩ := List.getElem?_eq_some_iff.mp hd
    rw [List.getElem_cons_drop, List.take_append_drop]
  have howns : s.Owns ⟨f, (o.take j ++ d :: o.drop (j + 1)) ::ₘ os⟩ := by
    rw [← hsplit]
    exact h.owns
  set s₁ := s.shrunk env d (o.drop (j + 1)) with hs₁
  obtain ⟨v, hv⟩ : ∃ v, s₁.superblock = (s.setFree v).superblock :=
    Server.exists_superblock_shrunk
  have hsb := Server.bytePerCluster_of_setFree ⟨v, hv⟩
  have howns₁ := howns.shrunk env
  rw [← hs₁, ← htake] at howns₁
  -- the parent directory is where it was, and so is the entry
  have hpld : ∀ c ∈ pl, s.superblock.IsData c := fun c hc =>
    h.owns.owner_data (Multiset.mem_cons_of_mem h.parent) hc
  have hslots : ∀ y ∈ s.slots pl, s₁.slotEntry env y = s.slotEntry env y :=
    Server.slotEntry_of_clusters hsb (fun c hc i hi =>
      Server.cluster_shrunk howns (hpld c hc) hi)
  set e' : FatDirEntry := { e with size := UInt32.ofNat n } with he'
  have hname : e'.nameStr = e.nameStr := FatDirEntry.nameStr_file_congr h.type rfl rfl
  have hfind : s₁.findSlot env pl (fun e₁ => e₁.nameStr == e'.nameStr) = some x := by
    rw [hname, ← h.found]
    exact Server.findSlot_congr hsb (fun y hy => by rw [hslots y hy])
  obtain ⟨t, hupdate, hre⟩ := updateDirEntry_rewritten hr howns₁.geometry
    (howns₁.chain (Multiset.mem_cons_of_mem h.parent)) hfind
    (by unfold Server.Inside; rw [hsb]; exact h.inside)
  refine ⟨t, ?_, howns₁.of_table hre.superblock hre.fatTable, ⟨v, hre.superblock.trans hv⟩,
    fun c hc hco => ?_, fun c hc i hi hx => ?_, hre.entry⟩
  · have hskip := skipClusters_getElem? env hg (h.owns.chain hmem) hd
    rw [h.head] at hskip
    rw [shrinkFile, Prog.bind_ok _ (Prog.run_get env s), u32_of_lt hn32, ← hjdef,
      Prog.bind_ok _ hskip, Prog.bind_ok _ (cutChain_run hr.writes howns)]
    rw [Prog.bind_ok _ hupdate, Prog.bind_ok _ (check_run (by decide) env t)]
    rfl
  · rw [Server.next_eq_of_table hre.superblock hre.fatTable]
    exact Server.next_shrunk_of_notMem howns hc (by rw [← hsplit]; exact hco)
  · rw [hre.clusters c i (by rw [hsb]; exact hi) hx]
    exact Server.cluster_shrunk howns hc hi

namespace Server.Shrunk

/-- The cluster size is what it was. -/
theorem bytePerCluster (hs : s.Shrunk t env f o os x e n) :
    t.superblock.bytePerCluster = s.superblock.bytePerCluster :=
  bytePerCluster_of_setFree hs.superblock

/-- The file is a file of the server again, under its name. -/
theorem hasFile (hs : s.Shrunk t env f o os x e n) (h : s.HasFile env f o os pl x e) :
    t.HasFile env (o.drop (n / s.superblock.bytePerCluster + 1) ++ f)
      (o.take (n / s.superblock.bytePerCluster + 1)) os pl x
      { e with size := UInt32.ofNat n } := by
  refine h.rewritten hs.owns hs.bytePerCluster ?_
    (FatDirEntry.nameStr_file_congr h.type rfl rfl) rfl rfl hs.entry (fun y hy hne => ?_)
  · obtain ⟨a, o', rfl⟩ :=
      List.exists_cons_of_ne_nil (h.owns.owners o (Multiset.mem_cons_self _ _)).1
    rfl
  · have hyl : y.1 ∈ pl := (mem_slots.mp hy).1
    exact slotEntry_congr hs.bytePerCluster (fun i hi hi' hlt =>
      hs.clusters y.1 (h.owns.owner_data (Multiset.mem_cons_of_mem h.parent) hyl) i hlt
        (slots_disjoint h.slot hy hne hi hi'))

/-- **The file reads as before**, as far as the clusters it keeps. -/
theorem fileBuf (hs : s.Shrunk t env f o os x e n) (h : s.HasFile env f o os pl x e)
    (hi : i < (o.take (n / s.superblock.bytePerCluster + 1)).length
      * s.superblock.bytePerCluster) :
    t.fileBuf (o.take (n / s.superblock.bytePerCluster + 1)) i = s.fileBuf o i := by
  have hmem : o ∈ o ::ₘ os := Multiset.mem_cons_self _ _
  set j := n / s.superblock.bytePerCluster + 1
  have hleft : paged s.superblock.bytePerCluster s.cluster (o.take j ++ o.drop j) i
      = paged s.superblock.bytePerCluster s.cluster (o.take j) i := paged_append_left hi
  rw [List.take_append_drop] at hleft
  unfold Server.fileBuf
  rw [hs.bytePerCluster, hleft]
  refine paged_congr h.owns.geometry.page_pos (fun c hc i hi => ?_) i
  have hco : c ∈ o := List.mem_of_mem_take hc
  -- the entry lies in a cluster of another chain
  exact hs.clusters c (h.owns.owner_data hmem hco) i hi
    (fun hcx => absurd hco (h.notMem_file (hcx ▸ h.slot_mem)))

end Server.Shrunk

/-! ## Extending -/

/-- A chain is no longer than the disk, whose size fits an `int`. -/
theorem Server.Owns.bytes_lt (h : s.Owns ⟨f, o ::ₘ os⟩) :
    o.length * s.superblock.bytePerCluster < 2 ^ 31 := by
  have hle := (h.chain (Multiset.mem_cons_self o os)).length_le
  exact Nat.lt_of_le_of_lt (Nat.mul_le_mul_right _ (Nat.le_trans hle (Nat.sub_le _ _)))
    h.geometry.capacity

/-- **Extending a file** writes zeros behind its end. -/
theorem extendFile_run (hr : env.Reliable) (h : s.HasFile env f o os pl x e)
    (hn : e.size.toNat < n) (hn32 : n < 2 ^ 32) (hfree : s.lacking o n ≤ f.length) :
    ∃ t, (extendFile (pl.headD endOfChain) e n).run env s = .ok 0 t
      ∧ s.Written t env f o os x e (s.lacking o n) (fun _ => 0) (n - e.size.toNat)
        e.size.toNat := by
  have hsum : e.size.toNat + (n - e.size.toNat) = n := by omega
  have hle := s.le_lacking o n
  obtain ⟨t, hrun, hw⟩ := updateFile_run hr h (fun _ => 0)
    (show 0 < n - e.size.toNat by omega) (by rw [hsum]; exact hn32) (by rw [hsum]; omega)
  rw [hsum] at hw
  have hcap : n < 2 ^ 31 := by
    refine Nat.lt_of_le_of_lt ?_ hw.owns.bytes_lt
    rw [hw.bytePerCluster]
    exact Server.le_of_lacking h.owns.geometry.page_pos hfree
  have hzeros : sub32 (u32 n) e.size.toNat = n - e.size.toNat := by
    rw [u32_of_lt hn32, sub32_of_le hn32 (Nat.le_of_lt hn)]
  refine ⟨t, ?_, hw⟩
  rw [extendFile, hzeros, Prog.bind_ok _ hrun, i32_of_lt (by omega), if_pos rfl]
  rfl

/-! ## Truncating -/

theorem length_contents (h : size ≤ o.length * s.superblock.bytePerCluster) :
    (s.contents o size).length = size := by
  rw [Server.contents_eq h, List.length_map, List.length_range]

/-- The contents after an extension. -/
theorem Server.Written.contents_extend
    (hw : s.Written t env f o os x e k (fun _ => 0) (n - size) size) (hn : size ≤ n)
    (hold : size ≤ o.length * s.superblock.bytePerCluster)
    (hnew : n ≤ (o ++ f.take k).length * s.superblock.bytePerCluster) :
    t.contents (o ++ f.take k) n
      = (s.contents o size ++ List.replicate (n - size) 0).take n := by
  have hsum : size + (n - size) = n := by omega
  have hmax : max size (size + (n - size)) = n := by omega
  have hlen := length_contents hold
  have hc := hw.contents (Nat.le_refl size) hold (by rw [hmax]; exact hnew)
  rw [hmax, hsum, List.take_of_length_le (Nat.le_of_eq hlen),
    List.drop_eq_nil_of_le (by omega), List.append_nil] at hc
  rw [hc, List.take_of_length_le (by rw [List.length_append, List.length_replicate]; omega)]
  congr 1
  refine List.ext_getElem (by simp) (fun i hi hi' => ?_)
  rw [List.getElem_map, List.getElem_replicate]

/-- The contents after shrinking. -/
theorem Server.Shrunk.contents_shrink (hs : s.Shrunk t env f o os x e n)
    (h : s.HasFile env f o os pl x e) (hn : n < e.size.toNat)
    (hold : e.size.toNat ≤ o.length * s.superblock.bytePerCluster) :
    t.contents (o.take (n / s.superblock.bytePerCluster + 1)) n
      = (s.contents o e.size.toNat
        ++ List.replicate (n - e.size.toNat) 0).take n := by
  have hb := h.owns.geometry.page_pos
  have hj := h.div_lt_length hn hold
  have hlen : (o.take (n / s.superblock.bytePerCluster + 1)).length
      = n / s.superblock.bytePerCluster + 1 := List.length_take_of_le hj
  have hkeep : n ≤ (o.take (n / s.superblock.bytePerCluster + 1)).length
      * s.superblock.bytePerCluster := by
    have hlt := Nat.lt_mul_div_succ n hb
    rw [Nat.mul_comm] at hlt
    rw [hlen]
    exact Nat.le_of_lt hlt
  rw [Server.contents_eq (by rw [hs.bytePerCluster]; exact hkeep),
    List.take_append_of_le_length (by rw [length_contents hold]; exact Nat.le_of_lt hn),
    Server.contents_eq hold, ← List.map_take, List.take_range,
    Nat.min_eq_left (Nat.le_of_lt hn)]
  refine List.map_congr_left (fun i hi => hs.fileBuf h ?_)
  exact Nat.lt_of_lt_of_le (List.mem_range.mp hi) hkeep

/-- **Truncation is exact.** The path leads to the entry `e` of a regular file, which is in
the slot `x` of its parent directory `pl` and is the only one there with its name; the chain
of the file is `o`, and the free list is `f`. Then `fat_truncate` returns `0`;
the contents are the first `n` bytes of the old ones followed by zeros, and the
entry has the size `n`. A file that shrinks keeps its first clusters and gives
the others back in order; no other chain has changed, nor any cluster of
another chain outside the slot of the entry. -/
theorem fatTruncate_exact (hr : env.Reliable) (howns : s.Owns ⟨f, o ::ₘ os⟩)
    (hpath : s.Leads env os dirs toks pl name e) (hslot : x ∈ s.slots pl) (hinside : s.Inside x)
    (hentry : s.slotEntry env x = e) (htype : e.type = dirEntryTypeFile)
    (hunique : ∀ y ∈ s.slots pl, (s.slotEntry env y).nameStr = e.nameStr → y = x)
    (hfirst : e.firstCluster.toNat = o.headD endOfChain)
    (hlen : max 1 ((e.size.toNat + s.superblock.bytePerCluster - 1)
      / s.superblock.bytePerCluster) ≤ o.length)
    (hn : n < 2 ^ 32) (hfree : e.size.toNat < n → s.lacking o n ≤ f.length) :
    ∃ t f' o' time, (fatTruncate (pathOf (toks ++ [name])) n).run env s = .ok 0 t
      ∧ t.Owns ⟨f', o' ::ₘ os⟩
      ∧ t.contents o' n
        = (s.contents o e.size.toNat ++ List.replicate (n - e.size.toNat) 0).take n
      ∧ t.lookup env pl e.nameStr
        = some { e with size := UInt32.ofNat n, time := time }
      ∧ (n < e.size.toNat → n / s.superblock.bytePerCluster < o.length
        ∧ o' = o.take (n / s.superblock.bytePerCluster + 1)
        ∧ f' = o.drop (n / s.superblock.bytePerCluster + 1) ++ f)
      ∧ (e.size.toNat ≤ n → o' = o ++ f.take (s.lacking o n) ∧ f' = f.drop (s.lacking o n))
      ∧ (∀ o₁ ∈ os, ∀ c ∈ o₁, t.next c = s.next c ∧ ∀ i < s.superblock.bytePerCluster,
        (c = x.1 → i < x.2 ∨ x.2 + dirEntrySize ≤ i) → t.cluster c i = s.cluster c i) := by
  have hb := howns.geometry.page_pos
  have hmem : o ∈ o ::ₘ os := Multiset.mem_cons_self _ _
  have h : s.HasFile env f o os pl x e :=
    .of_unique howns (hpath.dirs_owned pl hpath.parent) hfirst hslot hentry hunique hinside htype
  have hold : e.size.toNat ≤ o.length * s.superblock.bytePerCluster :=
    le_mul_of_pages_le hb (Nat.le_trans (Nat.le_max_right _ _) hlen)
  have hname : ∀ (size : UInt32) (time : UInt64),
      ({ e with size := size, time := time } : FatDirEntry).nameStr = e.nameStr :=
    fun _ _ => FatDirEntry.nameStr_file_congr htype rfl rfl
  obtain ⟨k, hlook⟩ := (hpath.reads_lookupTarget howns hr.reads
    fun _ hd => Multiset.mem_cons_of_mem hd).run
  rw [fatTruncate, Prog.bind_ok _ hlook]
  dsimp only
  have h' : ({ s with preads := k } : Server).HasFile env f o os pl x e :=
    ⟨howns.preads k, h.parent, h.head, h.found, h.entry, h.inside, h.type⟩
  rcases Nat.lt_trichotomy n e.size.toNat with hlt | heq | hgt
  · obtain ⟨t, hrun, hs⟩ := shrinkFile_run hr h' hlt hold
    refine ⟨t, _, _, e.time, ?_, hs.owns, hs.contents_shrink h' hlt hold, ?_,
      fun _ => ⟨h.div_lt_length hlt hold, rfl, rfl⟩, fun hge => absurd hge (Nat.not_le.mpr hlt),
      fun o₁ ho₁ c hc => ?_⟩
    · rw [truncateFile, if_neg (by omega), if_neg (by omega)]
      exact hrun
    · rw [← hname (UInt32.ofNat n) e.time]
      exact (hs.hasFile h').lookup
    · obtain ⟨hdata, hco, -⟩ := h.of_other ho₁ hc
      exact ⟨hs.links c hdata hco, hs.clusters c hdata⟩
  · subst heq
    have hlack : s.lacking o e.size.toNat = 0 := by
      have hdiv : (e.size.toNat - 1) / s.superblock.bytePerCluster < o.length := by
        refine (Nat.div_lt_iff_lt_mul hb).mpr ?_
        have hpos := Nat.mul_pos h.length_pos hb
        omega
      unfold Server.lacking
      omega
    refine ⟨{ s with preads := k }, f, o, e.time, ?_, howns.preads k, ?_, ?_,
      fun hlt => absurd hlt (Nat.lt_irrefl _), fun _ => ?_, fun _ _ _ _ =>
        ⟨rfl, fun _ _ _ => rfl⟩⟩
    · rw [truncateFile, if_pos rfl]
      rfl
    · rw [Nat.sub_self, List.replicate_zero, List.append_nil,
        List.take_of_length_le (Nat.le_of_eq (length_contents hold))]
      rfl
    · rw [UInt32.ofNat_toNat]
      exact h'.lookup
    · rw [hlack, List.take_zero, List.drop_zero, List.append_nil]
      exact ⟨rfl, rfl⟩
  · obtain ⟨t, hrun, hw⟩ := extendFile_run hr h' hgt hn (hfree hgt)
    obtain ⟨time, hlookup⟩ := hw.lookup h'
    have hmax : max e.size.toNat (e.size.toNat + (n - e.size.toNat)) = n := by omega
    rw [hmax] at hlookup
    refine ⟨t, _, _, time, ?_, hw.owns, hw.contents_extend (Nat.le_of_lt hgt) hold
      (Server.le_of_lacking hb (hfree hgt)), hlookup,
      fun hlt => absurd hlt (Nat.not_lt.mpr (Nat.le_of_lt hgt)), fun _ => ⟨rfl, rfl⟩,
      fun o₁ ho₁ c hc => ?_⟩
    · rw [truncateFile, if_neg (by omega), if_pos hgt]
      exact hrun
    · obtain ⟨hdata, hco, hcf⟩ := h.of_other ho₁ hc
      exact ⟨hw.links c hdata hco (hcf _), hw.clusters c hdata hco (hcf _)⟩

/-- Extending an empty file by a cluster and a byte. -/
theorem fatTruncate_exact_oneFile :
    ∃ t, (fatTruncate (pathOf ([] ++ [oneName])) 4097).run .ideal (Server.oneFile 0 fun _ => 1)
        = .ok 0 t
      ∧ t.Owns ⟨List.range' 7 2553, [5, 6] ::ₘ {[4]}⟩
      ∧ t.contents [5, 6] 4097 = List.replicate 4097 0 := by
  set s := Server.oneFile 0 (fun _ => 1) with hs
  have hlack : s.lacking [5] 4097 = 1 := by
    rw [Server.lacking, Server.bytePerCluster_oneFile]
    rfl
  have hpath : s.Leads .ideal {[4]} {[4]} [] [4] oneName (oneEntry 0) :=
    Server.leads_oneFile (Multiset.mem_singleton_self [4]) .ideal 0 fun _ => 1
  obtain ⟨t, f', o', time, hrun, howns, hcont, -, -, hgrow, -⟩ :=
    fatTruncate_exact (f := List.range' 6 2554) (n := 4097) Env.ideal_reliable
      (Server.owns_oneFile 0 (fun _ => 1)) hpath Server.slot_oneFile Server.inside_oneFile
      (Server.slotEntry_oneFile .ideal) rfl Server.unique_oneFile rfl
      (by rw [Server.bytePerCluster_oneFile]; decide) (by decide)
      (fun _ => by rw [← hs, hlack, List.length_range']; decide)
  obtain ⟨rfl, rfl⟩ := hgrow (by decide)
  have hsize : (oneEntry 0).size.toNat = 0 := rfl
  have hempty : s.contents [5] 0 = [] := List.take_zero
  rw [← hs, hlack] at howns hcont
  rw [hsize, hempty, List.nil_append, Nat.sub_zero, List.take_replicate, Nat.min_self] at hcont
  exact ⟨t, hrun, howns, hcont⟩

end Fat
