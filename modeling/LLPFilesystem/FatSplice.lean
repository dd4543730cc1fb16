import LLPFilesystem.FatOneFile
import LLPFilesystem.FatWrite

/-!
# A write is a splice

What is left of a write once it is seen from outside: the contents of the
file are the old ones with the buffer spliced in, the entry of the file is
found where it was and has the size it needs, and neither the other chains
nor the other clusters have changed (`updateFile_splices`). In particular the
file is a file of the server again (`Server.Written.hasFile`), so writes
follow each other.
-/

namespace Fat

variable {env : Env} {s t : Server} {i k n size offset : ℕ} {f o pl : List ℕ}
  {os : Multiset (List ℕ)} {x y : ℕ × ℕ} {e : FatDirEntry} {buf : Buf}

/-- How many clusters a chain lacks to hold `n` bytes. -/
def Server.lacking (s : Server) (o : List ℕ) (n : ℕ) : ℕ :=
  (n - 1) / s.superblock.bytePerCluster + 1 - o.length

theorem Server.le_lacking (s : Server) (o : List ℕ) (n : ℕ) :
    (n - 1) / s.superblock.bytePerCluster + 1 ≤ o.length + s.lacking o n := by
  unfold lacking
  omega

namespace Server

/-- A chain with the clusters it lacked holds the bytes. -/
theorem le_of_lacking (hb : 0 < s.superblock.bytePerCluster)
    (h : s.lacking o n ≤ f.length) :
    n ≤ (o ++ f.take (s.lacking o n)).length * s.superblock.bytePerCluster := by
  have hle := s.le_lacking o n
  have hlt := Nat.lt_mul_div_succ (n - 1) hb
  rw [Nat.mul_comm] at hlt
  have hmul : ((n - 1) / s.superblock.bytePerCluster + 1) * s.superblock.bytePerCluster
      ≤ (o ++ f.take (s.lacking o n)).length * s.superblock.bytePerCluster :=
    Nat.mul_le_mul_right _ (by rw [List.length_append, List.length_take]; omega)
  omega

theorem HasFile.slot (h : s.HasFile env f o os pl x e) : x ∈ s.slots pl :=
  (findSlot_some h.found).1

/-- The clusters of the parent directory are not those of the file, and not
free. -/
theorem HasFile.notMem_file (h : s.HasFile env f o os pl x e) {c : ℕ} (hc : c ∈ pl) :
    c ∉ o := fun hco => Pool.notMem_other h.owns.nodup hco pl h.parent hc

theorem HasFile.notMem_free (h : s.HasFile env f o os pl x e) {c : ℕ} (hc : c ∈ pl) :
    c ∉ f := fun hcf =>
  Pool.notMem_free h.owns.nodup (Multiset.mem_cons_of_mem h.parent) hc hcf

theorem HasFile.slot_mem (h : s.HasFile env f o os pl x e) : x.1 ∈ pl :=
  (mem_slots.mp h.slot).1

/-- Looking the file up in its parent directory. -/
theorem HasFile.lookup (h : s.HasFile env f o os pl x e) :
    s.lookup env pl e.nameStr = some e := by
  rw [Server.lookup, h.found, Option.map_some, h.entry]

/-- The chain of a file has at least one cluster. -/
theorem HasFile.length_pos (h : s.HasFile env f o os pl x e) : 0 < o.length :=
  List.length_pos_of_ne_nil (h.owns.owners o (Multiset.mem_cons_self _ _)).1

/-- **A file whose entry has been rewritten** is a file of the server again, if
its chain still starts where it did and the other slots of its parent directory
hold what they held. -/
theorem HasFile.rewritten {f' o' : List ℕ} {e' : FatDirEntry}
    (h : s.HasFile env f o os pl x e) (howns : t.Owns ⟨f', o' ::ₘ os⟩)
    (hsb : t.superblock.bytePerCluster = s.superblock.bytePerCluster)
    (hhead : o'.headD endOfChain = o.headD endOfChain)
    (hname : e'.nameStr = e.nameStr) (hfirst : e'.firstCluster = e.firstCluster)
    (htype : e'.type = e.type) (hentry : t.slotEntry env x = e')
    (hothers : ∀ y ∈ s.slots pl, y ≠ x → t.slotEntry env y = s.slotEntry env y) :
    t.HasFile env f' o' os pl x e' := by
  refine ⟨howns, h.parent, by rw [hhead, hfirst, h.head], ?_, hentry, ?_,
    htype.trans h.type⟩
  · rw [← h.found, hname]
    refine findSlot_congr hsb (fun y hy => ?_)
    by_cases hyx : y = x
    · rw [hyx, hentry, h.entry, hname]
    · rw [hothers y hy hyx]
  · unfold Inside
    rw [hsb]
    exact h.inside

namespace Written

/-- The cluster size is what it was. -/
theorem bytePerCluster (hw : s.Written t env f o os x e k buf size offset) :
    t.superblock.bytePerCluster = s.superblock.bytePerCluster :=
  bytePerCluster_of_setFree hw.superblock

/-- The other slots of the parent directory hold what they held. -/
theorem slotEntry_of_ne (hw : s.Written t env f o os x e k buf size offset)
    (h : s.HasFile env f o os pl x e) (hy : y ∈ s.slots pl) (hne : y ≠ x) :
    t.slotEntry env y = s.slotEntry env y := by
  have hyl : y.1 ∈ pl := (mem_slots.mp hy).1
  exact slotEntry_congr hw.bytePerCluster (fun i hi hi' hlt =>
    hw.clusters y.1 (h.owns.owner_data (Multiset.mem_cons_of_mem h.parent) hyl)
      (h.notMem_file hyl) (fun hf => h.notMem_free hyl (List.mem_of_mem_take hf)) i hlt
      (slots_disjoint h.slot hy hne hi hi'))

/-- **The file is a file of the server again**, under its name. -/
theorem hasFile (hw : s.Written t env f o os x e k buf size offset)
    (h : s.HasFile env f o os pl x e) :
    ∃ time, t.HasFile env (f.drop k) (o ++ f.take k) os pl x { e with
      size := UInt32.ofNat (max e.size.toNat (offset + size)), time := time } := by
  obtain ⟨time, hentry⟩ := hw.entry
  refine ⟨time, h.rewritten hw.owns hw.bytePerCluster ?_
    (FatDirEntry.nameStr_file_congr h.type rfl rfl) rfl rfl hentry
    (fun y hy hne => hw.slotEntry_of_ne h hy hne)⟩
  obtain ⟨a, o', rfl⟩ :=
    List.exists_cons_of_ne_nil (h.owns.owners o (Multiset.mem_cons_self _ _)).1
  rfl

/-- Looking the file up after the write. -/
theorem lookup (hw : s.Written t env f o os x e k buf size offset)
    (h : s.HasFile env f o os pl x e) :
    ∃ time, t.lookup env pl e.nameStr = some { e with
      size := UInt32.ofNat (max e.size.toNat (offset + size)), time := time } := by
  obtain ⟨time, hfile⟩ := hw.hasFile h
  set e' : FatDirEntry := { e with
    size := UInt32.ofNat (max e.size.toNat (offset + size)), time := time }
  have hname : e'.nameStr = e.nameStr := FatDirEntry.nameStr_file_congr h.type rfl rfl
  refine ⟨time, ?_⟩
  rw [← hname]
  exact hfile.lookup

/-- **The contents have the buffer spliced in.** -/
theorem contents (hw : s.Written t env f o os x e k buf size offset)
    (hoff : offset ≤ n) (hn : n ≤ o.length * s.superblock.bytePerCluster)
    (hmax : max n (offset + size) ≤ (o ++ f.take k).length * s.superblock.bytePerCluster) :
    t.contents (o ++ f.take k) (max n (offset + size))
      = (s.contents o n).take offset ++ (List.range size).map buf
        ++ (s.contents o n).drop (offset + size) := by
  rw [contents_eq (by rw [hw.bytePerCluster]; exact hmax), contents_eq hn,
    ← Buf.map_range_blit hoff]
  refine List.map_congr_left (fun i hi => hw.bytes i ?_)
  exact Nat.lt_of_lt_of_le (List.mem_range.mp hi) hmax

end Written

end Server

/-- **A write is an exact splice and touches nothing else.** The entry `e` of
a regular file is in the slot `x` of its parent directory `pl` and is the only
one there with its name; the chain of the file is `o`, the free list is `f`
and has the clusters that `o` lacks for the write. Then `update_file` returns
the size of the buffer; the contents of the file are the old ones with the
buffer spliced in, and the entry has the new size; no other cluster has
changed but the one with the entry, and no link of another chain. -/
theorem updateFile_splices (hr : env.Reliable) (howns : s.Owns ⟨f, o ::ₘ os⟩)
    (hparent : pl ∈ os) (hslot : x ∈ s.slots pl) (hinside : s.Inside x)
    (hentry : s.slotEntry env x = e) (htype : e.type = dirEntryTypeFile)
    (hunique : ∀ y ∈ s.slots pl, (s.slotEntry env y).nameStr = e.nameStr → y = x)
    (hfirst : e.firstCluster.toNat = o.headD endOfChain)
    (hlen : max 1 ((e.size.toNat + s.superblock.bytePerCluster - 1)
      / s.superblock.bytePerCluster) ≤ o.length)
    (hsize : 0 < size) (hoffset : offset ≤ e.size.toNat)
    (hsum : offset + size < 2 ^ 32) (hfree : s.lacking o (offset + size) ≤ f.length)
    (buf : Buf) :
    ∃ t time, (updateFile (pl.headD endOfChain) e buf size offset).run env s
        = .ok (size : ℤ) t
      ∧ t.Owns ⟨f.drop (s.lacking o (offset + size)),
        (o ++ f.take (s.lacking o (offset + size))) ::ₘ os⟩
      ∧ t.contents (o ++ f.take (s.lacking o (offset + size)))
          (max e.size.toNat (offset + size))
        = (s.contents o e.size.toNat).take offset ++ (List.range size).map buf
          ++ (s.contents o e.size.toNat).drop (offset + size)
      ∧ t.lookup env pl e.nameStr = some { e with
        size := UInt32.ofNat (max e.size.toNat (offset + size)), time := time }
      ∧ (∀ c, s.superblock.IsData c → c ∉ o →
        c ∉ f.take (s.lacking o (offset + size)) → c ≠ x.1 →
        ∀ i < s.superblock.bytePerCluster, t.cluster c i = s.cluster c i)
      ∧ ∀ o' ∈ os, ∀ c ∈ o', t.next c = s.next c := by
  have hb := howns.geometry.page_pos
  have hle := s.le_lacking o (offset + size)
  have h : s.HasFile env f o os pl x e :=
    .of_unique howns hparent hfirst hslot hentry hunique hinside htype
  obtain ⟨t, hrun, hw⟩ := updateFile_run hr h buf hsize hsum (by omega)
  obtain ⟨time, hlookup⟩ := hw.lookup h
  have hold : e.size.toNat ≤ o.length * s.superblock.bytePerCluster :=
    le_mul_of_pages_le hb (Nat.le_trans (Nat.le_max_right _ _) hlen)
  have hmax : max e.size.toNat (offset + size)
      ≤ (o ++ f.take (s.lacking o (offset + size))).length
        * s.superblock.bytePerCluster := by
    refine Nat.max_le.mpr ⟨Nat.le_trans hold ?_, Server.le_of_lacking hb hfree⟩
    rw [List.length_append]
    exact Nat.mul_le_mul_right _ (Nat.le_add_right _ _)
  refine ⟨t, time, hrun, hw.owns, hw.contents hoffset hold hmax, hlookup,
    fun c hc hco hct hcx i hi => hw.clusters c hc hco hct i hi (fun hx => absurd hx hcx),
    fun o' ho' c hc => ?_⟩
  obtain ⟨hdata, hco, hcf⟩ := h.of_other ho' hc
  exact hw.links c hdata hco (hcf _)

/-- Writing two bytes across the end of a full file: the second one goes to a
cluster from the free list. -/
theorem updateFile_splices_oneFile :
    ∃ t, (updateFile 4 (oneEntry 4096) (fun _ => 7) 2 4095).run .ideal
        (Server.oneFile 4096 (fun _ => 1)) = .ok 2 t
      ∧ t.Owns ⟨List.range' 7 2553, [5, 6] ::ₘ {[4]}⟩
      ∧ t.contents [5, 6] 4097
        = ((Server.oneFile 4096 (fun _ => 1)).contents [5] 4096).take 4095 ++ [7, 7] := by
  set s := Server.oneFile 4096 (fun _ => 1) with hs
  have hlack : s.lacking [5] (4095 + 2) = 1 := by
    rw [Server.lacking, Server.bytePerCluster_oneFile]
    rfl
  obtain ⟨t, time, hrun, howns, hcont, -⟩ := updateFile_splices (f := List.range' 6 2554)
    Env.ideal_reliable (Server.owns_oneFile 4096 (fun _ => 1))
    (Multiset.mem_singleton_self [4]) Server.slot_oneFile Server.inside_oneFile
    (Server.slotEntry_oneFile .ideal) rfl Server.unique_oneFile rfl
    (by rw [Server.bytePerCluster_oneFile]; decide) (show 0 < 2 by decide)
    (show 4095 ≤ (oneEntry 4096).size.toNat by decide) (by decide)
    (by rw [← hs, hlack, List.length_range']; decide) (fun _ => 7)
  rw [← hs, hlack] at howns hcont
  refine ⟨t, hrun, howns, hcont.trans ?_⟩
  rw [List.drop_eq_nil_of_le, List.append_nil]
  · rfl
  · rw [Server.contents, List.length_take]
    exact Nat.le_trans (Nat.min_le_left _ _) (by decide)

end Fat
