import LLPFilesystem.FatScan
import Mathlib.Data.List.Find
import Mathlib.Data.List.GetD

/-!
# Entries and slots

What is in a slot is an entry, and what is stored in a slot that lies wholly
inside its cluster is read back as it was stored
(`Server.slotEntry_store_self`). The other slots of the directory hold what
they held (`Server.slotEntry_store_of_ne`): slots start at multiples of the
entry size, so no two of them overlap.

A slot that sticks out of its cluster is read partly from the heap, and nothing
is stored in it: the program stops (`putEntryAt_outside`).
-/

namespace Fat

variable {env : Env} {s t : Server} {c d o n i : ℕ} {l : List ℕ} {e e' : FatDirEntry}
  {m m' : Buf} {x y : ℕ × ℕ} {name : List UInt8}

/-! ## Entries as bytes -/

/-- An entry depends on its own bytes only. -/
theorem FatDirEntry.ofBytes_congr (h : ∀ i < dirEntrySize, m i = m' i) :
    FatDirEntry.ofBytes m = FatDirEntry.ofBytes m' := by
  have hle : ∀ off k, off + k ≤ dirEntrySize → leNat m off k = leNat m' off k :=
    fun off k hk => leNat_congr (fun i hi => h (off + i) (by omega))
  refine FatDirEntry.ext (funext fun i => h i (Nat.lt_trans i.isLt (by decide)))
    (congrArg UInt16.ofNat (hle 22 2 (by decide)))
    (congrArg UInt32.ofNat (hle 24 4 (by decide)))
    (congrArg UInt32.ofNat (hle 28 4 (by decide)))
    (congrArg UInt64.ofNat (hle 32 8 (by decide)))

/-- **An entry that was stored is read back.** -/
theorem FatDirEntry.ofBytes_bytes (e : FatDirEntry) : FatDirEntry.ofBytes e.bytes = e := by
  have htype : leNat e.bytes 22 2 = e.type.toNat := by
    rw [leNat_of_leByte (v := e.type.toNat) (fun i hi => ?_)]
    · exact Nat.mod_eq_of_lt (Nat.lt_of_lt_of_eq e.type.toNat_lt (by decide))
    · rw [FatDirEntry.bytes, dif_neg (by omega), if_pos (by omega), Nat.add_sub_cancel_left]
  have hsize : leNat e.bytes 24 4 = e.size.toNat := by
    rw [leNat_of_leByte (v := e.size.toNat) (fun i hi => ?_)]
    · exact Nat.mod_eq_of_lt (Nat.lt_of_lt_of_eq e.size.toNat_lt (by decide))
    · rw [FatDirEntry.bytes, dif_neg (by omega), if_neg (by omega), if_pos (by omega),
        Nat.add_sub_cancel_left]
  have hfirst : leNat e.bytes 28 4 = e.firstCluster.toNat := by
    rw [leNat_of_leByte (v := e.firstCluster.toNat) (fun i hi => ?_)]
    · exact Nat.mod_eq_of_lt (Nat.lt_of_lt_of_eq e.firstCluster.toNat_lt (by decide))
    · rw [FatDirEntry.bytes, dif_neg (by omega), if_neg (by omega), if_neg (by omega),
        if_pos (by omega), Nat.add_sub_cancel_left]
  have htime : leNat e.bytes 32 8 = e.time.toNat := by
    rw [leNat_of_leByte (v := e.time.toNat) (fun i hi => ?_)]
    · exact Nat.mod_eq_of_lt (Nat.lt_of_lt_of_eq e.time.toNat_lt (by decide))
    · rw [FatDirEntry.bytes, dif_neg (by omega), if_neg (by omega), if_neg (by omega),
        if_neg (by omega), Nat.add_sub_cancel_left]
  refine FatDirEntry.ext (funext fun i => dif_pos i.isLt) ?_ ?_ ?_ ?_
  · exact (congrArg UInt16.ofNat htype).trans UInt16.ofNat_toNat
  · exact (congrArg UInt32.ofNat hsize).trans UInt32.ofNat_toNat
  · exact (congrArg UInt32.ofNat hfirst).trans UInt32.ofNat_toNat
  · exact (congrArg UInt64.ofNat htime).trans UInt64.ofNat_toNat

/-- The name of a file or a directory ends at the type behind its field, if not before:
one of the two bytes of either type is zero. -/
theorem FatDirEntry.nameStr_type_congr
    (h : e.type = dirEntryTypeFile ∨ e.type = dirEntryTypeSubdir)
    (hn : e'.name = e.name) (ht : e'.type = e.type) : e'.nameStr = e.nameStr := by
  have hbytes : ∀ i < 24, e'.bytes i = e.bytes i := by
    intro i hi
    unfold FatDirEntry.bytes
    by_cases hi' : i < 22
    · rw [dif_pos hi', dif_pos hi', hn]
    · rw [dif_neg hi', dif_neg hi', if_pos hi, if_pos hi, ht]
  have hzero : ∃ n < 24, e.bytes n = 0 := by
    rcases h with h | h
    · refine ⟨22, by decide, ?_⟩
      rw [FatDirEntry.bytes, dif_neg (by decide), if_pos (by decide), h]
      rfl
    · refine ⟨23, by decide, ?_⟩
      rw [FatDirEntry.bytes, dif_neg (by decide), if_pos (by decide), h]
      rfl
  obtain ⟨n, hlt, h0⟩ := hzero
  exact cString_congr (hlt.trans (by decide)) h0 fun i hi => hbytes i (Nat.lt_of_le_of_lt hi hlt)

theorem FatDirEntry.nameStr_file_congr (h : e.type = dirEntryTypeFile)
    (hn : e'.name = e.name) (ht : e'.type = e.type) : e'.nameStr = e.nameStr :=
  FatDirEntry.nameStr_type_congr (.inl h) hn ht

/-- A free slot has the empty name. -/
theorem FatDirEntry.nameStr_of_isFree (h : e.isFree = true) : e.nameStr = [] := by
  have h0 : e.bytes 0 = 0 := (dif_pos (by decide)).trans (beq_iff_eq.mp h)
  rw [FatDirEntry.nameStr, cString_eq (n := 0) (by decide) h0
    (fun i hi => absurd hi (Nat.not_lt_zero i))]
  rfl

/-- A slot is free exactly when its name is empty. -/
theorem FatDirEntry.isFree_iff : e.isFree = true ↔ e.nameStr = [] := by
  refine ⟨nameStr_of_isFree, fun h => ?_⟩
  have hhead : e.nameStr = (e.bytes 0 :: (List.range 39).map fun i => e.bytes (i + 1)).takeWhile
      (· ≠ 0) := by
    rw [nameStr, cString, show dirEntrySize = 39 + 1 from rfl, List.range_succ_eq_map]
    simp [Function.comp_def]
  by_contra hne
  have h0 : e.bytes 0 ≠ 0 := fun h0 => hne (beq_iff_eq.mpr
    ((dif_pos (by decide : 0 < 22)).symm.trans h0))
  rw [hhead, List.takeWhile_cons_of_pos (by simpa using h0)] at h
  cases h

/-- **The name field of a name** of at most 21 bytes reads as that name. -/
theorem FatDirEntry.nameStr_nameField (hn : name.length ≤ dirEntryMaxNameLen)
    (h0 : 0 ∉ name) (he : e.name = nameField name) : e.nameStr = name := by
  have hlt : name.length < 22 := Nat.lt_succ_of_le hn
  have hbytes : ∀ i, i < 22 → e.bytes i = name.getD i 0 := fun i hi => by
    rw [FatDirEntry.bytes, dif_pos hi, he, nameField]
  have hend : name.getD name.length 0 = 0 := by simp
  have hsize : name.length < dirEntrySize := Nat.lt_trans hlt (by decide)
  rw [nameStr, cString_eq hsize ((hbytes _ hlt).trans hend) (fun i hi => ?_)]
  · refine List.ext_getElem (by simp) (fun i hi hi' => ?_)
    rw [List.getElem_map, List.getElem_range, hbytes i (by omega),
      List.getD_eq_getElem _ _ hi']
  · rw [hbytes i (by omega), List.getD_eq_getElem _ _ hi]
    exact fun hz => h0 (hz ▸ List.getElem_mem hi)

/-- The entry of a new file or directory, but for its time. -/
def freshEntry (name : List UInt8) (first : ℕ) (type : UInt16) : FatDirEntry where
  name := nameField name
  type := type
  size := 0
  firstCluster := UInt32.ofNat first
  time := 0

/-- A new entry whose name is one letter is live. -/
theorem freshEntry_live (a : UInt8) (ha : a ≠ 0) (first : ℕ) (type : UInt16) :
    (freshEntry [a] first type).isFree = false
    ∧ (freshEntry [a] first type).nameStr = [a] := by
  refine ⟨beq_false_of_ne ha, FatDirEntry.nameStr_nameField ?_ ?_ rfl⟩
  · show 1 ≤ dirEntryMaxNameLen
    decide
  · exact fun hmem => ha (List.mem_singleton.mp hmem).symm

/-! ## Slots -/

/-- **The slots of a cluster** start at the multiples of the entry size. -/
theorem mem_dirSlots {b : ℕ} : o ∈ dirSlots b ↔ dirEntrySize ∣ o ∧ o < b := by
  rw [dirSlots, slotsFrom, List.mem_range']
  unfold dirEntrySize
  constructor
  · rintro ⟨i, hi, rfl⟩
    exact ⟨⟨i, Nat.zero_add _⟩, by omega⟩
  · rintro ⟨⟨i, rfl⟩, hb⟩
    exact ⟨i, by omega, (Nat.zero_add _).symm⟩

/-- A cluster that is larger than an entry has two slots at least. -/
theorem dirSlots_eq {b : ℕ} (hb : dirEntrySize < b) :
    ∃ rest, dirSlots b = 0 :: dirEntrySize :: rest := by
  obtain ⟨m, hm⟩ : ∃ m, (b - 0 + (dirEntrySize - 1)) / dirEntrySize = m + 2 := by
    unfold dirEntrySize at hb ⊢
    exact ⟨(b - 0 + (40 - 1)) / 40 - 2, by omega⟩
  refine ⟨List.range' (dirEntrySize + dirEntrySize) m dirEntrySize, ?_⟩
  rw [dirSlots, slotsFrom, hm, List.range'_succ, List.range'_succ, Nat.zero_add]

/-- The offsets before one of the slots of a cluster are smaller. -/
theorem lt_of_dirSlots {b : ℕ} {pre post : List ℕ} (h : dirSlots b = pre ++ o :: post) :
    ∀ i ∈ pre, i < o := by
  have hsorted : (dirSlots b).Pairwise (· < ·) :=
    List.pairwise_lt_range' dirEntrySize (by decide)
  rw [h, List.pairwise_append] at hsorted
  exact fun i hi => hsorted.2.2 i hi o List.mem_cons_self

/-- The first slot of a cluster that is looked for is not behind another. -/
theorem find_dirSlots_le {b : ℕ} {q : ℕ → Bool} (h : (dirSlots b).find? q = some o)
    (hi : i ∈ dirSlots b) (hq : q i = true) : o ≤ i := by
  obtain ⟨-, pre, post, hsplit, hpre⟩ := List.find?_eq_some_iff_append.mp h
  have hmem := hi
  rw [hsplit] at hmem
  rcases List.mem_append.mp hmem with hmem | hmem
  · have hnot := hpre i hmem
    rw [hq] at hnot
    cases hnot
  · rcases List.mem_cons.mp hmem with rfl | hmem
    · exact Nat.le_refl i
    · obtain ⟨l₁, l₂, rfl⟩ := List.append_of_mem hmem
      have hsplit' : dirSlots b = (pre ++ o :: l₁) ++ i :: l₂ := by
        rw [hsplit, List.append_assoc]
        rfl
      exact Nat.le_of_lt (lt_of_dirSlots hsplit' o (by simp))

theorem Server.mem_slots :
    x ∈ s.slots l ↔ x.1 ∈ l ∧ x.2 ∈ dirSlots s.superblock.bytePerCluster := by
  rw [slots, List.mem_flatMap]
  constructor
  · rintro ⟨c, hc, hx⟩
    obtain ⟨o, ho, rfl⟩ := List.mem_map.mp hx
    exact ⟨hc, ho⟩
  · rintro ⟨hc, ho⟩
    exact ⟨x.1, hc, List.mem_map.mpr ⟨x.2, ho, rfl⟩⟩

/-- **No two slots overlap**, of one directory or of two. -/
theorem Server.slots_disjoint {l' : List ℕ} (hx : x ∈ s.slots l) (hy : y ∈ s.slots l')
    (hne : y ≠ x) (hi : y.2 ≤ i) (hi' : i < y.2 + dirEntrySize) :
    y.1 = x.1 → i < x.2 ∨ x.2 + dirEntrySize ≤ i := by
  intro hc
  have ho : y.2 ≠ x.2 := fun ho => hne (Prod.ext hc ho)
  obtain ⟨a, ha⟩ := (mem_dirSlots.mp (mem_slots.mp hx).2).1
  obtain ⟨b, hb⟩ := (mem_dirSlots.mp (mem_slots.mp hy).2).1
  unfold dirEntrySize at *
  omega

/-- A slot lies wholly inside its cluster. -/
def Server.Inside (s : Server) (x : ℕ × ℕ) : Prop :=
  x.2 + dirEntrySize ≤ s.superblock.bytePerCluster

instance (s : Server) : DecidablePred s.Inside := fun _ => inferInstanceAs (Decidable (_ ≤ _))

namespace Server

/-- The server after `n` bytes have been stored in a slot: the cluster of the
slot is in the buffer, and the buffer is written back. -/
def store (s : Server) (env : Env) (x : ℕ × ℕ) (src : Buf) (n : ℕ) : Server :=
  s.writeCluster env ((s.clusterBuf env x.1).blit x.2 src n) x.1

@[simp] theorem superblock_store {src : Buf} :
    (s.store env x src n).superblock = s.superblock := rfl

@[simp] theorem next_store {src : Buf} (d : ℕ) :
    (s.store env x src n).next d = s.next d := rfl

@[simp] theorem slots_store {src : Buf} : (s.store env x src n).slots l = s.slots l := rfl

/-- A cluster after a store in one of its slots. -/
theorem cluster_store (hw : env.WritesFull) {src : Buf}
    (hi : i < s.superblock.bytePerCluster) :
    (s.store env x src n).cluster x.1 i = (s.cluster x.1).blit x.2 src n i := by
  refine (cluster_writeCluster hw hi).trans ?_
  unfold Buf.blit
  rw [clusterBuf_of_lt hi]

theorem cluster_store_of_ne {src : Buf} (hc : c ≠ x.1)
    (hi : i < s.superblock.bytePerCluster) :
    (s.store env x src n).cluster c i = s.cluster c i :=
  cluster_writeCluster_of_ne hc hi

/-- What is read at a slot depends on its bytes on disk only. -/
theorem slotEntry_congr (hsb : t.superblock.bytePerCluster = s.superblock.bytePerCluster)
    (h : ∀ i, x.2 ≤ i → i < x.2 + dirEntrySize → i < s.superblock.bytePerCluster →
      t.cluster x.1 i = s.cluster x.1 i) :
    t.slotEntry env x = s.slotEntry env x := by
  refine FatDirEntry.ofBytes_congr (fun i hi => ?_)
  show t.clusterBuf env x.1 (x.2 + i) = s.clusterBuf env x.1 (x.2 + i)
  unfold clusterBuf
  rw [hsb]
  split
  · next hlt => exact h _ (by omega) (by omega) hlt
  · rfl

/-- **The other slots hold what they held.** -/
theorem slotEntry_store_of_ne (hw : env.WritesFull) {src : Buf}
    (hx : dirEntrySize ∣ x.2) (hy : dirEntrySize ∣ y.2) (hne : y ≠ x)
    (hn : n ≤ dirEntrySize) :
    (s.store env x src n).slotEntry env y = s.slotEntry env y := by
  refine slotEntry_congr rfl (fun i hi hi' hlt => ?_)
  by_cases hc : y.1 = x.1
  · have ho : y.2 ≠ x.2 := fun ho => hne (Prod.ext hc ho)
    rw [hc, cluster_store hw hlt]
    obtain ⟨a, ha⟩ := hx
    obtain ⟨b, hb⟩ := hy
    unfold dirEntrySize at *
    rcases Nat.lt_or_gt_of_ne ho with h | h
    · exact Buf.blit_of_lt (by omega)
    · exact Buf.blit_of_le (by omega)
  · exact cluster_store_of_ne hc hlt

/-- **An entry stored in a slot inside its cluster is read back.** -/
theorem slotEntry_store_self {env' : Env} (hw : env.WritesFull) (hx : s.Inside x) :
    (s.store env x e.bytes dirEntrySize).slotEntry env' x = e := by
  refine (FatDirEntry.ofBytes_congr (fun i hi => ?_)).trans e.ofBytes_bytes
  have hlt : x.2 + i < s.superblock.bytePerCluster := by
    unfold Inside at hx
    omega
  show (s.store env x e.bytes dirEntrySize).clusterBuf env' x.1 (x.2 + i) = _
  rw [clusterBuf_of_lt (s := s.store env x e.bytes dirEntrySize) hlt, cluster_store hw hlt]
  exact Buf.blit_add hi

/-- **A slot is free** exactly when its first byte on disk is zero. -/
theorem isFree_slotEntry (hx : x.2 < s.superblock.bytePerCluster) :
    (s.slotEntry env x).isFree = true ↔ s.cluster x.1 x.2 = 0 := by
  show (s.clusterBuf env x.1 (x.2 + 0) == 0) = true ↔ _
  rw [Nat.add_zero, clusterBuf_of_lt hx, beq_iff_eq]

/-- The first two slots of a cluster. -/
theorem slots_two (h : s.superblock.Geometry) (c : ℕ) :
    ∃ rest, s.slots [c] = (c, 0) :: (c, dirEntrySize) :: rest := by
  have hb := h.page
  obtain ⟨rest, hrest⟩ := dirSlots_eq (b := s.superblock.bytePerCluster) (by
    unfold superblockSize at hb
    unfold dirEntrySize
    omega)
  refine ⟨rest.map (c, ·), ?_⟩
  rw [slots, List.flatMap_singleton, hrest, List.map_cons, List.map_cons]

/-- The slots of a zeroed cluster are free. -/
theorem isFree_of_zero (h : ∀ i < s.superblock.bytePerCluster, s.cluster c i = 0)
    (hx : x ∈ s.slots [c]) : (s.slotEntry env x).isFree = true := by
  obtain ⟨hxc, hxs⟩ := mem_slots.mp hx
  have hlt := (mem_dirSlots.mp hxs).2
  rw [isFree_slotEntry hlt, List.mem_singleton.mp hxc]
  exact h _ hlt

/-- The first of them is what an insertion finds. -/
theorem findSlot_of_zero (hg : s.superblock.Geometry)
    (h : ∀ i < s.superblock.bytePerCluster, s.cluster c i = 0) :
    s.findSlot env [c] FatDirEntry.isFree = some (c, 0) := by
  obtain ⟨rest, hrest⟩ := slots_two hg c
  have hfree : (s.slotEntry env (c, 0)).isFree = true :=
    isFree_of_zero h (by rw [hrest]; exact List.mem_cons_self)
  rw [findSlot, hrest,
    List.find?_cons_of_pos (p := fun x => (s.slotEntry env x).isFree) hfree]

/-- A slot whose first byte has been zeroed is free. -/
theorem isFree_store (hw : env.WritesFull) (hx : x.2 < s.superblock.bytePerCluster) :
    ((s.store env x (fun _ => 0) 1).slotEntry env x).isFree = true := by
  rw [isFree_slotEntry (s := s.store env x (fun _ => 0) 1) hx, cluster_store hw hx,
    ← Nat.add_zero x.2]
  exact Buf.blit_add Nat.one_pos

end Server

/-! ## Storing an entry -/

/-- The first slot of a cluster lies inside it. -/
theorem Server.inside_zero (hg : s.superblock.Geometry) (c : ℕ) : s.Inside (c, 0) :=
  Nat.le_trans (show 0 + dirEntrySize ≤ superblockSize by decide) hg.page

/-- An entry is put into a slot inside the cluster. -/
theorem putEntryAt_run (hx : s.Inside x) (buf : Buf) (e : FatDirEntry) :
    (putEntryAt buf x.2 e).run env s = .ok (buf.blit x.2 e.bytes dirEntrySize) s := by
  rw [putEntryAt, Prog.bind_ok _ (Prog.run_get env s),
    if_pos (show x.2 + dirEntrySize ≤ s.superblock.bytePerCluster from hx)]
  rfl

/-- **A slot that sticks out of its cluster** takes no entry: the program stops. -/
theorem putEntryAt_outside (hx : ¬ s.Inside x) (buf : Buf) (e : FatDirEntry) :
    (putEntryAt buf x.2 e).run env s = .stop .outOfBounds s := by
  rw [putEntryAt, Prog.bind_ok _ (Prog.run_get env s),
    if_neg (show ¬ x.2 + dirEntrySize ≤ s.superblock.bytePerCluster from hx)]
  rfl

/-- Putting an entry into a slot inside the cluster and writing the cluster. -/
theorem putEntryAt_write (hg : s.superblock.Geometry) (hc : s.superblock.IsData x.1)
    (hx : s.Inside x) (buf : Buf) (e : FatDirEntry) :
    (putEntryAt buf x.2 e >>= fun cluster => writeClusterToDisk cluster x.1).run env s
      = .ok (s.writeStatus env)
        (s.writeCluster env (buf.blit x.2 e.bytes dirEntrySize) x.1) := by
  rw [Prog.bind_ok _ (putEntryAt_run hx buf e)]
  exact writeClusterToDisk_run hg hc.2

/-- What puts an entry into a slot and returns has found it inside its cluster. -/
theorem putEntryAt_ok {buf b : Buf} (c : ℕ) (hrun : (putEntryAt buf o e).run env s = .ok b t) :
    s.Inside (c, o) ∧ t = s := by
  by_cases hin : s.Inside (c, o)
  · rw [putEntryAt_run hin buf e] at hrun
    exact ⟨hin, (Outcome.ok.inj hrun).2.symm⟩
  · rw [putEntryAt_outside hin buf e] at hrun
    cases hrun

/-! ## Looking up in a part of a directory -/

theorem Server.slots_append (l m : List ℕ) : s.slots (l ++ m) = s.slots l ++ s.slots m :=
  List.flatMap_append

theorem Server.slots_congr (hsb : t.superblock.bytePerCluster = s.superblock.bytePerCluster) :
    t.slots l = s.slots l := by
  unfold slots
  rw [hsb]

theorem Server.lookup_append (l m : List ℕ) :
    s.lookup env (l ++ m) name = (s.lookup env l name).or (s.lookup env m name) := by
  unfold lookup findSlot
  rw [slots_append, List.find?_append]
  cases (s.slots l).find? _ <;> rfl

/-- A name is not found exactly when no slot holds it. -/
theorem Server.lookup_eq_none :
    s.lookup env l name = none ↔ ∀ y ∈ s.slots l, (s.slotEntry env y).nameStr ≠ name := by
  rw [lookup, Option.map_eq_none_iff, findSlot, List.find?_eq_none]
  exact forall₂_congr (fun y _ => by rw [beq_iff_eq])

/-- What is found is in a slot, and has the name. -/
theorem Server.lookup_eq_some (h : s.lookup env l name = some e) :
    e.nameStr = name ∧ ∃ y ∈ s.slots l, s.slotEntry env y = e := by
  obtain ⟨y, hy, rfl⟩ := Option.map_eq_some_iff.mp h
  have hp := List.find?_some (p := fun x => (s.slotEntry env x).nameStr == name) hy
  exact ⟨eq_of_beq hp, y, List.mem_of_find?_eq_some hy, rfl⟩

/-- The only slot with a name is what the name is looked up to. -/
theorem Server.lookup_of_unique (hx : x ∈ s.slots l) (hn : (s.slotEntry env x).nameStr = name)
    (hu : ∀ y ∈ s.slots l, (s.slotEntry env y).nameStr = name → y = x) :
    s.lookup env l name = some (s.slotEntry env x) := by
  cases h : s.lookup env l name with
  | none => exact absurd hn (lookup_eq_none.mp h x hx)
  | some e =>
    obtain ⟨he, y, hy, rfl⟩ := lookup_eq_some h
    rw [hu y hy he]

/-- **What a name is looked up to depends on the slots with that name.** -/
theorem Server.lookup_congr
    (hsb : t.superblock.bytePerCluster = s.superblock.bytePerCluster)
    (h : ∀ y ∈ s.slots l, t.slotEntry env y = s.slotEntry env y
      ∨ ((t.slotEntry env y).nameStr ≠ name ∧ (s.slotEntry env y).nameStr ≠ name)) :
    t.lookup env l name = s.lookup env l name := by
  have hfind : t.findSlot env l (fun e => e.nameStr == name)
      = s.findSlot env l (fun e => e.nameStr == name) := by
    unfold findSlot
    rw [slots_congr hsb]
    refine List.find?_congr (fun y hy => ?_)
    rcases h y hy with heq | ⟨ht, hs⟩
    · rw [heq]
    · exact (beq_false_of_ne ht).trans (beq_false_of_ne hs).symm
  unfold lookup
  rw [hfind]
  cases hy : s.findSlot env l (fun e => e.nameStr == name) with
  | none => rfl
  | some y =>
    have hmem := List.mem_of_find?_eq_some hy
    have hp := List.find?_some (p := fun x => (s.slotEntry env x).nameStr == name) hy
    rcases h y hmem with heq | ⟨-, hs⟩
    · exact congrArg some heq
    · exact absurd (eq_of_beq hp) hs

/-! ## Updating an entry -/

theorem Server.findSlot_some {p : FatDirEntry → Bool} (h : s.findSlot env l p = some x) :
    x ∈ s.slots l ∧ p (s.slotEntry env x) = true :=
  ⟨List.mem_of_find?_eq_some h,
    List.find?_some (p := fun x => p (s.slotEntry env x)) h⟩

/-- The only slot a scan looks for is the one it finds. -/
theorem Server.findSlot_of_unique {p : FatDirEntry → Bool} (hx : x ∈ s.slots l)
    (hp : p (s.slotEntry env x) = true)
    (hu : ∀ y ∈ s.slots l, p (s.slotEntry env y) = true → y = x) :
    s.findSlot env l p = some x := by
  cases h : s.findSlot env l p with
  | none =>
    exact absurd hp (List.find?_eq_none.mp h x hx)
  | some y =>
    rw [hu y (findSlot_some h).1 (findSlot_some h).2]

/-- What a scan finds depends on what is in the slots. -/
theorem Server.findSlot_congr {p p' : FatDirEntry → Bool}
    (hsb : t.superblock.bytePerCluster = s.superblock.bytePerCluster)
    (h : ∀ x ∈ s.slots l, p' (t.slotEntry env x) = p (s.slotEntry env x)) :
    t.findSlot env l p' = s.findSlot env l p := by
  have hslots : t.slots l = s.slots l := by
    unfold slots
    rw [hsb]
  unfold findSlot
  rw [hslots]
  exact List.find?_congr h

/-- A directory whose clusters are unchanged is scanned as before. -/
theorem Server.slotEntry_of_clusters
    (hsb : t.superblock.bytePerCluster = s.superblock.bytePerCluster)
    (h : ∀ c ∈ l, ∀ i < s.superblock.bytePerCluster, t.cluster c i = s.cluster c i) :
    ∀ x ∈ s.slots l, t.slotEntry env x = s.slotEntry env x := fun x hx =>
  slotEntry_congr hsb (fun i _ _ hi => h x.1 (mem_slots.mp hx).1 i hi)

/-- **Updating or removing an entry** stores in the first slot with its
name, which has to lie inside its cluster unless the entry is removed. -/
theorem updateDirEntry_run (hr : env.Reliable) (hg : s.superblock.Geometry)
    (h : s.Chain c l) (hfind : s.findSlot env l (fun e' => e'.nameStr == e.nameStr) = some x)
    (remove : Bool) (hin : remove = false → s.Inside x) :
    ∃ k, (updateDirEntry c e remove).run env s
      = .ok 0 (({ s with preads := k } : Server).store env x
        (if remove then fun _ => 0 else e.bytes) (if remove then 1 else dirEntrySize)) := by
  obtain ⟨hx, -⟩ := Server.findSlot_some hfind
  have hxl := (Server.mem_slots.mp hx).1
  rcases l.eq_nil_or_concat with rfl | ⟨l', d, rfl⟩
  · exact absurd hxl List.not_mem_nil
  · rw [List.concat_eq_append] at *
    obtain ⟨k, hk⟩ := scanDir_run (fun _ _ => true) (fun e' => e'.nameStr == e.nameStr)
      (fun c cluster offset =>
        if remove then writeClusterToDisk (cluster.blit offset (fun _ => 0) 1) c
        else do
          let cluster ← putEntryAt cluster offset e
          writeClusterToDisk cluster c)
      (fun _ => return -1) hr.reads hg h (fun _ _ => rfl)
      (Nat.le_of_lt (h.length_lt_fuel hg)) hfind
    refine ⟨k, ?_⟩
    rw [updateDirEntry, Prog.bind_ok _ (Prog.run_get env s), hk]
    cases remove with
    | true =>
      dsimp only
      rw [if_pos rfl, writeClusterToDisk_run (s := { s with preads := k }) hg
        (h.data _ hxl).2, Server.writeStatus_of_writesFull hr.writes]
      rfl
    | false =>
      dsimp only
      rw [if_neg (by decide),
        putEntryAt_write (s := { s with preads := k }) hg (h.data _ hxl) (hin rfl),
        Server.writeStatus_of_writesFull hr.writes]
      rfl

/-- **An entry has been rewritten**: the slot `x` holds `e`, and nothing
outside the slot has changed. -/
structure Server.Rewritten (s t : Server) (env : Env) (x : ℕ × ℕ) (e : FatDirEntry) :
    Prop where
  superblock : t.superblock = s.superblock
  fatTable : t.fatTable = s.fatTable
  clusters : ∀ c, ∀ i < s.superblock.bytePerCluster,
    (c = x.1 → i < x.2 ∨ x.2 + dirEntrySize ≤ i) → t.cluster c i = s.cluster c i
  entry : t.slotEntry env x = e

/-- Storing an entry in a slot inside its cluster rewrites it. -/
theorem Server.store_rewritten (hw : env.WritesFull) (hx : s.Inside x) (k : ℕ) :
    s.Rewritten (({ s with preads := k } : Server).store env x e.bytes dirEntrySize)
      env x e where
  superblock := rfl
  fatTable := rfl
  clusters := fun c i hi hc => by
    by_cases hcx : c = x.1
    · subst hcx
      refine (cluster_store (s := { s with preads := k }) hw hi).trans ?_
      rcases hc rfl with h | h
      · exact Buf.blit_of_lt h
      · exact Buf.blit_of_le h
    · exact cluster_store_of_ne (s := { s with preads := k }) hcx hi
  entry := slotEntry_store_self (s := { s with preads := k }) hw hx

/-- **Updating an entry**, found by its name, in a slot inside its cluster. -/
theorem updateDirEntry_rewritten (hr : env.Reliable) (hg : s.superblock.Geometry)
    (h : s.Chain c l) (hfind : s.findSlot env l (fun e' => e'.nameStr == e.nameStr) = some x)
    (hx : s.Inside x) :
    ∃ t, (updateDirEntry c e false).run env s = .ok 0 t ∧ s.Rewritten t env x e := by
  obtain ⟨k, hk⟩ := updateDirEntry_run hr hg h hfind false fun _ => hx
  exact ⟨_, hk, Server.store_rewritten hr.writes hx k⟩

end Fat
