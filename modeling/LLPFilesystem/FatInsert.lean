import LLPFilesystem.FatEntries
import LLPFilesystem.FatOwnership

/-!
# Inserting an entry

`add_dir_entry_to_cluster` scans for a free slot and stores the new entry in
the first one it finds. A directory without a free slot gets another cluster
from the free list, and the entry goes into its first slot; a directory without
a free slot on a disk without a free cluster is left alone, and the insertion
fails. A first free slot that sticks out of its cluster stops the program
(`addDirEntryToCluster_outside`). A name that does not fit is refused before
anything is read.
-/

namespace Fat

variable {env : Env} {s t : Server} {c d first k : ℕ} {f l o : List ℕ}
  {os : Multiset (List ℕ)} {p : Pool ℕ} {x y : ℕ × ℕ} {name : List UInt8} {type : UInt16}

namespace Server.Grown

/-- A slot of an owner holds the entry it held. -/
theorem slotEntry_owner {m : Multiset (List ℕ)} (h : s.Owns ⟨f, m⟩)
    (hgr : s.Grown t f o os k) (hl : l ∈ m) (hx : x.1 ∈ l) :
    t.slotEntry env x = s.slotEntry env x := by
  refine slotEntry_congr hgr.bytePerCluster fun i _ _ hi => ?_
  refine hgr.clusters x.1 (h.owner_data hl hx) (fun hnew => ?_) i hi
  exact Pool.notMem_free h.nodup hl hx (List.mem_of_mem_take hnew)

/-- So the first free slot of an owner is the one it was. -/
theorem findSlot_owner {m : Multiset (List ℕ)} (h : s.Owns ⟨f, m⟩)
    (hgr : s.Grown t f o os k) (hl : l ∈ m) (p : FatDirEntry → Bool) :
    t.findSlot env l p = s.findSlot env l p :=
  findSlot_congr hgr.bytePerCluster fun y hy => by
    rw [hgr.slotEntry_owner h hl (mem_slots.mp hy).1]

end Server.Grown

/-- The entry an insertion makes. -/
def Server.madeEntry (s : Server) (env : Env) (name : List UInt8) (first : ℕ)
    (type : UInt16) : FatDirEntry where
  name := nameField name
  type := type
  size := 0
  firstCluster := UInt32.ofNat first
  time := UInt64.ofNat (env.time s.pwrites.length)

/-- A name that `add_dir_entry_to_cluster` takes. -/
def NameFits (name : List UInt8) : Prop :=
  name.length ≤ dirEntryMaxNameLen ∧ name.length ≠ 0

instance : DecidablePred NameFits := fun _ => inferInstanceAs (Decidable (_ ∧ _))

/-- **A name that does not fit** is refused. -/
theorem addDirEntryToCluster_long (hfirst : s.superblock.IsData first)
    (hn : ¬ NameFits name) :
    (addDirEntryToCluster c name first type).run env s = .ok (-1) s := by
  have hlen : dirEntryMaxNameLen < name.length ∨ name.length = 0 := by
    unfold NameFits at hn
    omega
  rw [addDirEntryToCluster, Prog.bind_ok _ (Prog.run_read env s),
    Prog.bind_ok _ (Prog.run_get env s),
    Prog.bind_ok _ (check_run ⟨hfirst.1, hfirst.2⟩ env s), if_pos hlen]
  rfl

/-- The end of an insertion: the new entry is put into the buffer, and the
buffer is written. -/
def storeEntry (env : Env) (name : List UInt8) (first : ℕ) (type : UInt16) (c : ℕ)
    (cluster : Buf) (offset : ℕ) : FatM ℤ := do
  let s ← get
  let cluster ← putEntryAt cluster offset (s.madeEntry env name first type)
  writeClusterToDisk cluster c

/-- The end of an insertion that has found no free slot. -/
def extendDirectory (env : Env) (name : List UInt8) (first : ℕ) (type : UInt16) (c : ℕ) :
    FatM ℤ := do
  let free ← hasFreeCluster
  if free then do
    let c ← addFreeCluster c
    let cluster ← getNewCluster
    storeEntry env name first type c cluster 0
  else return -1

/-- The insertion of a name that fits is a scan for a free slot. -/
theorem addDirEntryToCluster_scan (hfirst : s.superblock.IsData first)
    (hn : NameFits name) :
    (addDirEntryToCluster c name first type).run env s
      = (scanDir (fun _ _ => true) FatDirEntry.isFree (storeEntry env name first type)
        (extendDirectory env name first type) s.chainFuel c).run env s := by
  have hlen : ¬ (dirEntryMaxNameLen < name.length ∨ name.length = 0) := by
    unfold NameFits at hn
    omega
  rw [addDirEntryToCluster, Prog.bind_ok _ (Prog.run_read env s),
    Prog.bind_ok _ (Prog.run_get env s),
    Prog.bind_ok _ (check_run ⟨hfirst.1, hfirst.2⟩ env s), if_neg hlen]
  rfl

theorem storeEntry_run (hg : s.superblock.Geometry) (hc : s.superblock.IsData x.1)
    (hx : s.Inside x) (cluster : Buf) :
    (storeEntry env name first type x.1 cluster x.2).run env s
      = .ok (s.writeStatus env) (s.writeCluster env (cluster.blit x.2
        (s.madeEntry env name first type).bytes dirEntrySize) x.1) := by
  rw [storeEntry, Prog.bind_ok _ (Prog.run_get env s)]
  exact putEntryAt_write hg hc hx cluster _

theorem storeEntry_outside (hx : ¬ s.Inside x) (cluster : Buf) :
    (storeEntry env name first type c cluster x.2).run env s = .stop .outOfBounds s := by
  rw [storeEntry, Prog.bind_ok _ (Prog.run_get env s)]
  exact Prog.bind_stop _ (putEntryAt_outside hx _ _)

/-- An insertion with a free slot goes on from there. -/
theorem addDirEntryToCluster_found (type : UInt16) (hr : env.ReadsFull)
    (hg : s.superblock.Geometry) (h : s.Chain c l) (hfirst : s.superblock.IsData first)
    (hn : NameFits name) (hfind : s.findSlot env l FatDirEntry.isFree = some x) :
    ∃ k, (addDirEntryToCluster c name first type).run env s
      = (storeEntry env name first type x.1 (s.clusterBuf env x.1) x.2).run env
        { s with preads := k } := by
  have hxl := (Server.mem_slots.mp (Server.findSlot_some hfind).1).1
  rcases l.eq_nil_or_concat with rfl | ⟨l', d, rfl⟩
  · exact absurd hxl List.not_mem_nil
  · rw [List.concat_eq_append] at *
    obtain ⟨k, hk⟩ := scanDir_run (fun _ _ => true) FatDirEntry.isFree
      (storeEntry env name first type) (extendDirectory env name first type) hr hg h
      (fun _ _ => rfl) (Nat.le_of_lt (h.length_lt_fuel hg)) hfind
    exact ⟨k, (addDirEntryToCluster_scan hfirst hn).trans hk⟩

/-- **An insertion with a free slot** inside its cluster stores the entry there. -/
theorem addDirEntryToCluster_hit (type : UInt16) (hr : env.ReadsFull) (hg : s.superblock.Geometry)
    (h : s.Chain c l) (hfirst : s.superblock.IsData first) (hn : NameFits name)
    (hfind : s.findSlot env l FatDirEntry.isFree = some x) (hin : s.Inside x) :
    ∃ k, (addDirEntryToCluster c name first type).run env s
      = .ok (s.writeStatus env) (({ s with preads := k } : Server).store env x
        (s.madeEntry env name first type).bytes dirEntrySize) := by
  have hxl := (Server.mem_slots.mp (Server.findSlot_some hfind).1).1
  obtain ⟨k, hk⟩ := addDirEntryToCluster_found type hr hg h hfirst hn hfind
  exact ⟨k, hk.trans (storeEntry_run (s := { s with preads := k }) hg (h.data _ hxl) hin _)⟩

/-- **An insertion into a slot that sticks out of its cluster** stops the program. -/
theorem addDirEntryToCluster_outside (type : UInt16) (hr : env.ReadsFull)
    (hg : s.superblock.Geometry) (h : s.Chain c l) (hfirst : s.superblock.IsData first)
    (hn : NameFits name) (hfind : s.findSlot env l FatDirEntry.isFree = some x)
    (hin : ¬ s.Inside x) :
    ∃ k, (addDirEntryToCluster c name first type).run env s
      = .stop .outOfBounds { s with preads := k } := by
  obtain ⟨k, hk⟩ := addDirEntryToCluster_found type hr hg h hfirst hn hfind
  exact ⟨k, hk.trans (storeEntry_outside (s := { s with preads := k }) hin _)⟩

/-- An insertion without a free slot goes on from the last cluster. -/
theorem addDirEntryToCluster_miss (type : UInt16) (hr : env.ReadsFull) (hg : s.superblock.Geometry)
    (h : s.Chain c (l ++ [d])) (hfirst : s.superblock.IsData first) (hn : NameFits name)
    (hfind : s.findSlot env (l ++ [d]) FatDirEntry.isFree = none) :
    ∃ k, (addDirEntryToCluster c name first type).run env s
      = (extendDirectory env name first type d).run env { s with preads := k } := by
  obtain ⟨k, hk⟩ := scanDir_run (fun _ _ => true) FatDirEntry.isFree
    (storeEntry env name first type) (extendDirectory env name first type) hr hg h
    (fun _ _ => rfl) (Nat.le_of_lt (h.length_lt_fuel hg)) hfind
  exact ⟨k, (addDirEntryToCluster_scan hfirst hn).trans hk⟩

/-- A free cluster is found exactly when the free list is not empty, the root
directory being in use. -/
theorem hasFreeCluster_run (h : s.Owns p) (hroot : ∃ o ∈ p.owners,
      s.superblock.rootClusterStart ∈ o) :
    hasFreeCluster.run env s = .ok (decide (p.free ≠ [])) s := by
  have hval : decide (s.superblock.rootClusterStart < s.superblock.freeClusterStart)
      = decide (p.free ≠ []) := by
    rw [h.freeClusterStart_eq, h.geometry.root]
    obtain ⟨o, ho, hmem⟩ := hroot
    cases hf : p.free with
    | nil =>
      show decide (_ < endOfChain) = _
      unfold endOfChain
      simp
    | cons a r =>
      have ha : s.superblock.IsData a := h.free_data (by rw [hf]; simp)
      have hne : a ≠ 1 + s.superblock.clusterPerFat := by
        intro hne
        rw [h.geometry.root, ← hne] at hmem
        exact Pool.notMem_free h.nodup ho hmem (by rw [hf]; simp)
      have h1 := ha.1
      show decide (_ < a) = _
      rw [decide_eq_true (by omega), decide_eq_true (List.cons_ne_nil a r)]
  show Outcome.ok _ s = _
  rw [hval]

/-- **An insertion without a free slot or a free cluster** fails, and nothing
changes. -/
theorem addDirEntryToCluster_full (hr : env.ReadsFull) (h : s.Owns ⟨[], os⟩)
    (hroot : ∃ o ∈ os, s.superblock.rootClusterStart ∈ o) (ho : o ∈ os)
    (hfirst : s.superblock.IsData first) (hn : NameFits name)
    (hfind : s.findSlot env o FatDirEntry.isFree = none) :
    ∃ k, (addDirEntryToCluster (o.headD endOfChain) name first type).run env s
      = .ok (-1) { s with preads := k } := by
  have hc := h.chain ho
  rcases o.eq_nil_or_concat with rfl | ⟨l, d, rfl⟩
  · exact absurd rfl (h.owners _ ho).1
  · rw [List.concat_eq_append] at *
    obtain ⟨k, hk⟩ := addDirEntryToCluster_miss type hr h.geometry hc hfirst hn hfind
    refine ⟨k, hk.trans ?_⟩
    rw [extendDirectory, Prog.bind_ok _ (hasFreeCluster_run (h.preads k) hroot)]
    rfl

/-- **An insertion without a free slot** appends a cluster to the directory and
stores the entry in its first slot. -/
theorem addDirEntryToCluster_extend (type : UInt16) (hr : env.Reliable) {e : ℕ}
    (h : s.Owns ⟨d :: f, (o ++ [e]) ::ₘ os⟩)
    (hroot : ∃ o' ∈ (o ++ [e]) ::ₘ os, s.superblock.rootClusterStart ∈ o')
    (hfirst : s.superblock.IsData first) (hn : NameFits name)
    (hfind : s.findSlot env (o ++ [e]) FatDirEntry.isFree = none) :
    ∃ k, (addDirEntryToCluster ((o ++ [e]).headD endOfChain) name first type).run env s
      = .ok 0 ((({ s with preads := k } : Server).grown env [d] d e).store env (d, 0)
        ((({ s with preads := k } : Server).grown env [d] d e).madeEntry env name first
          type).bytes dirEntrySize) := by
  have hmem : o ++ [e] ∈ (o ++ [e]) ::ₘ os := Multiset.mem_cons_self _ _
  obtain ⟨k, hk⟩ := addDirEntryToCluster_miss type hr.reads h.geometry
    (h.chain hmem) hfirst hn hfind
  refine ⟨k, hk.trans ?_⟩
  set s₀ : Server := { s with preads := k } with hs₀
  have h₀ : s₀.Owns ⟨d :: f, (o ++ [e]) ::ₘ os⟩ := h.preads k
  have hspec : s₀.Grown (s₀.grown env [d] d e) (d :: f) (o ++ [e]) os 1 :=
    Server.Owns.grown_spec (l := []) hr.writes h₀
  have hgr : (s₀.grown env [d] d e).Owns ⟨f, ((o ++ [e]) ++ [d]) ::ₘ os⟩ :=
    Server.Owns.grown (l := []) h₀ env
  have hd : (s₀.grown env [d] d e).superblock.IsData d :=
    hgr.owner_data (Multiset.mem_cons_self _ _) (by simp)
  have hin : (s₀.grown env [d] d e).Inside (d, 0) := Server.inside_zero hgr.geometry d
  have hnew : getNewCluster.run env (s₀.grown env [d] d e)
      = .ok ((s₀.grown env [d] d e).newCluster env) (s₀.grown env [d] d e) := rfl
  -- the new cluster is zero, so the buffer holds what is on disk
  have hzero : (s₀.grown env [d] d e).newCluster env
      = (s₀.grown env [d] d e).clusterBuf env d := by
    funext i
    unfold Server.newCluster Server.clusterBuf
    split
    · next hi => exact (hspec.zero d (by simp) i hi).symm
    · rfl
  rw [extendDirectory, Prog.bind_ok _ (hasFreeCluster_run h₀ hroot)]
  dsimp only
  rw [if_pos (decide_eq_true (List.cons_ne_nil d f)),
    Prog.bind_ok _ (addFreeCluster_last_run h₀), Prog.bind_ok _ hnew,
    storeEntry_run (x := (d, 0)) hgr.geometry hd hin,
    Server.writeStatus_of_writesFull hr.writes, hzero]
  rfl

/-! ## A slot that has been filled -/

/-- **A slot of a directory has been filled**: `x` was free, or is in one of the
clusters `g` by which the directory has grown; the other slots hold what they
held, and are free if they are new. -/
structure Server.Filled (s t : Server) (env : Env) (o g : List ℕ) (x : ℕ × ℕ) : Prop where
  bytePerCluster : t.superblock.bytePerCluster = s.superblock.bytePerCluster
  slot : x ∈ s.slots (o ++ g)
  wasFree : x ∈ s.slots o → (s.slotEntry env x).isFree = true
  old : ∀ y ∈ s.slots o, y ≠ x → t.slotEntry env y = s.slotEntry env y
  free : ∀ y ∈ s.slots g, y ≠ x → (t.slotEntry env y).isFree = true

namespace Server.Filled

variable {g : List ℕ} {n : List UInt8}

/-- **Other names are found as before.** -/
theorem lookup_of_ne (h : s.Filled t env o g x) (hn : n ≠ [])
    (hne : n ≠ (t.slotEntry env x).nameStr) :
    t.lookup env (o ++ g) n = s.lookup env o n := by
  have hold : t.lookup env o n = s.lookup env o n := by
    refine lookup_congr h.bytePerCluster (fun y hy => ?_)
    by_cases hyx : y = x
    · subst hyx
      refine Or.inr ⟨fun hc => hne hc.symm, fun hc => hn ?_⟩
      rw [← hc, FatDirEntry.nameStr_of_isFree (h.wasFree hy)]
    · exact Or.inl (h.old y hy hyx)
  have hnew : t.lookup env g n = none := by
    refine lookup_eq_none.mpr (fun y hy hc => ?_)
    rw [slots_congr h.bytePerCluster] at hy
    by_cases hyx : y = x
    · exact hne (hyx ▸ hc.symm)
    · rw [FatDirEntry.nameStr_of_isFree (h.free y hy hyx)] at hc
      exact hn hc.symm
  rw [lookup_append, hold, hnew, Option.or_none]

/-- A name that was not there is in no slot but the one that was filled. -/
theorem eq_of_nameStr (h : s.Filled t env o g x) (hn : n ≠ [])
    (habs : s.lookup env o n = none) (hy : y ∈ s.slots (o ++ g))
    (hname : (t.slotEntry env y).nameStr = n) : y = x := by
  by_contra hyx
  rw [slots_append] at hy
  rcases List.mem_append.mp hy with hy | hy
  · rw [h.old y hy hyx] at hname
    exact lookup_eq_none.mp habs y hy hname
  · rw [FatDirEntry.nameStr_of_isFree (h.free y hy hyx)] at hname
    exact hn hname.symm

/-- **The new entry is found under its name**, if that was not there. -/
theorem lookup_self (h : s.Filled t env o g x) (hn : n ≠ [])
    (hx : (t.slotEntry env x).nameStr = n) (habs : s.lookup env o n = none) :
    t.lookup env (o ++ g) n = some (t.slotEntry env x) :=
  lookup_of_unique (by rw [slots_congr h.bytePerCluster]; exact h.slot) hx
    (fun _ hy hyn => h.eq_of_nameStr hn habs (slots_congr h.bytePerCluster ▸ hy) hyn)

end Server.Filled

/-! ## What an insertion does -/

/-- **What an insertion does** to the directory `o`: it has grown by the first
`k` free clusters, the slot `x` of it, which was free or is new and lies inside
its cluster, holds the entry, the other new slots are free, and nothing else has
changed. -/
structure Server.Inserted (s t : Server) (env : Env) (f o : List ℕ)
    (os : Multiset (List ℕ)) (x : ℕ × ℕ) (k : ℕ) (name : List UInt8) (first : ℕ)
    (type : UInt16) : Prop where
  owns : t.Owns ⟨f.drop k, (o ++ f.take k) ::ₘ os⟩
  superblock : ∃ v, t.superblock = (s.setFree v).superblock
  links : ∀ c, s.superblock.IsData c → c ∉ o → c ∉ f.take k → t.next c = s.next c
  clusters : ∀ c, s.superblock.IsData c → c ∉ f.take k →
    ∀ i < s.superblock.bytePerCluster,
      (c = x.1 → i < x.2 ∨ x.2 + dirEntrySize ≤ i) → t.cluster c i = s.cluster c i
  slot : x ∈ s.slots (o ++ f.take k)
  wasFree : x ∈ s.slots o → (s.slotEntry env x).isFree = true
  free : ∀ y ∈ s.slots (f.take k), y ≠ x → (t.slotEntry env y).isFree = true
  inside : s.Inside x
  entry : ∃ u : Server, u.pwrites.length + 1 = t.pwrites.length
    ∧ t.slotEntry env x = u.madeEntry env name first type

/-- An insertion into a free slot inside its cluster. -/
theorem addDirEntryToCluster_inserted_hit (type : UInt16) (hr : env.Reliable)
    (h : s.Owns ⟨f, o ::ₘ os⟩)
    (hfirst : s.superblock.IsData first) (hn : NameFits name)
    (hfind : s.findSlot env o FatDirEntry.isFree = some x) (hin : s.Inside x) :
    ∃ t, (addDirEntryToCluster (o.headD endOfChain) name first type).run env s = .ok 0 t
      ∧ s.Inserted t env f o os x 0 name first type := by
  have hx := Server.findSlot_some hfind
  obtain ⟨k, hk⟩ := addDirEntryToCluster_hit type hr.reads h.geometry
    (h.chain (Multiset.mem_cons_self _ _)) hfirst hn hfind hin
  rw [Server.writeStatus_of_writesFull hr.writes] at hk
  refine ⟨_, hk, ?_, ⟨s.superblock.freeClusterStart, rfl⟩, fun _ _ _ _ => rfl,
    fun c hc _ i hi hxc => ?_, ?_, fun _ => hx.2, fun y hy => ?_, hin, s, rfl,
    Server.slotEntry_store_self (s := { s with preads := k }) hr.writes hin⟩
  · rw [List.take_zero, List.append_nil, List.drop_zero]
    exact (h.preads k).writeCluster
  · by_cases hcx : c = x.1
    · subst hcx
      refine (Server.cluster_store (s := { s with preads := k }) hr.writes hi).trans ?_
      rcases hxc rfl with hlt | hge
      · exact Buf.blit_of_lt hlt
      · exact Buf.blit_of_le hge
    · exact Server.cluster_store_of_ne (s := { s with preads := k }) hcx hi
  · rw [List.take_zero, List.append_nil]
    exact hx.1
  · rw [List.take_zero] at hy
    cases hy

/-- An insertion into a new cluster. -/
theorem addDirEntryToCluster_inserted_extend (type : UInt16) (hr : env.Reliable)
    (h : s.Owns ⟨d :: f, o ::ₘ os⟩)
    (hroot : ∃ o' ∈ o ::ₘ os, s.superblock.rootClusterStart ∈ o')
    (hfirst : s.superblock.IsData first) (hn : NameFits name)
    (hfind : s.findSlot env o FatDirEntry.isFree = none) :
    ∃ t, (addDirEntryToCluster (o.headD endOfChain) name first type).run env s = .ok 0 t
      ∧ s.Inserted t env (d :: f) o os (d, 0) 1 name first type := by
  have hb := h.geometry.page_pos
  have hdfree : s.superblock.IsData d := h.free_data (List.mem_cons_self)
  rcases o.eq_nil_or_concat with rfl | ⟨o', e, rfl⟩
  · exact absurd rfl (h.owners _ (Multiset.mem_cons_self _ _)).1
  · rw [List.concat_eq_append] at *
    obtain ⟨k, hk⟩ := addDirEntryToCluster_extend type hr h hroot hfirst hn hfind
    set s₀ : Server := { s with preads := k } with hs₀
    set u := s₀.grown env [d] d e with hu
    have hspec : s₀.Grown u (d :: f) (o' ++ [e]) os 1 :=
      Server.Owns.grown_spec (l := []) hr.writes (h.preads k)
    have hsb : u.superblock.bytePerCluster = s.superblock.bytePerCluster :=
      hspec.bytePerCluster
    have hdo : d ∉ o' ++ [e] := fun hdo =>
      Pool.notMem_free h.nodup (Multiset.mem_cons_self _ _) hdo List.mem_cons_self
    refine ⟨_, hk, hspec.owns.writeCluster, hspec.superblock, fun c hc hco hct => hspec.links c hc hco hct,
      fun c hc hct i hi _ => ?_, ?_, fun hx => ?_, fun y hy hne => ?_,
      Server.inside_zero h.geometry d, u, rfl, ?_⟩
    · have hcd : c ≠ d := fun hcd => hct (by simp [hcd])
      exact (Server.cluster_store_of_ne (x := (d, 0)) hcd (by rw [hsb]; exact hi)).trans
        (hspec.clusters c hc hct i hi)
    · refine Server.mem_slots.mpr ⟨by simp, mem_dirSlots.mpr ⟨Nat.dvd_zero _, hb⟩⟩
    · exact absurd (Server.mem_slots.mp hx).1 hdo
    · -- the rest of the new cluster is zero
      obtain ⟨hyd, hys⟩ := Server.mem_slots.mp hy
      have hyd' : y.1 = d := by simpa using hyd
      obtain ⟨hdvd, hlt⟩ := mem_dirSlots.mp hys
      rw [← hsb] at hlt
      refine (congrArg _ (Server.slotEntry_store_of_ne (s := u) hr.writes
        (Nat.dvd_zero _) hdvd hne (Nat.le_refl _))).trans ?_
      rw [Server.isFree_slotEntry hlt]
      exact hspec.zero _ (by simp [hyd']) _ (by rw [← hsb]; exact hlt)
    · exact Server.slotEntry_store_self hr.writes
        (Server.inside_zero hspec.owns.geometry d)

/-- **An insertion for which there is room** succeeds: in the first free slot,
which has to lie inside its cluster, or in a new cluster when there is none. -/
theorem addDirEntryToCluster_inserted (type : UInt16) (hr : env.Reliable) (h : s.Owns ⟨f, o ::ₘ os⟩)
    (hroot : ∃ o' ∈ o ::ₘ os, s.superblock.rootClusterStart ∈ o')
    (hfirst : s.superblock.IsData first) (hn : NameFits name)
    (hin : ∀ x, s.findSlot env o FatDirEntry.isFree = some x → s.Inside x)
    (hroom : s.findSlot env o FatDirEntry.isFree = none → f ≠ []) :
    ∃ t x k, (addDirEntryToCluster (o.headD endOfChain) name first type).run env s = .ok 0 t
      ∧ s.Inserted t env f o os x k name first type
      ∧ (s.findSlot env o FatDirEntry.isFree = some x ∧ k = 0
        ∨ s.findSlot env o FatDirEntry.isFree = none ∧ x.2 = 0) := by
  cases hfind : s.findSlot env o FatDirEntry.isFree with
  | some x =>
    obtain ⟨t, hrun, ht⟩ :=
      addDirEntryToCluster_inserted_hit type hr h hfirst hn hfind (hin x hfind)
    exact ⟨t, x, 0, hrun, ht, Or.inl ⟨rfl, rfl⟩⟩
  | none =>
    obtain ⟨d, f', rfl⟩ := List.exists_cons_of_ne_nil (hroom hfind)
    obtain ⟨t, hrun, ht⟩ :=
      addDirEntryToCluster_inserted_extend type hr h hroot hfirst hn hfind
    exact ⟨t, (d, 0), 1, hrun, ht, Or.inr ⟨rfl, rfl⟩⟩

namespace Server.Inserted

/-- The cluster size is what it was. -/
theorem bytePerCluster (hi : s.Inserted t env f o os x k name first type) :
    t.superblock.bytePerCluster = s.superblock.bytePerCluster :=
  Server.bytePerCluster_of_setFree hi.superblock

/-- The clusters of the directory were its own. -/
theorem mem_old (_ : s.Inserted t env f o os x k name first type)
    (h : s.Owns ⟨f, o ::ₘ os⟩) {c : ℕ} {o' : List ℕ} (ho : o' ∈ o ::ₘ os) (hc : c ∈ o') :
    s.superblock.IsData c ∧ c ∉ f.take k :=
  ⟨h.owner_data ho hc, fun hf => Pool.notMem_free h.nodup ho hc (List.mem_of_mem_take hf)⟩

/-- The other slots of the directory hold what they held. -/
theorem slotEntry_of_ne (hi : s.Inserted t env f o os x k name first type)
    (h : s.Owns ⟨f, o ::ₘ os⟩) (hy : y ∈ s.slots o) (hne : y ≠ x) :
    t.slotEntry env y = s.slotEntry env y := by
  obtain ⟨hdata, hfree⟩ := hi.mem_old h (Multiset.mem_cons_self _ _) (mem_slots.mp hy).1
  have hy' : y ∈ s.slots (o ++ f.take k) := by
    rw [slots_append]
    exact List.mem_append_left _ hy
  exact slotEntry_congr hi.bytePerCluster (fun i hle hlt hb =>
    hi.clusters y.1 hdata hfree i hb (slots_disjoint hi.slot hy' hne hle hlt))

/-- An insertion fills a slot. -/
theorem filled (hi : s.Inserted t env f o os x k name first type)
    (h : s.Owns ⟨f, o ::ₘ os⟩) : s.Filled t env o (f.take k) x :=
  ⟨hi.bytePerCluster, hi.slot, hi.wasFree, fun _ hy hne => hi.slotEntry_of_ne h hy hne,
    hi.free⟩

/-- The slots of the other directories hold what they held. -/
theorem slotEntry_other (hi : s.Inserted t env f o os x k name first type)
    (h : s.Owns ⟨f, o ::ₘ os⟩) {l : List ℕ} (hl : l ∈ os) (hy : y ∈ s.slots l) :
    t.slotEntry env y = s.slotEntry env y := by
  have hyl := (mem_slots.mp hy).1
  obtain ⟨hdata, hfree⟩ := hi.mem_old h (Multiset.mem_cons_of_mem hl) hyl
  refine slotEntry_congr hi.bytePerCluster (fun i _ _ hb =>
    hi.clusters y.1 hdata hfree i hb (fun hyx => ?_))
  -- the slot of the insertion is in another chain
  have hx := (mem_slots.mp hi.slot).1
  rw [← hyx] at hx
  rcases List.mem_append.mp hx with hxo | hxf
  · exact absurd hyl (Pool.notMem_other h.nodup hxo l hl)
  · exact absurd hxf hfree

end Server.Inserted

end Fat
