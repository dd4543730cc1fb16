import LLPFilesystem.FatInsert
import LLPFilesystem.FatTree
import LLPFilesystem.FatOps

/-!
# Creating

Creating takes a cluster from the free list, inserts an entry for it into the
parent directory, and, for a subdirectory, puts the entries `"."` and `".."`
into the new cluster. The result of the insertion is not looked at: what
`fat_mknod`, `fat_mkdir` and `fat_create` return does not depend on whether an
entry was made. So creation is reported truthfully exactly where the insertion
cannot fail (`createEntry_made`, `createEntry_failed`), and where the first free
slot sticks out of its cluster it does not return (`createEntry_outside`).
-/

namespace Fat

variable {env : Env} {s t u : Server} {c d first k n b : ℕ} {f l pl : List ℕ}
  {os dirs : Multiset (List ℕ)} {x y : ℕ × ℕ} {name : List UInt8} {type : UInt16}
  {e : FatDirEntry} {toks : List (List UInt8)}

/-! ## An entry and its time -/

/-- The bytes of an entry that was read are those it was read from. -/
theorem FatDirEntry.bytes_ofBytes {m : Buf} {i : ℕ} (hi : i < dirEntrySize) :
    (FatDirEntry.ofBytes m).bytes i = m i := by
  have hlt : ∀ off w, leNat m off w < 256 ^ w := leNat_lt m
  unfold dirEntrySize at hi
  unfold bytes ofBytes
  dsimp only
  split
  · rfl
  · next h22 =>
    split
    · next h24 =>
      have hval : (UInt16.ofNat (leNat m 22 2)).toNat = leNat m 22 2 :=
        Nat.mod_eq_of_lt (hlt 22 2)
      rw [hval, leByte_leNat (by omega), Nat.add_sub_cancel' (by omega)]
    · next h24 =>
      split
      · next h28 =>
        have hval : (UInt32.ofNat (leNat m 24 4)).toNat = leNat m 24 4 :=
          Nat.mod_eq_of_lt (hlt 24 4)
        rw [hval, leByte_leNat (by omega), Nat.add_sub_cancel' (by omega)]
      · next h28 =>
        split
        · next h32 =>
          have hval : (UInt32.ofNat (leNat m 28 4)).toNat = leNat m 28 4 :=
            Nat.mod_eq_of_lt (hlt 28 4)
          rw [hval, leByte_leNat (by omega), Nat.add_sub_cancel' (by omega)]
        · next h32 =>
          have hval : (UInt64.ofNat (leNat m 32 8)).toNat = leNat m 32 8 :=
            Nat.mod_eq_of_lt (hlt 32 8)
          rw [hval, leByte_leNat (by omega), Nat.add_sub_cancel' (by omega)]

/-- An entry with another time. -/
def FatDirEntry.withTime (e : FatDirEntry) (time : UInt64) : FatDirEntry :=
  { e with time := time }

theorem Server.madeEntry_eq :
    s.madeEntry env name first type
      = (freshEntry name first type).withTime (UInt64.ofNat (env.time s.pwrites.length)) := rfl

/-- **What a new entry holds**, whenever it was made. -/
theorem freshEntry_withTime (hn : NameFits name) (h0 : 0 ∉ name) (time : UInt64) :
    ((freshEntry name first type).withTime time).nameStr = name :=
  FatDirEntry.nameStr_nameField hn.1 h0 rfl

/-! ## The parts of a creation -/

/-- **Taking one cluster.** -/
theorem popFreeClusters_one (hw : env.WritesFull) (h : s.Owns ⟨d :: f, os⟩) :
    ∃ u, (popFreeClusters 1).run env s = .ok d u ∧ s.Grown u (d :: f) [] os 1 := by
  have h' : s.Owns ⟨([] ++ [d]) ++ f, os⟩ := h
  have hd : s.superblock.IsData d := h.free_data List.mem_cons_self
  have hrun : (popFreeClusters 1).run env s = .ok s.superblock.freeClusterStart
      (s.popped env ([] ++ [d]) d (s.next d)) := popFreeClusters_run h'.geometry h'.freeChain
  rw [h.freeClusterStart_eq] at hrun
  refine ⟨_, hrun, h'.popped env, ⟨_, Server.superblock_popped⟩, fun c hc _ hcd => ?_,
    fun c hc hcd i hi => ?_, fun c hc i hi => Server.cluster_popped hw hc hi⟩
  · exact Server.next_popped_of_ne hd hc (fun hcd' => hcd (by simp [hcd']))
  · exact Server.cluster_popped_of_notMem h.geometry hd hc hcd hi

/-- An entry of the name `name` for the directory from cluster `first` on. -/
structure FatDirEntry.Links (e : FatDirEntry) (name : List UInt8) (first : ℕ) : Prop where
  nameStr_eq : e.nameStr = name
  type_eq : e.type = dirEntryTypeSubdir
  first_eq : e.firstCluster.toNat = first

/-- **The cluster `d` holds exactly `"."` and `".."`**, which point to itself and
to the parent directory. -/
structure Server.HoldsDots (s : Server) (env : Env) (d parent : ℕ) : Prop where
  dot : (s.slotEntry env (d, 0)).Links dotName d
  dotdot : (s.slotEntry env (d, dirEntrySize)).Links dotdotName parent
  free : ∀ y ∈ s.slots [d], y ≠ (d, 0) → y ≠ (d, dirEntrySize) →
    (s.slotEntry env y).isFree = true

/-- The entry that is made for a directory links to it. -/
theorem links_madeEntry (hn : NameFits name) (h0 : 0 ∉ name) (hfirst : first < 2 ^ 32) :
    (s.madeEntry env name first dirEntryTypeSubdir).Links name first :=
  ⟨FatDirEntry.nameStr_nameField hn.1 h0 rfl, rfl, Nat.mod_eq_of_lt hfirst⟩

/-- **Making a directory** puts `"."` and `".."` into its cluster. -/
theorem dots_run (hr : env.Reliable) (h : s.Owns ⟨f, [d] ::ₘ os⟩)
    (hzero : ∀ i < s.superblock.bytePerCluster, s.cluster d i = 0)
    (hparent : s.superblock.IsData c) :
    ∃ u t, (addDirEntryToCluster d dotName d dirEntryTypeSubdir).run env s = .ok 0 u
      ∧ (addDirEntryToCluster d dotdotName c dirEntryTypeSubdir).run env u = .ok 0 t
      ∧ t.Owns ⟨f, [d] ::ₘ os⟩ ∧ (∃ v, t.superblock = (s.setFree v).superblock)
      ∧ t.HoldsDots env d c
      ∧ ∀ l ∈ os, ∀ y ∈ s.slots l, t.slotEntry env y = s.slotEntry env y := by
  have hb := h.geometry.page
  have hd : s.superblock.IsData d := h.owner_data (Multiset.mem_cons_self _ _) (by simp)
  have hdots : NameFits dotName ∧ NameFits dotdotName := ⟨by decide, by decide⟩
  obtain ⟨rest, hslots⟩ := Server.slots_two h.geometry d
  have hfree : ∀ y ∈ s.slots [d], (s.slotEntry env y).isFree = true := fun y hy =>
    Server.isFree_of_zero hzero hy
  have hfst : (d, 0) ∈ s.slots [d] := by
    rw [hslots]
    exact List.mem_cons_self
  have hsnd : (d, dirEntrySize) ∈ s.slots [d] := by
    rw [hslots]
    exact List.mem_cons_of_mem _ List.mem_cons_self
  have hne : ((d, dirEntrySize) : ℕ × ℕ) ≠ (d, 0) := fun heq =>
    absurd (Prod.ext_iff.mp heq).2 (show ¬ dirEntrySize = 0 by decide)
  -- the first slot takes `"."`
  have hfind₁ : s.findSlot env [d] FatDirEntry.isFree = some (d, 0) :=
    Server.findSlot_of_zero h.geometry hzero
  obtain ⟨t₁, hrun₁, hi₁⟩ := addDirEntryToCluster_inserted_hit dirEntryTypeSubdir hr h hd
    hdots.1 hfind₁ (Server.inside_zero h.geometry d)
  have howns₁ := hi₁.owns
  rw [List.take_zero, List.append_nil, List.drop_zero] at howns₁
  obtain ⟨v₁, hv₁⟩ := hi₁.superblock
  have hsl : ∀ l, t₁.slots l = s.slots l := fun l => Server.slots_congr hi₁.bytePerCluster
  obtain ⟨u₁, -, hentry₁⟩ := hi₁.entry
  have hdot₁ : (t₁.slotEntry env (d, 0)).Links dotName d := by
    rw [hentry₁]
    refine links_madeEntry hdots.1 (by decide) ?_
    have hlt := h.geometry.clusterCount_lt
    have h2 := hd.2
    omega
  -- the second slot takes `".."`
  have hfind₂ : t₁.findSlot env [d] FatDirEntry.isFree = some (d, dirEntrySize) := by
    have hlive : ¬ (t₁.slotEntry env (d, 0)).isFree = true := fun hf => by
      rw [FatDirEntry.isFree_iff, hdot₁.nameStr_eq] at hf
      cases hf
    rw [Server.findSlot, hsl, hslots,
      List.find?_cons_of_neg (p := fun x => (t₁.slotEntry env x).isFree) hlive,
      List.find?_cons_of_pos (p := fun x => (t₁.slotEntry env x).isFree)]
    rw [hi₁.slotEntry_of_ne h hsnd hne]
    exact hfree _ hsnd
  obtain ⟨t₂, hrun₂, hi₂⟩ := addDirEntryToCluster_inserted_hit dirEntryTypeSubdir hr howns₁
    ((Server.isData_of_setFree hi₁.superblock).mpr hparent) hdots.2 hfind₂ (by
      show dirEntrySize + dirEntrySize ≤ t₁.superblock.bytePerCluster
      rw [hi₁.bytePerCluster]
      exact Nat.le_trans (by decide) hb)
  have howns₂ := hi₂.owns
  rw [List.take_zero, List.append_nil, List.drop_zero] at howns₂
  obtain ⟨v₂, hv₂⟩ := hi₂.superblock
  refine ⟨t₁, t₂, hrun₁, hrun₂, howns₂, ⟨v₂, ?_⟩, ⟨?_, ?_, fun y hy hy₁ hy₂ => ?_⟩,
    fun l hl y hy => ?_⟩
  · rw [hv₂, Server.setFree, hv₁]
    rfl
  · rw [hi₂.slotEntry_of_ne howns₁ (by rw [hsl]; exact hfst) hne.symm]
    exact hdot₁
  · obtain ⟨u₂, -, hentry₂⟩ := hi₂.entry
    rw [hentry₂]
    refine links_madeEntry hdots.2 (by decide) ?_
    have hlt := h.geometry.clusterCount_lt
    have h2 := hparent.2
    omega
  · have hys : y ∈ s.slots [d] := by
      rw [← Server.slots_congr (s := s) (t := t₂)]
      · exact hy
      · rw [hi₂.bytePerCluster, hi₁.bytePerCluster]
    rw [hi₂.slotEntry_of_ne howns₁ (by rw [hsl]; exact hys) hy₂,
      hi₁.slotEntry_of_ne h hys hy₁]
    exact hfree y hys
  · rw [hi₂.slotEntry_other howns₁ hl (by rw [hsl]; exact hy), hi₁.slotEntry_other h hl hy]

/-- The part of a creation that makes a directory. -/
theorem addDots_run (hr : env.Reliable) (h : s.Owns ⟨f, [d] ::ₘ os⟩)
    (hzero : ∀ i < s.superblock.bytePerCluster, s.cluster d i = 0)
    (hparent : s.superblock.IsData c) :
    ∃ t, (do
        let _ ← addDirEntryToCluster d dotName d dirEntryTypeSubdir
        let _ ← addDirEntryToCluster d dotdotName c dirEntryTypeSubdir
        return (0 : ℤ) : FatM ℤ).run env s = .ok 0 t
      ∧ t.Owns ⟨f, [d] ::ₘ os⟩ ∧ (∃ v, t.superblock = (s.setFree v).superblock)
      ∧ t.HoldsDots env d c
      ∧ ∀ l ∈ os, ∀ y ∈ s.slots l, t.slotEntry env y = s.slotEntry env y := by
  obtain ⟨u, t, hrun, hrun', hrest⟩ := dots_run hr h hzero hparent
  refine ⟨t, ?_, hrest⟩
  rw [Prog.bind_ok _ hrun, Prog.bind_ok _ hrun']
  rfl

/-- The end of a creation, for which the insertion into the parent directory
makes no difference. -/
theorem finishEntry_run (hr : env.Reliable) (h : s.Owns ⟨f, [d] ::ₘ os⟩)
    (hzero : ∀ i < s.superblock.bytePerCluster, s.cluster d i = 0)
    (hparent : s.superblock.IsData c) (type : UInt16) :
    ∃ t, (if type = dirEntryTypeSubdir then do
        let _ ← addDirEntryToCluster d dotName d type
        let _ ← addDirEntryToCluster d dotdotName c type
        return 0
      else return 0 : FatM ℤ).run env s = .ok 0 t
      ∧ t.Owns ⟨f, [d] ::ₘ os⟩ ∧ (∃ v, t.superblock = (s.setFree v).superblock)
      ∧ (type = dirEntryTypeSubdir → t.HoldsDots env d c)
      ∧ (type ≠ dirEntryTypeSubdir → t = s)
      ∧ ∀ l ∈ os, ∀ y ∈ s.slots l, t.slotEntry env y = s.slotEntry env y := by
  by_cases htype : type = dirEntryTypeSubdir
  · subst htype
    obtain ⟨t, hrun, howns, hsb, hdots, hslots⟩ := addDots_run hr h hzero hparent
    exact ⟨t, by rw [if_pos rfl]; exact hrun, howns, hsb, fun _ => hdots,
      fun hne => absurd rfl hne, hslots⟩
  · exact ⟨s, by rw [if_neg htype]; rfl, h, ⟨s.superblock.freeClusterStart, rfl⟩,
      fun heq => absurd heq htype, fun _ => rfl, fun _ _ _ _ => rfl⟩

/-! ## Creating an entry -/

/-- **What a creation does that makes an entry** in the slot `x` of the parent
directory `pl`, which lies inside its cluster; `pl` has grown by the first `k`
free clusters, the cluster `d` has a new owner, and nothing else has changed. -/
structure Server.Made (s t : Server) (env : Env) (f pl : List ℕ) (os : Multiset (List ℕ))
    (d : ℕ) (x : ℕ × ℕ) (k : ℕ) (name : List UInt8) (type : UInt16) : Prop where
  owns : t.Owns ⟨f.drop k, [d] ::ₘ (pl ++ f.take k) ::ₘ os⟩
  superblock : ∃ v, t.superblock = (s.setFree v).superblock
  filled : s.Filled t env pl (f.take k) x
  inside : s.Inside x
  entry : ∃ time, t.slotEntry env x = (freshEntry name d type).withTime time
  others : ∀ l ∈ os, ∀ y ∈ s.slots l, t.slotEntry env y = s.slotEntry env y
  dots : type = dirEntryTypeSubdir → t.HoldsDots env d (pl.headD endOfChain)
  zero : type ≠ dirEntryTypeSubdir → ∀ i < s.superblock.bytePerCluster, t.cluster d i = 0

/-- The new entry has the name, type, size and first cluster it was made with. -/
theorem Server.Made.slotEntry (hm : s.Made t env f pl os d x k name type) (hn : NameFits name)
    (h0 : 0 ∉ name) :
    (t.slotEntry env x).nameStr = name ∧ (t.slotEntry env x).type = type
    ∧ (t.slotEntry env x).size = 0
    ∧ (t.slotEntry env x).firstCluster = UInt32.ofNat d := by
  obtain ⟨time, hentry⟩ := hm.entry
  rw [hentry]
  exact ⟨freshEntry_withTime hn h0 time, rfl, rfl, rfl⟩

/-- **A creation for which there is room**, inside the cluster of its slot. -/
theorem createEntry_made (hr : env.Reliable) (h : s.Owns ⟨d :: f, pl ::ₘ os⟩)
    (hroot : ∃ o ∈ pl ::ₘ os, s.superblock.rootClusterStart ∈ o) (hn : NameFits name)
    (hin : ∀ x, s.findSlot env pl FatDirEntry.isFree = some x → s.Inside x)
    (hroom : s.findSlot env pl FatDirEntry.isFree = none → f ≠ []) (type : UInt16) :
    ∃ t x k, (createEntry (pl.headD endOfChain) name type).run env s = .ok 0 t
      ∧ s.Made t env f pl os d x k name type
      ∧ (s.findSlot env pl FatDirEntry.isFree = some x ∧ k = 0
        ∨ s.findSlot env pl FatDirEntry.isFree = none ∧ x.2 = 0) := by
  have hpl : pl ∈ pl ::ₘ os := Multiset.mem_cons_self _ _
  have hd : s.superblock.IsData d := h.free_data List.mem_cons_self
  -- a cluster is taken
  obtain ⟨u, hpop, hgr⟩ := popFreeClusters_one hr.writes h
  have howns : u.Owns ⟨f, pl ::ₘ [d] ::ₘ os⟩ := by
    rw [Multiset.cons_swap]
    exact hgr.owns
  obtain ⟨v, hv⟩ := hgr.superblock
  have hb := hgr.bytePerCluster
  have hdata : ∀ c, u.superblock.IsData c ↔ s.superblock.IsData c := fun _ =>
    Server.isData_of_setFree hgr.superblock
  have hslots : ∀ l ∈ pl ::ₘ os, ∀ y ∈ s.slots l, u.slotEntry env y = s.slotEntry env y :=
    fun l hl y hy => hgr.slotEntry_owner h hl (Server.mem_slots.mp hy).1
  have hfind : u.findSlot env pl FatDirEntry.isFree = s.findSlot env pl FatDirEntry.isFree :=
    hgr.findSlot_owner h hpl FatDirEntry.isFree
  -- the entry goes into the parent directory
  obtain ⟨w, x, k, hadd, hi, hx⟩ := addDirEntryToCluster_inserted type hr howns (by
      obtain ⟨o, ho, hmem⟩ := hroot
      refine ⟨o, ?_, by rw [hv]; exact hmem⟩
      rw [Multiset.cons_swap]
      exact Multiset.mem_cons_of_mem ho) ((hdata d).mpr hd) hn (fun x hx => by
        rw [Server.Inside, hb]
        exact hin x (hfind ▸ hx)) (by rw [hfind]; exact hroom)
  rw [hfind] at hx
  have howns₂ : w.Owns ⟨f.drop k, [d] ::ₘ (pl ++ f.take k) ::ₘ os⟩ := by
    rw [Multiset.cons_swap]
    exact hi.owns
  obtain ⟨v₂, hv₂⟩ := hi.superblock
  have hb₂ : w.superblock.bytePerCluster = s.superblock.bytePerCluster :=
    hi.bytePerCluster.trans hb
  have hdf : d ∉ f.take k := fun hf => (List.nodup_cons.mp h.freeChain.nodup).1
    (List.mem_of_mem_take hf)
  have hxd : d ≠ x.1 := fun hdx => by
    have hxl := (Server.mem_slots.mp hi.slot).1
    rw [← hdx] at hxl
    rcases List.mem_append.mp hxl with hxl | hxl
    · exact Pool.notMem_free h.nodup hpl hxl List.mem_cons_self
    · exact hdf hxl
  have hzero : ∀ i < s.superblock.bytePerCluster, w.cluster d i = 0 := fun i hib =>
    (hi.clusters d ((hdata d).mpr hd) hdf i (by rw [hb]; exact hib)
      (fun hdx => absurd hdx hxd)).trans (hgr.zero d (by simp) i hib)
  have hfill := hi.filled howns
  -- `"."` and `".."` go into the new cluster
  obtain ⟨t, hfin, howns₃, ⟨v₃, hv₃⟩, hdots, hsame, hother⟩ := finishEntry_run hr howns₂
    (by rw [hb₂]; exact hzero) (c := pl.headD endOfChain) (by
      rw [hv₂, Server.isData_setFree, hdata]
      obtain ⟨a, pl', rfl⟩ := List.exists_cons_of_ne_nil (h.owners pl hpl).1
      exact h.owner_data hpl List.mem_cons_self) type
  have hb₃ := Server.bytePerCluster_of_setFree ⟨v₃, hv₃⟩
  have hgrown : ∀ y ∈ s.slots (pl ++ f.take k), t.slotEntry env y = w.slotEntry env y :=
    fun y hy => hother _ (Multiset.mem_cons_self _ _) y (by rw [Server.slots_congr hb₂]; exact hy)
  obtain ⟨u', -, hentry⟩ := hi.entry
  refine ⟨t, x, k, ?_, ⟨howns₃, ⟨v₃, ?_⟩, ⟨hb₃.trans hb₂, ?_, fun hxs => ?_,
    fun y hy hne => ?_, fun y hy hne => ?_⟩, ?_,
    ⟨UInt64.ofNat (env.time u'.pwrites.length), ?_⟩, fun l hl y hy => ?_, hdots,
    fun hne => by rw [hsame hne]; exact hzero⟩, hx⟩
  · rw [createEntry, Prog.bind_ok _ hpop, Prog.bind_ok _ hadd]
    exact hfin
  · rw [hv₃, Server.setFree, hv₂, Server.setFree, hv]
    rfl
  · rw [← Server.slots_congr hb]
    exact hi.slot
  · rw [← hslots pl hpl x hxs]
    exact hfill.wasFree (by rw [Server.slots_congr hb]; exact hxs)
  · rw [hgrown y (by rw [Server.slots_append]; exact List.mem_append_left _ hy),
      hfill.old y (by rw [Server.slots_congr hb]; exact hy) hne, hslots pl hpl y hy]
  · rw [hgrown y (by rw [Server.slots_append]; exact List.mem_append_right _ hy)]
    exact hfill.free y (by rw [Server.slots_congr hb]; exact hy) hne
  · have hxin := hi.inside
    rw [Server.Inside, hb] at hxin
    exact hxin
  · rw [hgrown x (by rw [← Server.slots_congr hb]; exact hi.slot), hentry,
      Server.madeEntry_eq]
  · rw [hother l (Multiset.mem_cons_of_mem hl) y (by rw [Server.slots_congr hb₂]; exact hy),
      hi.slotEntry_other howns (Multiset.mem_cons_of_mem hl)
        (by rw [Server.slots_congr hb]; exact hy), hslots l (Multiset.mem_cons_of_mem hl) y hy]

/-- **A creation in a slot that sticks out of its cluster** stops the program. -/
theorem createEntry_outside (hr : env.Reliable) (h : s.Owns ⟨d :: f, pl ::ₘ os⟩)
    (hn : NameFits name) (hfind : s.findSlot env pl FatDirEntry.isFree = some x)
    (hin : ¬ s.Inside x) (type : UInt16) :
    ∃ t, (createEntry (pl.headD endOfChain) name type).run env s = .stop .outOfBounds t := by
  have hpl : pl ∈ pl ::ₘ os := Multiset.mem_cons_self _ _
  obtain ⟨u, hpop, hgr⟩ := popFreeClusters_one hr.writes h
  have hb := hgr.bytePerCluster
  have hfind' : u.findSlot env pl FatDirEntry.isFree = some x :=
    (hgr.findSlot_owner h hpl FatDirEntry.isFree).trans hfind
  have hd : u.superblock.IsData d :=
    (Server.isData_of_setFree hgr.superblock).mpr (h.free_data List.mem_cons_self)
  obtain ⟨k, hadd⟩ := addDirEntryToCluster_outside type hr.reads hgr.owns.geometry
    (hgr.owns.chain (Multiset.mem_cons_of_mem hpl)) hd hn hfind'
    (by rw [Server.Inside, hb]; exact hin)
  refine ⟨{ u with preads := k }, ?_⟩
  rw [createEntry, Prog.bind_ok _ hpop]
  exact Prog.bind_stop _ hadd

/-- **A creation whose insertion fails** is not reported: the cluster that was
taken has an owner that no entry names. -/
theorem createEntry_failed (hr : env.Reliable) (h : s.Owns ⟨d :: f, pl ::ₘ os⟩)
    (hroot : ∃ o ∈ pl ::ₘ os, s.superblock.rootClusterStart ∈ o)
    (hfail : NameFits name → s.findSlot env pl FatDirEntry.isFree = none ∧ f = [])
    (type : UInt16) :
    ∃ t, (createEntry (pl.headD endOfChain) name type).run env s = .ok 0 t
      ∧ t.Owns ⟨f, [d] ::ₘ pl ::ₘ os⟩
      ∧ (∃ v, t.superblock = (s.setFree v).superblock)
      ∧ ∀ l ∈ pl ::ₘ os, ∀ y ∈ s.slots l, t.slotEntry env y = s.slotEntry env y := by
  have hpl : pl ∈ pl ::ₘ os := Multiset.mem_cons_self _ _
  have hd : s.superblock.IsData d := h.free_data List.mem_cons_self
  obtain ⟨u, hpop, hgr⟩ := popFreeClusters_one hr.writes h
  obtain ⟨v, hv⟩ := hgr.superblock
  have hb := hgr.bytePerCluster
  have hdata : ∀ c, u.superblock.IsData c ↔ s.superblock.IsData c := fun _ =>
    Server.isData_of_setFree hgr.superblock
  -- the insertion changes nothing
  obtain ⟨k, hadd⟩ : ∃ k, (addDirEntryToCluster (pl.headD endOfChain) name d type).run env u
      = .ok (-1) { u with preads := k } := by
    by_cases hn : NameFits name
    · obtain ⟨hfind, rfl⟩ := hfail hn
      refine addDirEntryToCluster_full hr.reads hgr.owns ?_ (Multiset.mem_cons_of_mem hpl)
        ((hdata d).mpr hd) hn ?_
      · obtain ⟨o, ho, hmem⟩ := hroot
        exact ⟨o, Multiset.mem_cons_of_mem ho, by rw [hv]; exact hmem⟩
      · rw [hgr.findSlot_owner h hpl]
        exact hfind
    · exact ⟨u.preads, addDirEntryToCluster_long ((hdata d).mpr hd) hn⟩
  set w : Server := { u with preads := k } with hw
  obtain ⟨t, hfin, howns, ⟨v₃, hv₃⟩, -, -, hother⟩ := finishEntry_run hr
    (s := w) (hgr.owns.preads k) (fun i hi => hgr.zero d (by simp) i (by rw [← hb]; exact hi))
    (c := pl.headD endOfChain) (by
      show u.superblock.IsData _
      rw [hdata]
      obtain ⟨a, pl', rfl⟩ := List.exists_cons_of_ne_nil (h.owners pl hpl).1
      exact h.owner_data hpl List.mem_cons_self) type
  refine ⟨t, ?_, howns, ?_, fun l hl y hy => ?_⟩
  · rw [createEntry, Prog.bind_ok _ hpop, Prog.bind_ok _ hadd]
    exact hfin
  · refine ⟨v₃, hv₃.trans ?_⟩
    show { u.superblock with freeClusterStart := v₃ } = _
    rw [hv]
    rfl
  · rw [hother l hl y (by rw [Server.slots_congr (s := s) (t := w) hb]; exact hy)]
    exact Server.Grown.slotEntry_owner (t := u) h hgr hl (Server.mem_slots.mp hy).1

end Fat
