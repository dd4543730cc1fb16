import LLPFilesystem.FatRemount
import LLPFilesystem.FatRefinement
import Mathlib.Data.List.TakeWhile

/-!
# The tree outlives the server

What a server keeps in memory is on the disk between two calls: every call of a run leaves the
superblock and the table on the disk as they are in memory (`Server.HoldsTree.synced`). So a
server that mounts the disk anew holds the same tree (`Server.Holds.mounted`), and a service,
in which servers come and go, is a run of its calls on one tree (`services_refine_tree`).

A new server is a new process. It has a heap of its own, and the entry in the last slot of a
cluster, which does not fit there, continues in the heap. It is never one that the tree has to
do with (`Server.Holds.of_heap`).
-/

namespace Fat

variable {env env' : Env} {s s₀ t u v : Server} {f l pl : List ℕ}
  {os dirs : Multiset (List ℕ)} {e : FatDirEntry} {x : ℕ × ℕ} {name n : List UInt8}
  {toks : List (List UInt8)} {h : Hierarchy ℕ (List UInt8) (List UInt8)}
  {evs evs' : List Event} {T T' T'' : Tree} {sb : Superblock} {pad : Fin 488 → UInt8}
  {type : UInt16} {r : ℤ} {b : ℕ}

/-! ## Another heap -/

/-- A string that is shorter than its bound ends with a zero. -/
theorem cString_end {m : Buf} {bound : ℕ} (hlt : (cString m bound).length < bound) :
    m (cString m bound).length = 0 := by
  by_cases hz : ∃ k, k < bound ∧ m k = 0
  · obtain ⟨hk, h0⟩ := Nat.find_spec hz
    have heq := cString_eq hk h0 fun i hi hmi => Nat.find_min hz hi ⟨Nat.lt_trans hi hk, hmi⟩
    rw [heq, List.length_map, List.length_range]
    exact h0
  · have hall : cString m bound = (List.range bound).map m := by
      refine List.takeWhile_eq_self_iff.mpr fun x hx => ?_
      obtain ⟨i, hi, rfl⟩ := List.mem_map.mp hx
      exact decide_eq_true fun h0 => hz ⟨i, List.mem_range.mp hi, h0⟩
    rw [hall, List.length_map, List.length_range] at hlt
    exact absurd hlt (lt_irrefl _)

/-- An entry that is no child has no name, or a short one. -/
theorem FatDirEntry.length_of_not_isChild (hc : e.isChild = false) : e.nameStr.length ≤ 2 := by
  by_contra hlt
  have hne : ∀ m : List UInt8, m.length ≤ 2 → e.nameStr ≠ m := fun m hm heq =>
    hlt (heq ▸ hm)
  rw [FatDirEntry.isChild_of_name (hne [] (by decide)) (hne dotName (by decide))
    (hne dotdotName (by decide))] at hc
  cases hc

/-- Whether an entry is a child depends on its name. -/
theorem FatDirEntry.isChild_congr {e' : FatDirEntry} (hn : e'.nameStr = e.nameStr) :
    e'.isChild = e.isChild := by
  have hfree : e'.isFree = e.isFree :=
    Bool.eq_iff_iff.mpr (by rw [isFree_iff, isFree_iff, hn])
  rw [isChild, isChild, hn, hfree]

namespace Server

/-- An entry that fits into its cluster does not depend on the heap. -/
theorem slotEntry_of_inside (hx : s.Inside x) (env env' : Env) :
    s.slotEntry env' x = s.slotEntry env x := by
  refine FatDirEntry.ofBytes_congr fun i hi => ?_
  have hlt : x.2 + i < s.superblock.bytePerCluster :=
    Nat.lt_of_lt_of_le (Nat.add_lt_add_left hi _) hx
  show s.clusterBuf env' x.1 (x.2 + i) = s.clusterBuf env x.1 (x.2 + i)
  rw [clusterBuf_of_lt hlt, clusterBuf_of_lt hlt]

/-- The name of an entry that is no child does not depend on the heap. -/
theorem nameStr_of_heap (hx : x.2 + 3 ≤ s.superblock.bytePerCluster)
    (hc : (s.slotEntry env x).isChild = false) (env' : Env) :
    (s.slotEntry env' x).nameStr = (s.slotEntry env x).nameStr := by
  have hlen := FatDirEntry.length_of_not_isChild hc
  have hlt : (s.slotEntry env x).nameStr.length < dirEntrySize := by
    unfold dirEntrySize
    omega
  refine cString_congr hlt (cString_end hlt) fun i hi => ?_
  have hi22 : i < 22 := by omega
  have hin : x.2 + i < s.superblock.bytePerCluster := by omega
  unfold FatDirEntry.bytes
  rw [dif_pos hi22, dif_pos hi22]
  show s.clusterBuf env' x.1 (x.2 + i) = s.clusterBuf env x.1 (x.2 + i)
  rw [clusterBuf_of_lt hin, clusterBuf_of_lt hin]

namespace Holds

variable (hh : s.Holds env h f os dirs)
  (hb : ∀ o ∈ dirSlots s.superblock.bytePerCluster, o + 3 ≤ s.superblock.bytePerCluster)
include hh

/-- A child lies in its cluster. -/
theorem slotEntry_of_heap (hl : l ∈ dirs) (hx : x ∈ s.slots l)
    (hc : (s.slotEntry env x).isChild = true) (env' : Env) :
    s.slotEntry env' x = s.slotEntry env x :=
  slotEntry_of_inside (hh.wellFormed.inside l hl x hx hc) env env'

include hb

/-- The names in the directories do not depend on the heap, -/
theorem name_of_heap (hl : l ∈ dirs) (hx : x ∈ s.slots l) (env' : Env) :
    (s.slotEntry env' x).nameStr = (s.slotEntry env x).nameStr := by
  cases hc : (s.slotEntry env x).isChild with
  | false => exact nameStr_of_heap (hb x.2 (mem_slots.mp hx).2) hc env'
  | true => rw [hh.slotEntry_of_heap hl hx hc]

/-- nor does which of the entries are children. -/
theorem isChild_of_heap (hl : l ∈ dirs) (hx : x ∈ s.slots l)
    (hc : (s.slotEntry env' x).isChild = true) : (s.slotEntry env x).isChild = true := by
  rwa [FatDirEntry.isChild_congr (hh.name_of_heap hb hl hx env')] at hc

/-- Children are found where they were. -/
theorem lookup_of_heap (hl : l ∈ dirs) (hn : ChildName n) (env' : Env) :
    s.lookup env' l n = s.lookup env l n := by
  have hfind : s.findSlot env' l (fun e => e.nameStr == n)
      = s.findSlot env l (fun e => e.nameStr == n) :=
    List.find?_congr fun x hx => congrArg (· == n) (hh.name_of_heap hb hl hx env')
  rw [lookup, lookup, hfind]
  cases hx : s.findSlot env l (fun e => e.nameStr == n) with
  | none => rfl
  | some x =>
    obtain ⟨hxl, hxn⟩ := findSlot_some hx
    rw [Option.map_some, Option.map_some,
      hh.slotEntry_of_heap hl hxl (hn.isChild (eq_of_beq hxn))]

/-- The directories are well formed with any heap. -/
theorem wellFormed_of_heap (env' : Env) : s.WellFormed env' f os dirs := by
  have hwf := hh.wellFormed
  refine ⟨hwf.owns, hwf.owned, hwf.root, fun l hl x hx y hy hne hyx => ?_,
    fun l hl x hx hc => hwf.inside l hl x hx (hh.isChild_of_heap hb hl hx hc),
    fun l hl x hx hc => ?_, fun l hl x hx l' hl' y hy hc hc' hyx => ?_⟩
  · rw [hh.name_of_heap hb hl hx] at hne hyx
    rw [hh.name_of_heap hb hl hy] at hyx
    exact hwf.unique l hl x hx y hy hne hyx
  · have hcx := hh.isChild_of_heap hb hl hx hc
    rw [hh.slotEntry_of_heap hl hx hcx]
    exact hwf.heads l hl x hx hcx
  · have hcx := hh.isChild_of_heap hb hl hx hc
    have hcy := hh.isChild_of_heap hb hl' hy hc'
    rw [hh.slotEntry_of_heap hl hx hcx, hh.slotEntry_of_heap hl' hy hcy] at hyx
    exact hwf.own l hl x hx l' hl' y hy hcx hcy hyx

/-- **A tree does not depend on the heap**, if the name of an entry that is no child always
lies in the cluster. -/
theorem of_heap (env' : Env) : s.Holds env' h f os dirs := by
  refine ⟨hh.wellFormed_of_heap hb env', hh.root, fun i n k => ?_, hh.rootless, hh.dirData,
    fun l hl x hx hc => ?_, fun l hl n hn e he => ?_, hh.covered, hh.reached⟩
  · rw [hh.child]
    refine and_congr_right fun hn => exists_congr fun l => and_congr_right fun hl => ?_
    rw [hh.lookup_of_heap hb hl hn env']
  · rw [hh.name_of_heap hb hl hx]
    exact hh.named l hl x hx (hh.isChild_of_heap hb hl hx hc)
  · rw [hh.lookup_of_heap hb hl hn env'] at he
    exact hh.object l hl n hn e he

end Holds

end Server

/-! ## The disk agrees -/

/-- An entry is only made for a data cluster. -/
theorem isData_of_addDirEntryToCluster {c first : ℕ}
    (hrun : (addDirEntryToCluster c name first type).run env s = .ok r t) :
    s.superblock.IsData first := by
  by_contra hnot
  change ¬ (1 + s.superblock.clusterPerFat ≤ first ∧ first < s.superblock.clusterCount) at hnot
  rw [addDirEntryToCluster, Prog.bind_ok _ (Prog.run_read env s),
    Prog.bind_ok _ (Prog.run_get env s), Prog.bind_stop _ (check_stop hnot env s)] at hrun
  cases hrun

/-- **Creating an entry** leaves a disk that agrees. -/
theorem createEntry_synced (hw : env.WritesFull) (howns : s.Owns ⟨f, pl ::ₘ os⟩)
    (hrun : (createEntry (pl.headD endOfChain) name type).run env s = .ok r t)
    (hsync : s.Synced) : t.Synced := by
  obtain ⟨c, s₁, hpop, hrest⟩ := Prog.bind_eq_ok_iff.mp hrun
  obtain ⟨r₁, s₂, hadd, hdots⟩ := Prog.bind_eq_ok_iff.mp hrest
  rcases popFreeClusters_ok hw howns hpop with ⟨rfl, rfl⟩ | ⟨g, f₁, h₁, rfl, -, hs₁⟩
  · -- the end of a chain is no cluster to make an entry for
    exact absurd (isData_of_addDirEntryToCluster hadd).1 (by simp [endOfChain])
  · rw [Multiset.cons_swap] at h₁
    obtain ⟨k, h₂, hs₂⟩ := addDirEntryToCluster_ok hw h₁ hadd
    rw [Multiset.cons_swap] at h₂
    split at hdots
    · obtain ⟨r₃, s₃, hdot, hrest⟩ := Prog.bind_eq_ok_iff.mp hdots
      obtain ⟨r₄, s₄, hdotdot, hret⟩ := Prog.bind_eq_ok_iff.mp hrest
      obtain ⟨-, rfl⟩ := Outcome.ok.inj hret
      obtain ⟨k₃, h₃, hs₃⟩ := addDirEntryToCluster_ok hw h₂ hdot
      obtain ⟨a, g, rfl⟩ := List.exists_cons_of_ne_nil
        (h₂.owners g (Multiset.mem_cons_self _ _)).1
      obtain ⟨-, -, hs₄⟩ := addDirEntryToCluster_ok hw h₃ hdotdot
      exact hs₄ (hs₃ (hs₂ (hs₁ hsync)))
    · obtain ⟨-, rfl⟩ := Outcome.ok.inj hdots
      exact hs₂ (hs₁ hsync)

namespace Server.Holds

/-- Making a directory or a file. -/
theorem make_synced (hh : s.Holds env h f os dirs) (hr : env.Reliable)
    (hnames : ∀ x ∈ toks, ChildName x) (hn : ChildName name) (hdir : s.IsDir env toks)
    (hf : s.Finds env (pathOf (toks ++ [name])) none) (hsync : s.Synced)
    (hrun : (do
      let free ← hasFreeCluster
      if free then addDirEntry (pathOf (toks ++ [name])) type
      else return -enomem : FatM ℤ).run env s = .ok r t) : t.Synced := by
  obtain ⟨pl, hpl, -, hp⟩ := hh.exists_parent hr.reads hnames hn hdir hf
  rw [Prog.bind_ok _ (hasFreeCluster_run hh.wellFormed.owns hp.root_owned)] at hrun
  split at hrun
  · obtain ⟨k, hk⟩ := hp.addDirEntry_run hr.reads type
    rw [hk] at hrun
    have howns := hh.wellFormed.owns
    obtain ⟨os, rfl⟩ := Multiset.exists_cons_of_mem (hh.wellFormed.owned pl hpl)
    exact createEntry_synced hr.writes (howns.preads k) hrun (hsync.preads k)
  · obtain ⟨-, rfl⟩ := Outcome.ok.inj hrun
    exact hsync

/-- Making a file. -/
theorem mknod_synced {mode : ℕ} (hh : s.Holds env h f os dirs) (hr : env.Reliable)
    (hnames : ∀ x ∈ toks, ChildName x) (hn : ChildName name) (hdir : s.IsDir env toks)
    (hf : s.Finds env (pathOf (toks ++ [name])) none) (hsync : s.Synced)
    (hrun : (fatMknod (pathOf (toks ++ [name])) mode).run env s = .ok r t) : t.Synced := by
  rw [fatMknod] at hrun
  split at hrun
  · exact hh.make_synced hr hnames hn hdir hf hsync hrun
  · obtain ⟨-, rfl⟩ := Outcome.ok.inj hrun
    exact hsync

/-- Looking whether a directory is empty. -/
theorem readOnly_isDirEmpty (env : Env) (c : ℕ) : ReadOnly env (isDirEmpty c) :=
  (ReadOnly.get env).bind fun _ =>
    ReadOnly.scanDir (fun _ _ _ => ReadOnly.pure env _) (fun _ => ReadOnly.pure env _) _ _

/-- Freeing a chain and the slot of its entry. -/
theorem erase_synced (hh : s.Holds env h f os dirs) (hr : env.Reliable) (hpl : pl ∈ dirs)
    (hn : ChildName name) (hlook : s.lookup env pl name = some e) (hsync : s.Synced)
    (hrun : (do
      freeClusterChain e.firstCluster.toNat
      updateDirEntry (pl.headD endOfChain) e true).run env s = .ok r t) : t.Synced := by
  have hwf := hh.wellFormed
  have howns := hwf.owns
  obtain ⟨x, o, os', -, -, -, -, rfl, hfirst⟩ := hwf.exists_slot hpl hlook
    hn.isName.ne_nil hn.notDot hn.notDotdot
  rw [Multiset.cons_swap] at howns
  obtain ⟨o, d, rfl⟩ := (List.eq_nil_or_concat' o).resolve_left
    (howns.owners o (Multiset.mem_cons_self _ _)).1
  rw [hfirst, Prog.bind_ok _ (freeClusterChain_run howns.geometry
    (howns.chain (Multiset.mem_cons_self _ _)))] at hrun
  have howns' := howns.pushed env
  have hkept := updateDirEntry_kept howns'.geometry
    (howns'.chain (Multiset.mem_cons_self _ _))
    (howns'.owners pl (Multiset.mem_cons_self _ _)).1 hrun
  exact hkept.synced (hsync.pushed hr.writes howns.geometry _ d)

/-- Removing a file. -/
theorem unlink_synced (hh : s.Holds env h f os dirs) (hr : env.Reliable)
    (hnames : ∀ x ∈ toks, ChildName x) (hn : ChildName name)
    (hf : s.Finds env (pathOf (toks ++ [name])) (some e)) (hsync : s.Synced)
    (hrun : (fatUnlink (pathOf (toks ++ [name]))).run env s = .ok r t) : t.Synced := by
  cases hh.found hr.reads hnames hn hf with
  | entry pl e hpl hwalk hlook =>
    obtain ⟨k, hk⟩ := hh.lookupTarget_run hr.reads hpl hwalk hnames hn hlook
    rw [fatUnlink, Prog.bind_ok _ hk] at hrun
    dsimp only at hrun
    split at hrun
    · obtain ⟨-, rfl⟩ := Outcome.ok.inj hrun
      exact hsync.preads k
    · exact (hh.preads k).erase_synced hr hpl hn hlook (hsync.preads k) hrun

/-- Removing a directory. -/
theorem rmdir_synced (hh : s.Holds env h f os dirs) (hr : env.Reliable)
    (hnames : ∀ x ∈ toks, ChildName x) (hn : ChildName name)
    (hf : s.Finds env (pathOf (toks ++ [name])) (some e)) (hsync : s.Synced)
    (hrun : (fatRmdir (pathOf (toks ++ [name]))).run env s = .ok r t) : t.Synced := by
  cases hh.found hr.reads hnames hn hf with
  | entry pl e hpl hwalk hlook =>
    obtain ⟨k, hk⟩ := hh.lookupTarget_run hr.reads hpl hwalk hnames hn hlook
    rw [fatRmdir, Prog.bind_ok _ hk] at hrun
    obtain ⟨empty, u, hempty, hrest⟩ := Prog.bind_eq_ok_iff.mp hrun
    obtain ⟨k', rfl⟩ := (readOnly_isDirEmpty env _).of_ok hempty
    split at hrest
    · split at hrest
      · obtain ⟨-, rfl⟩ := Outcome.ok.inj hrest
        exact hsync.preads k'
      · exact (hh.preads k').erase_synced hr hpl hn hlook (hsync.preads k') hrest
    · obtain ⟨-, rfl⟩ := Outcome.ok.inj hrest
      exact hsync.preads k'

/-- Writing to a file. -/
theorem write_synced {buf : Buf} {size offset : ℕ} (hh : s.Holds env h f os dirs)
    (hr : env.Reliable) (hnames : ∀ x ∈ toks, ChildName x) (hn : ChildName name)
    (hf : s.Finds env (pathOf (toks ++ [name])) (some e)) (htype : e.type = dirEntryTypeFile)
    (hsize : 0 < size) (hsum : offset + size < 2 ^ 32) (hsync : s.Synced)
    (hrun : (fatWrite (pathOf (toks ++ [name])) buf size offset).run env s = .ok r t) :
    t.Synced := by
  obtain ⟨o, os', pl, x, rfl, hfile, -, -⟩ := hh.exists_file hr.reads hnames hn hf htype
  obtain ⟨k, hk⟩ := hfile.lookupTarget_run hr.reads
  rw [fatWrite, Prog.bind_ok _ hk] at hrun
  obtain ⟨-, -, hkeeps⟩ := updateFile_ok hr.writes (hfile.file.owns.preads k) hfile.file.head
    (Multiset.mem_cons_of_mem hfile.file.parent) hrun
  refine hkeeps (fun hempty => ?_) (hsync.preads k)
  have hzero := hempty.empty
  rw [u32_of_lt (by omega)] at hzero
  omega

/-- Setting the length of a file. -/
theorem truncate_synced {size : ℕ} (hh : s.Holds env h f os dirs) (hr : env.Reliable)
    (hnames : ∀ x ∈ toks, ChildName x) (hn : ChildName name)
    (hf : s.Finds env (pathOf (toks ++ [name])) (some e)) (htype : e.type = dirEntryTypeFile)
    (hsize : size < 2 ^ 32) (hsync : s.Synced)
    (hrun : (fatTruncate (pathOf (toks ++ [name])) size).run env s = .ok r t) : t.Synced := by
  obtain ⟨o, os', pl, x, rfl, hfile, -, -⟩ := hh.exists_file hr.reads hnames hn hf htype
  obtain ⟨k, hk⟩ := hfile.lookupTarget_run hr.reads
  rw [fatTruncate, Prog.bind_ok _ hk] at hrun
  obtain ⟨-, -, -, -, hkeeps⟩ := truncateFile_ok hr.writes (hfile.file.owns.preads k)
    hfile.file.head (Multiset.mem_cons_of_mem hfile.file.parent) hrun
  refine hkeeps (fun hpad => ?_) (hsync.preads k)
  obtain ⟨hlt, hempty⟩ := hpad
  have hzero := hempty.empty
  rw [u32_of_lt hsize, sub32_of_le hsize (Nat.le_of_lt hlt), u32_of_lt (by omega)] at hzero
  omega

/-- **A call leaves a disk that agrees.** -/
theorem call_synced {c : Call} (hh : s.Holds env h f os dirs) (hr : env.Reliable)
    (hen : c.Enabled env s) (hsync : s.Synced) (hrun : c.code.run env s = .ok r t) :
    t.Synced := by
  obtain ⟨dir, name, op⟩ := c
  have hnames := hen.dirNames
  have hn := hen.childName
  have hop := hen.op
  cases op with
  | mkdir =>
    obtain ⟨hdir, hf, -⟩ := hop
    exact hh.make_synced hr hnames hn hdir hf hsync hrun
  | mknod mode =>
    obtain ⟨hdir, hf, -⟩ := hop
    exact hh.mknod_synced hr hnames hn hdir hf hsync hrun
  | create mode =>
    obtain ⟨hdir, hf, -⟩ := hop
    obtain ⟨r', t', hmk, hret⟩ := Prog.bind_eq_ok_iff.mp hrun
    obtain ⟨-, rfl⟩ := Outcome.ok.inj hret
    exact hh.mknod_synced hr hnames hn hdir hf hsync hmk
  | unlink =>
    obtain ⟨e, hf⟩ := hop
    exact hh.unlink_synced hr hnames hn hf hsync hrun
  | rmdir =>
    obtain ⟨e, hf⟩ := hop
    exact hh.rmdir_synced hr hnames hn hf hsync hrun
  | write buf size offset =>
    obtain ⟨hsize, hsum, e, hf, htype⟩ := hop
    exact hh.write_synced hr hnames hn hf htype hsize hsum hsync hrun
  | truncate size =>
    obtain ⟨hsize, e, hf, htype, -⟩ := hop
    exact hh.truncate_synced hr hnames hn hf htype hsize hsync hrun

end Server.Holds

/-- **A run leaves a disk that agrees.** -/
theorem Server.HoldsTree.synced (hr : env.Reliable) (hs : s.HoldsTree env sb T)
    (hsync : s.Synced) (hrun : Run env s evs t) : t.Synced := by
  induction hrun generalizing T with
  | nil s => exact hsync
  | look hlook _ ih =>
    obtain ⟨h, f, os, dirs, hh, hsb, rfl⟩ := hs
    obtain ⟨k, rfl⟩ := hlook
    exact ih ((hh.holdsTree ⟨k, rfl⟩).of_superblock hsb) (hsync.preads k)
  | cons henabled _ hrun _ ih =>
    obtain ⟨h, f, os, dirs, hh, hsb, rfl⟩ := hs
    obtain ⟨T₁, hT₁, -⟩ := hh.call hr henabled hrun
    exact ih (hT₁.of_superblock hsb) (hh.call_synced hr henabled hsync hrun)

/-- **The disk that `fat_init` has made** agrees. -/
theorem fatInit_synced (hr : env.Reliable) (hinit : (fatInit false).run env s₀ = .ok () s) :
    s.Synced := by
  rw [fatInit, if_neg (by decide), Prog.bind_ok _ (formatDisk_run hr.writes),
    Prog.bind_ok _ (Prog.run_get env _)] at hinit
  obtain ⟨r₁, s₁, hdot, hrest⟩ := Prog.bind_eq_ok_iff.mp hinit
  obtain ⟨_, s₂, hcheck, hrest⟩ := Prog.bind_eq_ok_iff.mp hrest
  obtain ⟨k, rfl⟩ := (ReadOnly.check _).of_ok hcheck
  obtain ⟨r₂, s₃, hdotdot, hlast⟩ := Prog.bind_eq_ok_iff.mp hrest
  obtain ⟨k', rfl⟩ := (ReadOnly.check _).of_ok hlast
  have hroot : (s₀.formatted env).superblock.rootClusterStart
      = ([4] : List ℕ).headD endOfChain := by
    rw [Server.superblock_formatted]
    rfl
  rw [hroot] at hdot hdotdot
  obtain ⟨n, h₁, hs₁⟩ := addDirEntryToCluster_ok hr.writes
    (show (s₀.formatted env).Owns ⟨_, [4] ::ₘ 0⟩ from Server.owns_formatted s₀ env) hdot
  obtain ⟨-, -, hs₂⟩ := addDirEntryToCluster_ok hr.writes (h₁.preads k) hdotdot
  exact (hs₂ ((hs₁ (formatted_synced hr.writes s₀)).preads k)).preads k'

/-! ## A new server -/

/-- **A server with the superblock, the table and the disk of another one** holds the tree of
that one. -/
theorem Server.Holds.of_parts (hh : s.Holds env h f os dirs)
    (hsb : t.superblock = s.superblock) (hdisk : t.fatDisk = s.fatDisk)
    (hfat : ∀ i < s.fatSize, t.fatTable i = s.fatTable i) : t.Holds env h f os dirs := by
  have hwf := hh.wellFormed
  have howns : t.Owns ⟨f, os⟩ := by
    refine hwf.owns.congr (hsb ▸ hwf.owns.geometry) (by rw [hsb]) (fun c => by rw [hsb])
      fun c hc => ?_
    unfold Server.next
    rw [hsb]
    refine leNat_congr fun i hi => hfat _ ?_
    have hle := entryAt_add_le hwf.owns.geometry (hwf.owns.data c hc)
    omega
  obtain ⟨sb, table, disk, m, w⟩ := t
  cases hsb
  cases hdisk
  exact ⟨⟨howns, hwf.owned, hwf.root, hwf.unique, hwf.inside, hwf.heads, hwf.own⟩,
    hh.root, hh.child, hh.rootless, hh.dirData, hh.named,
    fun l hl n hn e he => (hh.object l hl n hn e he).congr rfl fun _ _ => rfl,
    hh.covered, hh.reached⟩

/-- Mounting always comes to an end. -/
theorem fatInit_mounts (hr : env.ReadsFull) (s : Server) :
    ∃ t, (fatInit true).run env s = .ok () t := by
  rw [fatInit, if_pos rfl]
  exact ⟨_, mountDisk_run hr⟩

/-- **Mounting the disk of a server that has ended** gives a server that holds its tree, and
the disk agrees. -/
theorem Server.Holds.mounted (hh : s.Holds env h f os dirs) (hsync : s.Synced)
    (hr : env'.ReadsFull) (hdisk : t.fatDisk = s.fatDisk)
    (hmount : (fatInit true).run env' t = .ok () u) :
    u.superblock = s.superblock ∧ u.Holds env h f os dirs ∧ u.Synced := by
  have howns := hh.wellFormed.owns
  obtain ⟨u', hrun, hsb, hfat⟩ :=
    hsync.remounts howns.geometry howns.freeClusterStart_lt env' t hr hdisk
  change mountDisk.run env' t = .ok () u at hmount
  obtain rfl : u' = u := (Outcome.ok.inj (hrun.symm.trans hmount)).2
  have hdisk' : u'.fatDisk = s.fatDisk := by
    rw [mountDisk_run hr] at hrun
    rw [← (Outcome.ok.inj hrun).2]
    exact hdisk
  have hsize : u'.fatSize = s.fatSize := by
    unfold Server.fatSize
    rw [hsb]
  refine ⟨hsb, hh.of_parts hsb hdisk' hfat, ⟨fun i hi => ?_, fun i hi => ?_⟩⟩
  · rw [hsb, hdisk']
    exact hsync.superblock i hi
  · rw [hsize] at hi
    rw [hsb, hdisk', hfat i hi]
    exact hsync.fat i hi

/-! ## Services -/

/-- **A service**: runs of enabled calls, and servers that mount the disk of the one before
them. What is in the memory of a new server is all its own, and so is what the kernel answers
it. -/
inductive Service : Server → List Event → Server → Prop where
  | nil (s : Server) : Service s [] s
  | calls {env : Env} {s t u : Server} {evs evs' : List Event} (hr : env.Reliable)
    (hrun : Run env s evs t) (h : Service t evs' u) : Service s (evs ++ evs') u
  | restart {env : Env} {s t u v : Server} {evs : List Event} (hr : env.ReadsFull)
    (hdisk : t.fatDisk = s.fatDisk) (hmount : (fatInit true).run env t = .ok () u)
    (h : Service u evs v) : Service s evs v

/-- Runs on a tree, one after the other. -/
theorem TreeRun.append (h : TreeRun b T evs T') (h' : TreeRun b T' evs' T'') :
    TreeRun b T (evs ++ evs') T'' := by
  induction h with
  | nil T => exact h'
  | cons hdoes _ ih => exact .cons hdoes (ih h')

/-- The last slot of a cluster has room for three letters of a name. -/
theorem name_fits_of_dirSlots {o : ℕ} (ho : o ∈ dirSlots 4096) : o + 3 ≤ 4096 := by
  obtain ⟨⟨k, rfl⟩, hlt⟩ := mem_dirSlots.mp ho
  unfold dirEntrySize at hlt ⊢
  omega

/-- The tree on a disk of this size is the same with any heap. -/
theorem Server.HoldsTree.of_heap (hs : s.HoldsTree env (.fresh pad) T) (env' : Env) :
    s.HoldsTree env' (.fresh pad) T := by
  obtain ⟨h, f, os, dirs, hh, ⟨v, hv⟩, hT⟩ := hs
  have hb : s.superblock.bytePerCluster = 4096 := by
    rw [hv]
    rfl
  refine ⟨h, f, os, dirs, hh.of_heap ?_ env', ⟨v, hv⟩, hT⟩
  rw [hb]
  exact fun o => name_fits_of_dirSlots

/-- **A service keeps a tree**: the one that the calls lead to. -/
theorem Server.HoldsTree.service (hs : s.HoldsTree env (.fresh pad) T) (hsync : s.Synced)
    (hrun : Service s evs t) :
    t.Synced ∧ ∃ T', TreeRun 4096 T evs T' ∧ t.HoldsTree env (.fresh pad) T' := by
  induction hrun generalizing T with
  | nil s => exact ⟨hsync, T, .nil T, hs⟩
  | @calls env' s t u evs evs' hr hrun _ ih =>
    have hs' := hs.of_heap env'
    obtain ⟨T₁, hT₁, ht⟩ := hs'.run hr hrun
    obtain ⟨husync, T₂, hT₂, hu⟩ := ih (ht.of_heap env) (hs'.synced hr hsync hrun)
    exact ⟨husync, T₂, hT₁.append hT₂, hu⟩
  | restart hr hdisk hmount _ ih =>
    obtain ⟨h, f, os, dirs, hh, ⟨v, hv⟩, hT⟩ := hs
    obtain ⟨hsb, hh', hsync'⟩ := hh.mounted hsync hr hdisk hmount
    exact ih ⟨h, f, os, dirs, hh', ⟨v, hsb.trans hv⟩, hT⟩ hsync'

/-- A service on a fresh disk keeps a tree, and the disk agrees. -/
theorem Service.holdsTree (hr : env.Reliable) (hzero : s₀.fatDisk = fun _ => 0)
    (hinit : (fatInit false).run env s₀ = .ok () s) (hrun : Service s evs t) :
    t.Synced ∧ ∃ T, TreeRun 4096 Hierarchy.emptyTree evs T
      ∧ t.HoldsTree env (.fresh s₀.superblock.pad) T := by
  obtain ⟨T, hT, hs⟩ := Run.holdsTree hr hzero hinit (.nil s)
  cases hT
  exact hs.service (fatInit_synced hr hinit) hrun

/-- A server that holds a tree on a disk of this size shows it. -/
theorem Server.HoldsTree.shows (hs : s.HoldsTree env (.fresh pad) T) (env' : Env)
    (hr : env'.ReadsFull) : s.Shows env' 4096 T := by
  obtain ⟨h, f, os, dirs, hh, ⟨v, hv⟩, rfl⟩ := hs.of_heap env'
  have hshows := hh.shows hr
  rw [hv] at hshows
  exact hshows

/-- **The tree outlives the server.** After any service on the disk that `fat_init` has made of
zeros, the calls of all its servers, as one run, lead from the tree with nothing in it to a
tree that the last server shows. Each call is enabled when it is made (`Call.Enabled`). -/
theorem services_refine_tree (hr : env.Reliable) (hzero : s₀.fatDisk = fun _ => 0)
    (hinit : (fatInit false).run env s₀ = .ok () s) (hrun : Service s evs t) :
    ∃ T, TreeRun 4096 Hierarchy.emptyTree evs T
      ∧ ∀ env' : Env, env'.ReadsFull → t.Shows env' 4096 T := by
  obtain ⟨-, T, hT, ht⟩ := hrun.holdsTree hr hzero hinit
  exact ⟨T, hT, ht.shows⟩

/-- A directory is made, and another server mounts the disk. -/
theorem services_refine_tree_fresh :
    ∃ s t u, (fatInit false).run .ideal .blank = .ok () s
      ∧ Run .ideal s [⟨⟨[], [97], .mkdir⟩, 2555, 0⟩] t
      ∧ (fatInit true).run .ideal { Server.blank with fatDisk := t.fatDisk } = .ok () u
      ∧ ∃ T, TreeRun 4096 Hierarchy.emptyTree [⟨⟨[], [97], .mkdir⟩, 2555, 0⟩] T
        ∧ ∀ env' : Env, env'.ReadsFull → u.Shows env' 4096 T := by
  have hr := Env.ideal_reliable
  obtain ⟨s, t, hinit, hrun⟩ := mkdir_fresh hr (show Server.blank.fatDisk = fun _ => 0 from rfl)
  obtain ⟨u, hmount⟩ := fatInit_mounts hr.reads { Server.blank with fatDisk := t.fatDisk }
  have hdisk : ({ Server.blank with fatDisk := t.fatDisk } : Server).fatDisk = t.fatDisk := rfl
  have hservice := Service.calls hr hrun (.restart hr.reads hdisk hmount (.nil u))
  rw [List.append_nil] at hservice
  exact ⟨s, t, u, hinit, hrun, hmount, services_refine_tree hr rfl hinit hservice⟩

end Fat
