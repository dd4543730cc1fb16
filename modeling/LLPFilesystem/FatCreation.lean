import LLPFilesystem.FatCreate
import LLPFilesystem.FatRefusal

/-!
# Is a creation reported truthfully?

`fat_mkdir` and `fat_mknod` check that there is a free cluster and then report
success, whatever becomes of the insertion; `fat_create` reports success in any
case. What they report is true exactly when there is no free cluster, or when
the entry can be made in a slot inside its cluster (`creation_reported_iff`).
-/

namespace Fat

variable {env : Env} {s t : Server} {d k : ℕ} {f l pl : List ℕ}
  {os dirs : Multiset (List ℕ)} {x y : ℕ × ℕ} {name : List UInt8} {type : UInt16}
  {e : FatDirEntry} {toks : List (List UInt8)} {op : FatM ℤ} {r : ℤ}

/-! ## What creations promise -/

/-- **The path leads to a new empty file or directory**: it resolves to a live
entry in the parent directory `pl`, which may have grown, with the name and the
type asked for and the size zero, whose first cluster was free and is a chain
of its own; the cluster of a directory holds exactly `"."` and `".."`. -/
def Server.Created (t : Server) (env : Env) (f pl : List ℕ) (path name : List UInt8)
    (type : UInt16) : Prop :=
  ∃ e d f' g os x, t.Reads env (findDirEntryByPath path) (some e)
    ∧ t.Owns ⟨f', [d] ::ₘ (pl ++ g) ::ₘ os⟩ ∧ d ∈ f
    ∧ x ∈ t.slots (pl ++ g) ∧ t.slotEntry env x = e
    ∧ e.isFree = false ∧ e.nameStr = name ∧ e.type = type ∧ e.size = 0
    ∧ e.firstCluster.toNat = d
    ∧ (type = dirEntryTypeSubdir → t.HoldsDots env d (pl.headD endOfChain))

/-- **The operation reports truthfully**: it returns `0` if and only if the path
leads to a new file or directory afterwards, and otherwise it returns a negative
error and nothing has changed. -/
def Server.ReportsTruthfully (s : Server) (env : Env) (op : FatM ℤ) (f pl : List ℕ)
    (path name : List UInt8) (type : UInt16) : Prop :=
  ∃ r t, op.run env s = .ok r t ∧ (r = 0 ↔ t.Created env f pl path name type)
    ∧ (r ≠ 0 → r < 0 ∧ s.Unchanged t)

/-- **A creation can be carried out**: there is a free cluster, the name fits,
and either the first free slot of the parent directory lies inside its cluster or
there is no such slot and a second free cluster for another. -/
structure Server.CanCreate (s : Server) (env : Env) (f pl : List ℕ) (name : List UInt8) :
    Prop where
  cluster : f ≠ []
  fits : NameFits name
  slot : ∀ x, s.findSlot env pl FatDirEntry.isFree = some x → s.Inside x
  extend : s.findSlot env pl FatDirEntry.isFree = none → 2 ≤ f.length

/-- The parent directory of a path in a well-formed file system. -/
structure Server.HasDirectory (s : Server) (env : Env) (f : List ℕ)
    (os dirs : Multiset (List ℕ)) (toks : List (List UInt8)) (pl : List ℕ)
    (name : List UInt8) : Prop where
  owns : s.Owns ⟨f, os⟩
  dirs_owned : ∀ l ∈ dirs, l ∈ os
  names : ∀ x ∈ toks, IsName x
  isName : IsName name
  walk : ∃ r ∈ dirs, r.headD endOfChain = s.superblock.rootClusterStart
    ∧ s.Walk env dirs toks r pl
  parent : pl ∈ dirs

/-- The parent directory of a path in a well-formed file system, where the name
is not found. -/
structure Server.HasParent (s : Server) (env : Env) (f : List ℕ)
    (os dirs : Multiset (List ℕ)) (toks : List (List UInt8)) (pl : List ℕ)
    (name : List UInt8) : Prop where
  owns : s.Owns ⟨f, os⟩
  dirs_owned : ∀ l ∈ dirs, l ∈ os
  names : ∀ x ∈ toks, IsName x
  isName : IsName name
  walk : ∃ r ∈ dirs, r.headD endOfChain = s.superblock.rootClusterStart
    ∧ s.Walk env dirs toks r pl
  parent : pl ∈ dirs
  absent : s.lookup env pl name = none

namespace Server.HasDirectory

/-- The root directory has an owner. -/
theorem root_owned (h : s.HasDirectory env f os dirs toks pl name) :
    ∃ o ∈ os, s.superblock.rootClusterStart ∈ o := by
  obtain ⟨r, hr, hroot, -⟩ := h.walk
  have hro := h.dirs_owned r hr
  obtain ⟨a, r', rfl⟩ := List.exists_cons_of_ne_nil (h.owns.owners r hro).1
  exact ⟨_, hro, by rw [← hroot]; exact List.mem_cons_self⟩

/-- The lookup of the parent directory. -/
theorem findParentCluster_run (h : s.HasDirectory env f os dirs toks pl name)
    (hr : env.ReadsFull) :
    ∃ k, (findParentCluster (pathOf toks)).run env s
      = .ok (pl.headD endOfChain) { s with preads := k } := by
  obtain ⟨r, -, hroot, hw⟩ := h.walk
  exact (reads_findFirstClusterByPath h.owns hr h.dirs_owned h.names hroot hw).run

end Server.HasDirectory

namespace Server.HasParent

theorem directory (h : s.HasParent env f os dirs toks pl name) :
    s.HasDirectory env f os dirs toks pl name :=
  ⟨h.owns, h.dirs_owned, h.names, h.isName, h.walk, h.parent⟩

/-- More reads do not matter. -/
theorem preads (h : s.HasParent env f os dirs toks pl name) (k : ℕ) :
    ({ s with preads := k } : Server).HasParent env f os dirs toks pl name := by
  obtain ⟨r, hr, hroot, hw⟩ := h.walk
  exact ⟨h.owns.preads k, h.dirs_owned, h.names, h.isName, ⟨r, hr, hroot, hw.preads k⟩,
    h.parent, h.absent⟩

/-- The root directory has an owner. -/
theorem root_owned (h : s.HasParent env f os dirs toks pl name) :
    ∃ o ∈ os, s.superblock.rootClusterStart ∈ o := h.directory.root_owned

/-- The parent directory has a cluster. -/
theorem parent_ne_nil (h : s.HasParent env f os dirs toks pl name) : pl ≠ [] :=
  (h.owns.owners pl (h.dirs_owned pl h.parent)).1

/-- **What `add_dir_entry` comes down to** once the parent directory has been
found. -/
theorem addDirEntry_run (h : s.HasParent env f os dirs toks pl name) (hr : env.ReadsFull)
    (type : UInt16) :
    ∃ k, (addDirEntry (pathOf (toks ++ [name])) type).run env s
      = (createEntry (pl.headD endOfChain) name type).run env { s with preads := k } := by
  obtain ⟨k, hk⟩ := h.directory.findParentCluster_run hr
  refine ⟨k, ?_⟩
  rw [addDirEntry, Prog.bind_ok _ (getParentPath_run h.isName.noSlash),
    Prog.bind_ok _ (getTargetName_run h.isName.noSlash), Prog.bind_ok _ hk]

end Server.HasParent

/-! ## What an entry that was made is found as -/

/-- The directory `l`, if it is the parent directory, has grown. -/
def grownDir (pl g l : List ℕ) : List ℕ := if l = pl then pl ++ g else l

theorem grownDir_self {g : List ℕ} : grownDir pl g pl = pl ++ g := if_pos rfl

theorem headD_grownDir {g : List ℕ} (hpl : pl ≠ []) :
    (grownDir pl g l).headD endOfChain = l.headD endOfChain := by
  unfold grownDir
  split
  · next h =>
    obtain ⟨a, pl', rfl⟩ := List.exists_cons_of_ne_nil hpl
    rw [h]
    rfl
  · rfl

/-- **The way to the parent directory is still there** after a creation, if the
new entry has the name that was not found there. -/
theorem Server.Made.walk (hm : s.Made t env f pl os d x k name type)
    (h : s.HasParent env (d :: f) (pl ::ₘ os) dirs toks pl name)
    (hname : (t.slotEntry env x).nameStr = name) {r : List ℕ}
    (hw : s.Walk env dirs toks r pl) :
    t.Walk env (dirs.map (grownDir pl (f.take k))) toks (grownDir pl (f.take k) r)
      (pl ++ f.take k) := by
  rw [← grownDir_self (g := f.take k)]
  refine hw.map (fun l hl => Multiset.mem_map_of_mem _ hl)
    (fun l => headD_grownDir h.parent_ne_nil) (fun l hl tok htok e _ hlook => ?_)
  unfold grownDir
  split
  · next hlp =>
    subst hlp
    have hne : tok ≠ name := fun heq => by
      rw [heq, h.absent] at hlook
      cases hlook
    rw [hm.filled.lookup_of_ne (h.names tok htok).ne_nil (by rw [hname]; exact hne)]
    exact hlook
  · next hlp =>
    have hlo : l ∈ os := (Multiset.mem_cons.mp (h.dirs_owned l hl)).resolve_left hlp
    rw [← hlook]
    exact lookup_congr hm.filled.bytePerCluster (fun y hy => Or.inl (hm.others l hlo y hy))

/-- **An entry that was made is found.** -/
theorem Server.Made.created (hr : env.ReadsFull) (hm : s.Made t env f pl os d x k name type)
    (h : s.HasParent env (d :: f) (pl ::ₘ os) dirs toks pl name) (hn : NameFits name) :
    t.Created env (d :: f) pl (pathOf (toks ++ [name])) name type := by
  obtain ⟨hname, htype, hsize, hfirst⟩ := hm.slotEntry hn h.isName.noZero
  have hd : s.superblock.IsData d := h.owns.free_data List.mem_cons_self
  have hlive : (t.slotEntry env x).isFree = false := by
    rw [Bool.eq_false_iff]
    intro hfree
    rw [FatDirEntry.isFree_iff, hname] at hfree
    exact h.isName.ne_nil hfree
  obtain ⟨r, hrd, hroot, hw⟩ := h.walk
  have hfound := hm.filled.lookup_self h.isName.ne_nil hname h.absent
  have hmem : ∀ l ∈ dirs.map (grownDir pl (f.take k)),
      l ∈ [d] ::ₘ (pl ++ f.take k) ::ₘ os := fun l hl => by
    obtain ⟨l₀, hl₀, rfl⟩ := Multiset.mem_map.mp hl
    unfold grownDir
    split
    · exact Multiset.mem_cons_of_mem (Multiset.mem_cons_self _ _)
    · next hlp =>
      exact Multiset.mem_cons_of_mem (Multiset.mem_cons_of_mem
        ((Multiset.mem_cons.mp (h.dirs_owned l₀ hl₀)).resolve_left hlp))
  have hreads := reads_findDirEntryByPath hm.owns hr hmem h.isName h.names (by
      obtain ⟨v, hv⟩ := hm.superblock
      rw [headD_grownDir h.parent_ne_nil, hroot, hv]
      rfl) (hm.walk h hname hw)
    (by rw [← grownDir_self]; exact Multiset.mem_map_of_mem _ h.parent)
  rw [hfound] at hreads
  refine ⟨_, d, _, _, _, x, hreads, hm.owns, List.mem_cons_self, ?_, rfl, hlive, hname,
    htype, hsize, ?_, hm.dots⟩
  · rw [Server.slots_congr hm.filled.bytePerCluster]
    exact hm.filled.slot
  · rw [hfirst]
    exact Nat.mod_eq_of_lt (Nat.lt_trans hd.2 (Nat.lt_trans h.owns.geometry.clusterCount_lt
      (by decide)))

/-- A new file or directory has an entry in a slot of the parent directory. -/
theorem Server.Created.exists_slot {path : List UInt8} {f₂ g : List ℕ}
    {os₂ : Multiset (List ℕ)} (hc : t.Created env f pl path name type) (hpl : pl ≠ [])
    (h : t.Owns ⟨f₂, os₂⟩) (hmem : pl ++ g ∈ os₂) :
    ∃ x ∈ t.slots (pl ++ g), (t.slotEntry env x).nameStr = name := by
  obtain ⟨e, d, f', g', os', x, -, howns, -, hx, rfl, -, hname, -⟩ := hc
  have hhead : ∀ m : List ℕ, (pl ++ m).headD endOfChain = pl.headD endOfChain := fun m => by
    obtain ⟨a, pl', rfl⟩ := List.exists_cons_of_ne_nil hpl
    rfl
  -- the chain of the parent directory is determined
  have hchain := (howns.owners _ (Multiset.mem_cons_of_mem (Multiset.mem_cons_self _ _))).2
  have hchain' := (h.owners _ hmem).2
  rw [hhead] at hchain hchain'
  exact ⟨x, by rw [← hchain.unique hchain']; exact hx, hname⟩

/-- **A creation with a free cluster returns nothing but `0`**, and the path leads to
a new file or directory exactly if the creation can be carried out. -/
theorem createEntry_created_iff (hr : env.Reliable)
    (h : s.HasParent env (d :: f) (pl ::ₘ os) dirs toks pl name) (type : UInt16) :
    (∀ r t, (createEntry (pl.headD endOfChain) name type).run env s = .ok r t → r = 0)
    ∧ ((∃ t, (createEntry (pl.headD endOfChain) name type).run env s = .ok 0 t
        ∧ t.Created env (d :: f) pl (pathOf (toks ++ [name])) name type)
      ↔ s.CanCreate env (d :: f) pl name) := by
  have hpl := h.parent_ne_nil
  by_cases hroom : NameFits name ∧ (s.findSlot env pl FatDirEntry.isFree = none → f ≠ [])
  · obtain ⟨hn, hf⟩ := hroom
    by_cases hin : ∀ x, s.findSlot env pl FatDirEntry.isFree = some x → s.Inside x
    · obtain ⟨t, x, k, hrun, hm, -⟩ :=
        createEntry_made hr h.owns h.root_owned hn hin hf type
      refine ⟨fun r t' hrun' => ?_, iff_of_true ⟨t, hrun, hm.created hr.reads h hn⟩
        ⟨List.cons_ne_nil d f, hn, hin, fun hnone => ?_⟩⟩
      · rw [hrun] at hrun'
        exact (Outcome.ok.inj hrun').1.symm
      · have hpos := List.length_pos_of_ne_nil (hf hnone)
        rw [List.length_cons]
        omega
    · -- the slot sticks out of its cluster
      obtain ⟨x, hx⟩ := not_forall.mp hin
      obtain ⟨hfind, hout⟩ := Classical.not_imp.mp hx
      obtain ⟨t, hrun⟩ := createEntry_outside hr h.owns hn hfind hout type
      refine ⟨fun r t' hrun' => ?_, iff_of_false ?_ fun hc => hin hc.slot⟩
      · rw [hrun] at hrun'
        cases hrun'
      · rintro ⟨t', hrun', -⟩
        rw [hrun] at hrun'
        cases hrun'
  · have hfail : NameFits name → s.findSlot env pl FatDirEntry.isFree = none ∧ f = [] := by
      intro hn
      by_contra hne
      exact hroom ⟨hn, fun hnone hf => hne ⟨hnone, hf⟩⟩
    obtain ⟨t, hrun, howns, ⟨v, hv⟩, hslots⟩ := createEntry_failed hr h.owns h.root_owned hfail
      type
    have hb := Server.bytePerCluster_of_setFree ⟨v, hv⟩
    refine ⟨fun r t' hrun' => ?_, iff_of_false ?_ fun hc => ?_⟩
    · rw [hrun] at hrun'
      exact (Outcome.ok.inj hrun').1.symm
    · rintro ⟨t', hrun', hc⟩
      rw [hrun] at hrun'
      obtain ⟨-, rfl⟩ := Outcome.ok.inj hrun'
      obtain ⟨y, hy, hname⟩ := hc.exists_slot (g := []) hpl howns (by simp)
      rw [List.append_nil, Server.slots_congr hb] at hy
      rw [hslots pl (Multiset.mem_cons_self _ _) y hy] at hname
      exact Server.lookup_eq_none.mp h.absent y hy hname
    · obtain ⟨hnone, rfl⟩ := hfail hc.fits
      have h2 := hc.extend hnone
      rw [List.length_singleton] at h2
      omega

/-- A creation reads the parent directory's path first. -/
theorem addDirEntry_created_iff (hr : env.Reliable)
    (h : s.HasParent env (d :: f) os dirs toks pl name) (type : UInt16) :
    (∀ r t, (addDirEntry (pathOf (toks ++ [name])) type).run env s = .ok r t → r = 0)
    ∧ ((∃ t, (addDirEntry (pathOf (toks ++ [name])) type).run env s = .ok 0 t
        ∧ t.Created env (d :: f) pl (pathOf (toks ++ [name])) name type)
      ↔ s.CanCreate env (d :: f) pl name) := by
  obtain ⟨os', rfl⟩ := Multiset.exists_cons_of_mem (h.dirs_owned pl h.parent)
  obtain ⟨k, hk⟩ := h.addDirEntry_run hr.reads type
  obtain ⟨hzero, hiff⟩ := createEntry_created_iff hr (h.preads k) type
  rw [hk]
  exact ⟨hzero, hiff.trans ⟨fun hc => ⟨hc.cluster, hc.fits, hc.slot, hc.extend⟩,
    fun hc => ⟨hc.cluster, hc.fits, hc.slot, hc.extend⟩⟩⟩

/-! ## The operations -/

/-- Nothing is created from an empty free list. -/
theorem Server.Created.ne_nil {path : List UInt8} (hc : t.Created env f pl path name type) :
    f ≠ [] := by
  obtain ⟨e, d, f', g, os', x, -, -, hd, -⟩ := hc
  exact List.ne_nil_of_mem hd

/-- What returns nothing but `0` is truthful exactly if it returns and the path leads
to a new file or directory. -/
theorem reportsTruthfully_of_zero {path : List UInt8}
    (hzero : ∀ r t, op.run env s = .ok r t → r = 0) :
    s.ReportsTruthfully env op f pl path name type
      ↔ ∃ t, op.run env s = .ok 0 t ∧ t.Created env f pl path name type := by
  constructor
  · rintro ⟨r, t, hrun, hiff, -⟩
    obtain rfl := hzero r t hrun
    exact ⟨t, hrun, hiff.mp rfl⟩
  · rintro ⟨t, hrun, hc⟩
    exact ⟨0, t, hrun, iff_of_true rfl hc, fun hne => absurd rfl hne⟩

/-- An operation that checks for a free cluster and then creates. -/
theorem reportsTruthfully_iff (hr : env.Reliable) (h : s.HasParent env f os dirs toks pl name)
    (hop : op.run env s = (do
      let free ← hasFreeCluster
      if free then addDirEntry (pathOf (toks ++ [name])) type
      else return -enomem : FatM ℤ).run env s) :
    s.ReportsTruthfully env op f pl (pathOf (toks ++ [name])) name type
      ↔ f = [] ∨ s.CanCreate env f pl name := by
  rw [Prog.bind_ok _ (hasFreeCluster_run h.owns h.root_owned)] at hop
  cases f with
  | nil =>
    refine iff_of_true ⟨-enomem, s, hop, iff_of_false (by decide) (fun hc => hc.ne_nil rfl),
      fun _ => ⟨by decide, rfl, rfl, rfl⟩⟩ (Or.inl rfl)
  | cons d f =>
    obtain ⟨hzero, hiff⟩ := addDirEntry_created_iff hr h type
    rw [decide_eq_true (List.cons_ne_nil d f), if_pos rfl] at hop
    rw [← hop] at hzero hiff
    rw [reportsTruthfully_of_zero hzero, hiff]
    exact ⟨Or.inr, fun hc => hc.resolve_left (List.cons_ne_nil d f)⟩

/-- **When creations are reported truthfully.** For a path whose parent is a
directory where the last name is not found, `fat_mkdir` and `fat_mknod` of a
regular file are truthful exactly if there is no free cluster or the creation
can be carried out, and `fat_create` exactly if its mode is that of a regular
file and the creation can be carried out. -/
theorem creation_reported_iff (hr : env.Reliable)
    (h : s.HasParent env f os dirs toks pl name) :
    (s.ReportsTruthfully env (fatMkdir (pathOf (toks ++ [name]))) f pl
        (pathOf (toks ++ [name])) name dirEntryTypeSubdir
      ↔ f = [] ∨ s.CanCreate env f pl name)
    ∧ (∀ mode, sIsreg mode = true →
      (s.ReportsTruthfully env (fatMknod (pathOf (toks ++ [name])) mode) f pl
          (pathOf (toks ++ [name])) name dirEntryTypeFile
        ↔ f = [] ∨ s.CanCreate env f pl name))
    ∧ ∀ mode, s.ReportsTruthfully env (fatCreate (pathOf (toks ++ [name])) mode) f pl
          (pathOf (toks ++ [name])) name dirEntryTypeFile
        ↔ sIsreg (mode ||| sIfreg) = true ∧ s.CanCreate env f pl name := by
  refine ⟨reportsTruthfully_iff hr h rfl, fun mode hmode => reportsTruthfully_iff hr h ?_,
    fun mode => ?_⟩
  · rw [fatMknod, if_pos hmode]
  · -- whatever `fat_mknod` returns, `fat_create` returns `0`
    have hret : ∀ r t, (fatCreate (pathOf (toks ++ [name])) mode).run env s = .ok r t
        ↔ r = 0 ∧ ∃ r', (fatMknod (pathOf (toks ++ [name])) (mode ||| sIfreg)).run env s
          = .ok r' t := fun r t => by
      rw [fatCreate, Prog.bind_eq_ok_iff]
      constructor
      · rintro ⟨r', t', hrun, hpure⟩
        obtain ⟨rfl, rfl⟩ := Outcome.ok.inj hpure
        exact ⟨rfl, r', hrun⟩
      · rintro ⟨rfl, r', hrun⟩
        exact ⟨r', t, hrun, rfl⟩
    rw [reportsTruthfully_of_zero fun r t hrun => ((hret r t).mp hrun).1]
    by_cases hreg : sIsreg (mode ||| sIfreg) = true
    · have hfree : hasFreeCluster.run env s = .ok (decide (f ≠ [])) s :=
        hasFreeCluster_run h.owns h.root_owned
      cases f with
      | nil =>
        refine iff_of_false ?_ fun hc => hc.2.cluster rfl
        rintro ⟨t, -, hc⟩
        exact hc.ne_nil rfl
      | cons d f =>
        obtain ⟨hzero, hiff⟩ := addDirEntry_created_iff hr h dirEntryTypeFile
        have hmknod : (fatMknod (pathOf (toks ++ [name])) (mode ||| sIfreg)).run env s
            = (addDirEntry (pathOf (toks ++ [name])) dirEntryTypeFile).run env s := by
          rw [fatMknod, if_pos hreg, Prog.bind_ok _ hfree,
            decide_eq_true (List.cons_ne_nil d f), if_pos rfl]
        rw [← hmknod] at hzero hiff
        refine Iff.trans ⟨?_, ?_⟩ (hiff.trans ⟨fun hc => ⟨hreg, hc⟩, fun hc => hc.2⟩)
        · rintro ⟨t, hrun, hc⟩
          obtain ⟨-, r', hrun'⟩ := (hret 0 t).mp hrun
          obtain rfl := hzero r' t hrun'
          exact ⟨t, hrun', hc⟩
        · rintro ⟨t, hrun, hc⟩
          exact ⟨t, (hret 0 t).mpr ⟨rfl, 0, hrun⟩, hc⟩
    · refine iff_of_false ?_ fun hc => hreg hc.1
      rintro ⟨t, hrun, hc⟩
      obtain ⟨-, r', hrun'⟩ := (hret 0 t).mp hrun
      rw [fatMknod, if_neg hreg] at hrun'
      obtain ⟨-, rfl⟩ := Outcome.ok.inj hrun'
      obtain ⟨y, hy, hname⟩ := hc.exists_slot (g := []) h.parent_ne_nil h.owns
        (by rw [List.append_nil]; exact h.dirs_owned pl h.parent)
      rw [List.append_nil] at hy
      exact Server.lookup_eq_none.mp h.absent y hy hname

/-- The root directory of the disk with one file is the parent directory of
another name. -/
theorem Server.hasParent_oneFile (env : Env) (name : List UInt8) (hn : IsName name)
    (hne : name ≠ oneName) :
    (Server.oneFile 0 fun _ => 0).HasParent env (List.range' 6 2554) ([5] ::ₘ {[4]}) {[4]}
      [] [4] name :=
  ⟨Server.owns_oneFile 0 _, Server.root_mem_onePool, by simp, hn,
    ⟨[4], Multiset.mem_singleton_self _, Server.rootClusterStart_oneFile.symm, .nil [4]⟩,
    Multiset.mem_singleton_self _, Server.lookup_oneFile_of_ne hne hn.ne_nil⟩

/-- Making the directory `/b` is reported truthfully. -/
theorem creation_reported_oneFile :
    (Server.oneFile 0 fun _ => 0).ReportsTruthfully .ideal (fatMkdir (pathOf ([] ++ [[98]])))
      (List.range' 6 2554) [4] (pathOf ([] ++ [[98]])) [98] dirEntryTypeSubdir := by
  have h := Server.hasParent_oneFile .ideal [98] ⟨by decide, by decide, by decide⟩ (by decide)
  refine (creation_reported_iff Env.ideal_reliable h).1.mpr (Or.inr ⟨?_, by decide, ?_, ?_⟩)
  · exact List.ne_nil_of_length_pos (by rw [List.length_range']; decide)
  · intro x hx
    obtain rfl : (4, 40) = x :=
      Option.some.inj ((Server.findSlot_isFree_oneFile .ideal).symm.trans hx)
    rw [Server.Inside, Server.bytePerCluster_oneFile]
    decide
  · intro hnone
    rw [Server.findSlot_isFree_oneFile] at hnone
    cases hnone

/-- **A file with a name of 22 letters** is reported to have been made. -/
theorem oneFile_creation_not_truthful :
    (Server.oneFile 0 fun _ => 0).HasParent .ideal (List.range' 6 2554) ([5] ::ₘ {[4]}) {[4]}
      [] [4] (List.replicate 22 97)
    ∧ ¬ (Server.oneFile 0 fun _ => 0).ReportsTruthfully .ideal
      (fatMknod (pathOf ([] ++ [List.replicate 22 97])) sIfreg) (List.range' 6 2554) [4]
      (pathOf ([] ++ [List.replicate 22 97])) (List.replicate 22 97) dirEntryTypeFile := by
  have h := Server.hasParent_oneFile .ideal (List.replicate 22 97)
    ⟨by decide, by decide, by decide⟩ (by decide)
  refine ⟨h, fun hrep => ?_⟩
  have hop : (fatMknod (pathOf ([] ++ [List.replicate 22 97])) sIfreg)
      = (do
        let free ← hasFreeCluster
        if free then addDirEntry (pathOf ([] ++ [List.replicate 22 97])) dirEntryTypeFile
        else return -enomem) := if_pos (by decide)
  rcases (reportsTruthfully_iff Env.ideal_reliable h
    (congrArg (Prog.run · Env.ideal _) hop)).mp hrep with hnil | hc
  · have hlen := congrArg List.length hnil
    rw [List.length_range'] at hlen
    cases hlen
  · exact absurd hc.fits (by decide)

end Fat
