import LLPFilesystem.FatObserve
import LLPFilesystem.FatRuns

/-!
# The file system is a tree

A run of calls on the disk that `fat_init` has made is a run of the same calls on the tree
with nothing in it: each call returns what it may return there, and what the file system
shows afterwards is the tree that the run has led to (`calls_refine_tree`). Between the
calls the kernel looks at the file system as often as it likes.
-/

namespace Fat

variable {env : Env} {s s₀ t u : Server} {b : ℕ} {evs : List Event} {T T' : Tree}
  {sb : Superblock}

/-- **A call of a run**, with the free clusters that `fat_statfs` reports before it, and what
it returns. -/
structure Event where
  call : Call
  free : ℕ
  result : ℤ

/-- **A run of calls**, each enabled when it is made. -/
inductive Run (env : Env) : Server → List Event → Server → Prop where
  | nil (s : Server) : Run env s [] s
  | look {s t u : Server} {evs : List Event} (hlook : s.ReadTo t) (h : Run env t evs u) :
    Run env s evs u
  | cons {s t u : Server} {ev : Event} {evs : List Event} (henabled : ev.call.Enabled env s)
    (hfree : fatStatfs.run env s = .ok ev.free s)
    (hrun : ev.call.code.run env s = .ok ev.result t) (h : Run env t evs u) :
    Run env s (ev :: evs) u

/-- **A run of the same calls on a tree**, in clusters of `b` bytes. -/
inductive TreeRun (b : ℕ) : Tree → List Event → Tree → Prop where
  | nil (T : Tree) : TreeRun b T [] T
  | cons {T T' T'' : Tree} {ev : Event} {evs : List Event}
    (hdoes : ev.call.Does b ev.free T ev.result T') (h : TreeRun b T' evs T'') :
    TreeRun b T (ev :: evs) T''

/-- The free list has no part in the superblock of a tree. -/
theorem Server.HoldsTree.of_superblock (ht : t.HoldsTree env s.superblock T)
    (hs : ∃ v, s.superblock = { sb with freeClusterStart := v }) : t.HoldsTree env sb T := by
  obtain ⟨h, f, os, dirs, hh, ⟨w, hw⟩, hT⟩ := ht
  obtain ⟨v, hv⟩ := hs
  exact ⟨h, f, os, dirs, hh, ⟨w, by rw [hw, hv]⟩, hT⟩

/-- **A run keeps a tree**: the one that the same run leads to. -/
theorem Server.HoldsTree.run (hr : env.Reliable) (hs : s.HoldsTree env sb T)
    (hrun : Run env s evs t) :
    ∃ T', TreeRun sb.bytePerCluster T evs T' ∧ t.HoldsTree env sb T' := by
  induction hrun generalizing T with
  | nil s => exact ⟨T, .nil T, hs⟩
  | look hlook _ ih =>
    obtain ⟨h, f, os, dirs, hh, hsb, rfl⟩ := hs
    exact ih ((hh.holdsTree hlook).of_superblock hsb)
  | @cons s t u ev evs henabled hfree hrun _ ih =>
    obtain ⟨h, f, os, dirs, hh, hsb, rfl⟩ := hs
    obtain ⟨T₁, hT₁, hdoes⟩ := hh.call hr henabled hrun
    rw [fatStatfs_run hh.wellFormed.owns] at hfree
    have hf : f.length = ev.free := (Outcome.ok.inj hfree).1
    obtain ⟨T₂, hrest, hT₂⟩ := ih (hT₁.of_superblock hsb)
    obtain ⟨v, hv⟩ := hsb
    rw [hf, hv] at hdoes
    exact ⟨T₂, .cons hdoes hrest, hT₂⟩

/-- **A run on a fresh disk** keeps a tree. -/
theorem Run.holdsTree (hr : env.Reliable) (hzero : s₀.fatDisk = fun _ => 0)
    (hinit : (fatInit false).run env s₀ = .ok () s) (hrun : Run env s evs t) :
    ∃ T, TreeRun 4096 Hierarchy.emptyTree evs T
      ∧ t.HoldsTree env (.fresh s₀.superblock.pad) T := by
  obtain ⟨s', hinit', hsb, -, hh⟩ := fatInit_run hr hzero
  rw [hinit] at hinit'
  obtain ⟨-, rfl⟩ := Outcome.ok.inj hinit'
  have hs : s.HoldsTree env (.fresh s₀.superblock.pad) Hierarchy.emptyTree :=
    ⟨_, _, _, _, hh, hsb, Hierarchy.tree_empty 4⟩
  exact hs.run hr hrun

/-- **A directory that takes a new name**, known by its chain and the free list. -/
theorem Server.HasParent.takes {f pl : List ℕ} {os dirs : Multiset (List ℕ)}
    {toks : List (List UInt8)} {name : List UInt8}
    (hp : s.HasParent env f os dirs toks pl name) (hr : env.ReadsFull) (hfits : NameFits name)
    (hin : ∀ x, s.findSlot env pl FatDirEntry.isFree = some x → s.Inside x)
    (hroom : s.findSlot env pl FatDirEntry.isFree = none → f.length ≠ 1) :
    s.Takes env toks name := by
  obtain ⟨k, hk⟩ := hp.directory.findParentCluster_run hr
  have hchain := hp.owns.chain (hp.dirs_owned pl hp.parent)
  have hunique : ∀ {c t l}, (findParentCluster (pathOf toks)).run env s = .ok c t →
      s.Chain c l → l = pl := by
    intro c t l hrun hl
    rw [hk] at hrun
    obtain ⟨rfl, -⟩ := Outcome.ok.inj hrun
    exact hl.linked.unique hchain.linked
  refine ⟨hfits, fun c t l x hrun hl hx => ?_, fun c t l f' hrun hl hnone hf' => ?_⟩
  · rw [hunique hrun hl] at hx
    exact hin x hx
  · rw [hunique hrun hl] at hnone
    rw [hf'.linked.unique hp.owns.freeChain.linked]
    exact hroom hnone

/-- **The first free slot** of a directory that holds nothing but `"."` and `".."`. -/
theorem Server.HoldsDots.findSlot {d c : ℕ} (hd : s.HoldsDots env d c)
    (hb : s.superblock.bytePerCluster = 4096) :
    s.findSlot env [d] FatDirEntry.isFree = some (d, 80) := by
  have hslots : s.slots [d] = (d, 0) :: (d, dirEntrySize) :: (d, 80)
      :: (List.range' 120 100 40).map (d, ·) := by
    rw [Server.slots, hb, List.flatMap_singleton]
    rfl
  have hlive : ∀ {x : ℕ × ℕ} {n : List UInt8}, (s.slotEntry env x).nameStr = n → n ≠ [] →
      ¬ (s.slotEntry env x).isFree = true := by
    rintro x n hn hne hfree
    exact hne (hn ▸ FatDirEntry.nameStr_of_isFree hfree)
  have hfree : (s.slotEntry env (d, 80)).isFree = true :=
    hd.free _ (by rw [hslots]; simp) (by simp) (by simp [dirEntrySize])
  rw [Server.findSlot, hslots,
    List.find?_cons_of_neg (p := fun x => (s.slotEntry env x).isFree)
      (hlive hd.dot.nameStr_eq (by decide)),
    List.find?_cons_of_neg (p := fun x => (s.slotEntry env x).isFree)
      (hlive hd.dotdot.nameStr_eq (by decide)),
    List.find?_cons_of_pos (p := fun x => (s.slotEntry env x).isFree) hfree]

/-- **The file system refines a tree.** After any run of calls on the disk that `fat_init` has
made of zeros, the same run of calls leads from the tree with nothing in it to a tree that the
file system shows: with the results the calls have returned, and with the paths, the kinds,
the sizes and the contents that the operations find. The calls of a run are enabled when they
are made (`Call.Enabled`): names to be made fit an entry and get a slot inside its cluster, a
full directory is not extended with the last free cluster, and numbers stay below `2 ^ 32`. -/
theorem calls_refine_tree (hr : env.Reliable) (hzero : s₀.fatDisk = fun _ => 0)
    (hinit : (fatInit false).run env s₀ = .ok () s) (hrun : Run env s evs t) :
    ∃ T, TreeRun 4096 Hierarchy.emptyTree evs T ∧ t.Shows env 4096 T := by
  obtain ⟨T, hT, h, f, os, dirs, hh, ⟨v, hv⟩, rfl⟩ := hrun.holdsTree hr hzero hinit
  have hshows := hh.shows hr.reads
  rw [hv] at hshows
  exact ⟨h.tree, hT, hshows⟩

/-- The first call on a fresh disk may be to make the directory `/a`. -/
theorem mkdir_enabled_fresh (hr : env.Reliable) (hzero : s₀.fatDisk = fun _ => 0) :
    ∃ s, (fatInit false).run env s₀ = .ok () s
      ∧ s.Holds env (.empty 4) (List.range' 5 2555) {[4]} {[4]}
      ∧ (Call.mk [] [97] .mkdir).Enabled env s := by
  obtain ⟨s, hinit, ⟨v, hv⟩, hdots, hh⟩ := fatInit_run hr hzero
  have hb : s.superblock.bytePerCluster = 4096 := by
    rw [hv]
    rfl
  have hn : ChildName [97] := ⟨⟨by decide, by decide, by decide⟩, by decide, by decide⟩
  have hnames : ∀ x ∈ ([] : List (List UInt8)), ChildName x := fun x hx =>
    absurd hx List.not_mem_nil
  have hfind : s.Finds env (pathOf ([] ++ [[97]])) none := by
    obtain ⟨a, hreads, hfound⟩ := hh.reads_find hr.reads hnames hn
    obtain ⟨k, hk⟩ := hreads.run
    cases hfound with
    | missing => exact ⟨_, hk⟩
    | entry l e hl hwalk hlook =>
      have hpath := hh.walk_dir hl hn hwalk hlook
      cases hpath
  obtain ⟨pl, hpl, hwalk, hp⟩ := hh.exists_parent hr.reads hnames hn (Or.inl rfl) hfind
  obtain rfl := Multiset.mem_singleton.mp hpl
  refine ⟨s, hinit, hh, ?_, Or.inl rfl, hfind, hp.takes hr.reads (by decide) (fun x hx => ?_)
    (fun _ => by simp)⟩
  · intro x hx
    rw [List.mem_singleton.mp hx]
    exact hn
  · rw [hdots.findSlot hb] at hx
    obtain rfl := Option.some.inj hx
    show 80 + dirEntrySize ≤ s.superblock.bytePerCluster
    rw [hb]
    decide

/-- The directory `/a` is made. -/
theorem mkdir_fresh (hr : env.Reliable) (hzero : s₀.fatDisk = fun _ => 0) :
    ∃ s t, (fatInit false).run env s₀ = .ok () s
      ∧ Run env s [⟨⟨[], [97], .mkdir⟩, 2555, 0⟩] t := by
  obtain ⟨s, hinit, hh, hen⟩ := mkdir_enabled_fresh hr hzero
  have hn := hen.names [97] (List.mem_singleton_self _)
  obtain ⟨hdir, hfind, htakes⟩ := hen.op
  obtain ⟨pl, hpl, hwalk, hp⟩ := hh.exists_parent hr.reads
    (fun x hx => absurd hx List.not_mem_nil) hn hdir hfind
  obtain ⟨t, hrun, -⟩ := Server.Holds.make (d := 5) (f := List.range' 6 2554) hh hr hpl hwalk hp hn
    htakes (Or.inr rfl)
  refine ⟨s, t, hinit, .cons hen ?_ ?_ (.nil t)⟩
  · rw [fatStatfs_run hh.wellFormed.owns]
    simp
  · show (fatMkdir (pathOf ([] ++ [[97]]))).run env s = .ok 0 t
    rw [fatMkdir, Prog.bind_ok _ (hasFreeCluster_run hh.wellFormed.owns hp.root_owned),
      decide_eq_true (by simp), if_pos rfl]
    exact hrun

/-- The directory `/a` on a fresh disk. -/
theorem calls_refine_tree_fresh :
    ∃ s t, (fatInit false).run .ideal .blank = .ok () s
      ∧ Run .ideal s [⟨⟨[], [97], .mkdir⟩, 2555, 0⟩] t
      ∧ ∃ T, TreeRun 4096 Hierarchy.emptyTree [⟨⟨[], [97], .mkdir⟩, 2555, 0⟩] T
        ∧ t.Shows .ideal 4096 T := by
  obtain ⟨s, t, hinit, hrun⟩ := mkdir_fresh Env.ideal_reliable
    (show Server.blank.fatDisk = fun _ => 0 from rfl)
  exact ⟨s, t, hinit, hrun, calls_refine_tree Env.ideal_reliable rfl hinit hrun⟩

end Fat
