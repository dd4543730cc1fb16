import LLPFilesystem.FatDelete
import LLPFilesystem.FatFileRuns
import LLPFilesystem.FatResolve
import LLPFilesystem.Hierarchy

/-!
# The disk as a hierarchy

The chains of the directories and the entries in their slots make a hierarchy: an object is
named by its first cluster, and its name is in a slot of its parent. `Server.Holds` says
that a server holds a hierarchy. The hierarchy is proper, since an entry heads a chain of
its own, so a path leads to at most one object (`Server.Holds.proper`), and the lookups of
the file system walk it (`Server.Holds.reads_find`).
-/

namespace Fat

variable {env : Env} {s t : Server} {c i j k : ℕ} {f l l' o r : List ℕ}
  {os dirs : Multiset (List ℕ)} {e : FatDirEntry} {x y : ℕ × ℕ} {name n m : List UInt8}
  {toks : List (List UInt8)} {h : Hierarchy ℕ (List UInt8) (List UInt8)}

/-- **The name of a child**: a component of a path, but not `"."` or `".."`. -/
structure ChildName (name : List UInt8) : Prop where
  isName : IsName name
  notDot : name ≠ dotName
  notDotdot : name ≠ dotdotName

/-- An entry with such a name is a child. -/
theorem ChildName.isChild (hn : ChildName n) (he : e.nameStr = n) : e.isChild = true := by
  subst he
  exact FatDirEntry.isChild_of_name hn.isName.ne_nil hn.notDot hn.notDotdot

/-- **What a live entry stands for**: one of the directories, or a file whose chain covers
its size. -/
inductive Server.Object (s : Server) (h : Hierarchy ℕ (List UInt8) (List UInt8))
    (os dirs : Multiset (List ℕ)) (e : FatDirEntry) : Prop where
  | dir (htype : e.type = dirEntryTypeSubdir) (l : List ℕ) (hl : l ∈ dirs)
    (hhead : l.headD endOfChain = e.firstCluster.toNat) : Object s h os dirs e
  | file (htype : e.type = dirEntryTypeFile) (o : List ℕ) (ho : o ∈ os)
    (hhead : o.headD endOfChain = e.firstCluster.toNat)
    (hcovers : e.size.toNat ≤ o.length * s.superblock.bytePerCluster)
    (hdata : h.data e.firstCluster.toNat = some (s.contents o e.size.toNat)) :
    Object s h os dirs e

/-- An entry stands for the same with another server that has the same clusters. -/
theorem Server.Object.congr (hobj : s.Object h os dirs e)
    (hb : t.superblock.bytePerCluster = s.superblock.bytePerCluster)
    (hc : ∀ o size, t.contents o size = s.contents o size) : t.Object h os dirs e := by
  cases hobj with
  | dir htype l hl hhead => exact .dir htype l hl hhead
  | file htype o ho hhead hcovers hdata =>
    exact .file htype o ho hhead (by rwa [hb]) (hdata.trans (congrArg some (hc o _).symm))

/-- **The server holds the hierarchy**: its free list is `f`, the chains of its owners are
`os`, and those of its directories `dirs`. A path leads to every owner, and every cluster is
free or has one. -/
structure Server.Holds (s : Server) (env : Env) (h : Hierarchy ℕ (List UInt8) (List UInt8))
    (f : List ℕ) (os dirs : Multiset (List ℕ)) : Prop where
  wellFormed : s.WellFormed env f os dirs
  root : h.root = s.superblock.rootClusterStart
  child : ∀ i n k, h.child i n = some k ↔ ChildName n ∧ ∃ l ∈ dirs, l.headD endOfChain = i
    ∧ ∃ e, s.lookup env l n = some e ∧ e.firstCluster.toNat = k
  rootless : ∀ i n, h.child i n ≠ some h.root
  dirData : ∀ l ∈ dirs, h.data (l.headD endOfChain) = none
  named : ∀ l ∈ dirs, ∀ x ∈ s.slots l, (s.slotEntry env x).isChild = true →
    ChildName (s.slotEntry env x).nameStr
  object : ∀ l ∈ dirs, ∀ n, ChildName n → ∀ e, s.lookup env l n = some e →
    s.Object h os dirs e
  covered : ∀ c, s.superblock.IsData c → c ∈ f ∨ ∃ o ∈ os, c ∈ o
  reached : ∀ o ∈ os, ∃ p, h.walk h.root p = some (o.headD endOfChain)

/-- A cluster has one owner. -/
theorem Server.Owns.owner_unique {p : Pool ℕ} (h : s.Owns p) (hl : l ∈ p.owners)
    (hl' : l' ∈ p.owners) (hc : c ∈ l) (hc' : c ∈ l') : l = l' := by
  by_contra hne
  obtain ⟨f, os⟩ := p
  obtain ⟨os', rfl⟩ := Multiset.exists_cons_of_mem hl
  have hmem : l' ∈ os' := (Multiset.mem_cons.mp hl').resolve_left fun heq => hne heq.symm
  exact Pool.notMem_other h.nodup hc l' hmem hc'

/-- A chain has one head, and a head one chain. -/
theorem Server.Owns.eq_of_head {p : Pool ℕ} (h : s.Owns p) (hl : l ∈ p.owners)
    (hl' : l' ∈ p.owners) (hhead : l.headD endOfChain = l'.headD endOfChain) : l = l' := by
  obtain ⟨a, l, rfl⟩ := List.exists_cons_of_ne_nil (h.owners l hl).1
  obtain ⟨b, l', rfl⟩ := List.exists_cons_of_ne_nil (h.owners l' hl').1
  obtain rfl : a = b := hhead
  exact h.owner_unique hl hl' List.mem_cons_self List.mem_cons_self

/-- A walk that goes one name further. -/
theorem Server.Walk.concat {l'' : List ℕ} (hw : s.Walk env os toks l l') (hl' : l' ∈ os)
    (hlook : s.lookup env l' n = some e) (htype : e.type = dirEntryTypeSubdir)
    (hfirst : e.firstCluster.toNat = l''.headD endOfChain) :
    s.Walk env os (toks ++ [n]) l l'' := by
  induction hw with
  | nil l => exact .cons hl' hlook htype hfirst (.nil l'')
  | cons hl hlook' htype' hfirst' _ ih => exact .cons hl hlook' htype' hfirst' (ih hl' hlook)

namespace Server.Holds

/-- More reads do not matter. -/
theorem preads (hh : s.Holds env h f os dirs) (k : ℕ) :
    ({ s with preads := k } : Server).Holds env h f os dirs := by
  have hwf := hh.wellFormed
  exact ⟨⟨hwf.owns.preads k, hwf.owned, hwf.root, hwf.unique, hwf.inside, hwf.heads, hwf.own⟩,
    hh.root, hh.child, hh.rootless, hh.dirData, hh.named,
    fun l hl n hn e he => (hh.object l hl n hn e he).congr rfl fun _ _ => rfl,
    hh.covered, hh.reached⟩

/-- The name of a child is in a slot of its parent, and no other slot has it. -/
theorem exists_child_slot (hh : s.Holds env h f os dirs) (hl : l ∈ dirs) (hn : ChildName n)
    (hlook : s.lookup env l n = some e) :
    ∃ x ∈ s.slots l, s.slotEntry env x = e ∧ e.nameStr = n ∧ s.Inside x
      ∧ (s.slotEntry env x).isChild = true
      ∧ ∀ y ∈ s.slots l, (s.slotEntry env y).nameStr = n → y = x := by
  obtain ⟨x, o, os', hx, rfl, hin, hu, -, -⟩ := hh.wellFormed.exists_slot hl hlook
    hn.isName.ne_nil hn.notDot hn.notDotdot
  have hname := (lookup_eq_some hlook).1
  exact ⟨x, hx, rfl, hname, hin, hn.isChild hname, hu⟩

theorem child_of_lookup (hh : s.Holds env h f os dirs) (hl : l ∈ dirs) (hn : ChildName n)
    (hlook : s.lookup env l n = some e) :
    h.child (l.headD endOfChain) n = some e.firstCluster.toNat :=
  (hh.child _ _ _).mpr ⟨hn, l, hl, rfl, e, hlook, rfl⟩

/-- A name that is not found is not there. -/
theorem child_of_not_found (hh : s.Holds env h f os dirs) (hl : l ∈ dirs)
    (hlook : s.lookup env l n = none) : h.child (l.headD endOfChain) n = none := by
  by_contra hne
  obtain ⟨k, hk⟩ := Option.ne_none_iff_exists'.mp hne
  obtain ⟨-, l', hl', hhead, e, he, -⟩ := (hh.child _ _ _).mp hk
  have hwf := hh.wellFormed
  rw [hwf.owns.eq_of_head (hwf.owned l' hl') (hwf.owned l hl) hhead, hlook] at he
  cases he

/-- **The hierarchy is proper**: an entry heads a chain that no other entry heads. -/
theorem proper (hh : s.Holds env h f os dirs) : h.Proper where
  unique := by
    intro i j k m n hm hn
    have hwf := hh.wellFormed
    obtain ⟨hmn, l, hl, rfl, e, he, hek⟩ := (hh.child _ _ _).mp hm
    obtain ⟨hnn, l', hl', rfl, e', he', hek'⟩ := (hh.child _ _ _).mp hn
    obtain ⟨x, hx, rfl, hxn, -, hxc, -⟩ := hh.exists_child_slot hl hmn he
    obtain ⟨y, hy, rfl, hyn, -, hyc, -⟩ := hh.exists_child_slot hl' hnn he'
    obtain rfl : y = x := hwf.own l hl x hx l' hl' y hy hxc hyc
      (UInt32.toNat_inj.mp (hek'.trans hek.symm))
    refine ⟨?_, hxn.symm.trans hyn⟩
    rw [hwf.owns.owner_unique (hwf.owned l hl) (hwf.owned l' hl') (Server.mem_slots.mp hx).1
      (Server.mem_slots.mp hy).1]
  rootless := hh.rootless
  leaf := by
    intro i n hd
    by_contra hne
    obtain ⟨k, hk⟩ := Option.ne_none_iff_exists'.mp hne
    obtain ⟨-, l, hl, rfl, -⟩ := (hh.child _ _ _).mp hk
    exact hd (hh.dirData l hl)

/-- An empty directory has no children. -/
theorem childless (hh : s.Holds env h f os dirs)
    (hempty : ∀ o ∈ dirs, o.headD endOfChain = c → s.EmptyDir env o) (n : List UInt8) :
    h.child c n = none := by
  by_contra hne
  obtain ⟨k, hk⟩ := Option.ne_none_iff_exists'.mp hne
  obtain ⟨hn, l, hl, hhead, e, he, -⟩ := (hh.child _ _ _).mp hk
  obtain ⟨y, hy, -, -, -, hyc, -⟩ := hh.exists_child_slot hl hn he
  rw [hempty l hl hhead y hy] at hyc
  cases hyc

/-- The directory of a first cluster. -/
theorem exists_dir (hh : s.Holds env h f os dirs) (hl : l ∈ dirs) (hn : ChildName n)
    (hlook : s.lookup env l n = some e) (hd : h.data e.firstCluster.toNat = none) :
    e.type = dirEntryTypeSubdir ∧ ∃ l' ∈ dirs, l'.headD endOfChain = e.firstCluster.toNat := by
  cases hh.object l hl n hn e hlook with
  | dir htype l' hl' hhead => exact ⟨htype, l', hl', hhead⟩
  | file htype o ho hhead hcovers hdata =>
    rw [hd] at hdata
    cases hdata

/-- **A path of the hierarchy is a walk on the disk**, if it leads to a directory. -/
theorem exists_walk (hh : s.Holds env h f os dirs) (hwalk : h.walk h.root toks = some c)
    (hd : h.data c = none) :
    (∀ x ∈ toks, ChildName x) ∧ ∃ l ∈ dirs, l.headD endOfChain = c
      ∧ ∃ r ∈ dirs, r.headD endOfChain = s.superblock.rootClusterStart
        ∧ s.Walk env dirs toks r l := by
  have hwf := hh.wellFormed
  induction toks using List.reverseRecOn generalizing c with
  | nil =>
    cases hwalk
    obtain ⟨r, hr, hroot⟩ := hwf.root
    exact ⟨fun x hx => absurd hx List.not_mem_nil, r, hr, hroot.trans hh.root.symm, r, hr, hroot,
      .nil r⟩
  | append_singleton toks n ih =>
    obtain ⟨i, hi, hchild⟩ := Hierarchy.walk_concat_eq_some.mp hwalk
    obtain ⟨hn, l, hl, rfl, e, he, rfl⟩ := (hh.child _ _ _).mp hchild
    obtain ⟨hnames, l₀, hl₀, hhead, r, hr, hroot, hw⟩ := ih hi (hh.dirData l hl)
    obtain rfl := hwf.owns.eq_of_head (hwf.owned l₀ hl₀) (hwf.owned l hl) hhead
    obtain ⟨htype, l', hl', hhead'⟩ := hh.exists_dir hl hn he hd
    refine ⟨?_, l', hl', hhead', r, hr, hroot, hw.concat hl he htype hhead'.symm⟩
    intro x hx
    rcases List.mem_append.mp hx with hx | hx
    · exact hnames x hx
    · rw [List.mem_singleton.mp hx]
      exact hn

/-- **The walk of the code** arrives where the path leads, if that is a directory, and says
so if not. -/
theorem reads_walkPath (hh : s.Holds env h f os dirs) (hr : env.ReadsFull)
    (hnames : ∀ x ∈ toks, ChildName x) (hl : l ∈ dirs) :
    s.Reads env (walkPath toks (l.headD endOfChain))
      ((h.walk (l.headD endOfChain) toks).filter fun c => (h.data c).isNone) := by
  have hwf := hh.wellFormed
  induction toks generalizing l with
  | nil =>
    rw [Hierarchy.walk_nil, Option.filter_some_pos (by rw [hh.dirData l hl]; rfl)]
    exact .pure s env _
  | cons tok toks ih =>
    have htok := hnames tok List.mem_cons_self
    have htoks : ∀ x ∈ toks, ChildName x := fun x hx => hnames x (List.mem_cons_of_mem _ hx)
    refine (hwf.owns.reads_find hr (hwf.owned l hl) tok).bind ?_
    cases hlook : s.lookup env l tok with
    | none =>
      rw [Hierarchy.walk, hh.child_of_not_found hl hlook]
      exact .pure s env _
    | some e =>
      rw [Hierarchy.walk, hh.child_of_lookup hl htok hlook, Option.bind_some]
      cases hh.object l hl tok htok e hlook with
      | dir htype l' hl' hhead =>
        dsimp only
        rw [if_neg (not_not_intro htype), ← hhead]
        exact ih htoks hl'
      | file htype o ho hhead hcovers hdata =>
        dsimp only
        rw [if_pos (by rw [htype]; decide)]
        have hnone : (h.walk e.firstCluster.toNat toks).filter (fun c => (h.data c).isNone)
            = none := by
          cases toks with
          | nil =>
            refine Option.filter_some_neg ?_
            rw [hdata]
            rfl
          | cons n toks =>
            rw [Hierarchy.walk, hh.proper.leaf _ n (by rw [hdata]; exact Option.some_ne_none _)]
            rfl
        rw [hnone]
        exact .pure s env _

/-- **What the lookup of a path finds**: nothing where the tree has nothing, and the entry
of the last name otherwise. -/
inductive Found (s : Server) (env : Env) (h : Hierarchy ℕ (List UInt8) (List UInt8))
    (dirs : Multiset (List ℕ)) (toks : List (List UInt8)) (name : List UInt8) :
    Option FatDirEntry → Prop where
  | missing (hwalk : h.walk h.root (toks ++ [name]) = none) : Found s env h dirs toks name none
  | entry (l : List ℕ) (e : FatDirEntry) (hl : l ∈ dirs)
    (hwalk : h.walk h.root toks = some (l.headD endOfChain))
    (hlook : s.lookup env l name = some e) : Found s env h dirs toks name (some e)

/-- **The lookup of a path walks the hierarchy.** -/
theorem reads_find (hh : s.Holds env h f os dirs) (hr : env.ReadsFull)
    (hnames : ∀ x ∈ toks, ChildName x) (hname : ChildName name) :
    ∃ a, s.Reads env (findDirEntryByPath (pathOf (toks ++ [name]))) a
      ∧ Found s env h dirs toks name a := by
  have hwf := hh.wellFormed
  obtain ⟨root, hroot, hhead⟩ := hwf.root
  have hcomp : ∀ x ∈ toks ++ [name], IsComponent x := by
    intro x hx
    rcases List.mem_append.mp hx with hx | hx
    · exact ⟨(hnames x hx).isName.ne_nil, (hnames x hx).isName.noSlash⟩
    · rw [List.mem_singleton.mp hx]
      exact ⟨hname.isName.ne_nil, hname.isName.noSlash⟩
  have hstart : ∀ a, s.Reads env (walkPath toks (root.headD endOfChain) >>= findLast name) a →
      s.Reads env (findDirEntryByPath (pathOf (toks ++ [name]))) a := by
    intro a ha k
    obtain ⟨k', hk'⟩ := ha k
    rw [hhead] at hk'
    exact ⟨k', (findDirEntryByPath_eq hcomp).trans hk'⟩
  have hwalk := hh.reads_walkPath hr hnames hroot
  rw [show root.headD endOfChain = h.root from hhead.trans hh.root.symm] at hwalk hstart
  cases hc : (h.walk h.root toks).filter fun c => (h.data c).isNone with
  | none =>
    rw [hc] at hwalk
    refine ⟨none, hstart none (hwalk.bind (.pure s env _)), .missing ?_⟩
    rw [Hierarchy.walk_concat]
    cases hw : h.walk h.root toks with
    | none => rfl
    | some c =>
      refine hh.proper.leaf c name fun hd => ?_
      rw [hw, Option.filter_some_pos (by rw [hd]; rfl)] at hc
      cases hc
  | some c =>
    rw [hc] at hwalk
    obtain ⟨hw, hd⟩ := Option.filter_eq_some_iff.mp hc
    obtain ⟨-, l, hl, rfl, -⟩ := hh.exists_walk hw (Option.isNone_iff_eq_none.mp hd)
    refine ⟨s.lookup env l name, hstart _ (hwalk.bind
      (hwf.owns.reads_find hr (hwf.owned l hl) name)), ?_⟩
    cases hlook : s.lookup env l name with
    | none =>
      refine .missing ?_
      rw [Hierarchy.walk_concat, hw, Option.bind_some]
      exact hh.child_of_not_found hl hlook
    | some e => exact .entry l e hl hw hlook

end Server.Holds

end Fat
