import LLPFilesystem.FatHierarchy

/-!
# Changes of a hierarchy on disk

What becomes of the hierarchy that a server holds when a file gets new contents
(`Server.Rewrites`), when an object is removed (`Server.Removes`), and when one is made
(`Server.Inserts`). Each change is known slot by slot: one slot holds another entry, the
others what they held. Slots cover their clusters, so the contents of other files are what
they were (`Server.contents_of_slots`), and a directory keeps its children but for the one
name.
-/

namespace Fat

variable {env : Env} {s t : Server} {c d i k : ℕ} {f l l' o pl : List ℕ}
  {os dirs : Multiset (List ℕ)} {e e' : FatDirEntry} {x y : ℕ × ℕ} {name n : List UInt8}
  {toks : List (List UInt8)} {h : Hierarchy ℕ (List UInt8) (List UInt8)}

/-! ## Slots cover clusters -/

/-- **A cluster whose slots hold what they held** is what it was. -/
theorem Server.cluster_of_slots
    (hsb : t.superblock.bytePerCluster = s.superblock.bytePerCluster) (hc : c ∈ l)
    (h : ∀ y ∈ s.slots l, t.slotEntry env y = s.slotEntry env y)
    (hi : i < s.superblock.bytePerCluster) : t.cluster c i = s.cluster c i := by
  -- the slot that `i` lies in, and the place of `i` in its entry
  set off := dirEntrySize * (i / dirEntrySize) with hoff
  have hle : off ≤ i := Nat.mul_div_le i dirEntrySize
  have hmod : i - off < dirEntrySize := by
    have hlt := Nat.lt_mul_div_succ i (show 0 < dirEntrySize by decide)
    rw [Nat.mul_add, Nat.mul_one] at hlt
    omega
  have hslot : (c, off) ∈ s.slots l :=
    Server.mem_slots.mpr ⟨hc, mem_dirSlots.mpr ⟨⟨_, rfl⟩, lt_of_le_of_lt hle hi⟩⟩
  have hbyte : ∀ u : Server, u.superblock.bytePerCluster = s.superblock.bytePerCluster →
      (u.slotEntry env (c, off)).bytes (i - off) = u.cluster c i := by
    intro u hu
    have hin : i < u.superblock.bytePerCluster := hu ▸ hi
    show (FatDirEntry.ofBytes ((u.clusterBuf env c).shift off)).bytes (i - off) = _
    rw [FatDirEntry.bytes_ofBytes hmod]
    show u.clusterBuf env c (off + (i - off)) = _
    rw [Nat.add_sub_cancel' hle, Server.clusterBuf_of_lt hin]
  rw [← hbyte t hsb, ← hbyte s rfl, h _ hslot]

/-- **So are the contents of a file.** -/
theorem Server.contents_of_slots
    (hsb : t.superblock.bytePerCluster = s.superblock.bytePerCluster)
    (h : ∀ y ∈ s.slots o, t.slotEntry env y = s.slotEntry env y) (size : ℕ) :
    t.contents o size = s.contents o size := by
  unfold Server.contents pagedList
  rw [hsb]
  congr 1
  refine List.flatMap_congr fun c hc => List.map_congr_left fun i hi => ?_
  exact Server.cluster_of_slots hsb hc h (List.mem_range.mp hi)

/-- The other owners. -/
theorem Server.Owns.mem_erase {p : Pool ℕ} (h : s.Owns p) (hl : l ∈ p.owners) :
    o ∈ p.owners.erase l ↔ o ∈ p.owners ∧ o ≠ l := by
  refine ⟨fun ho => ⟨Multiset.mem_of_mem_erase ho, ?_⟩, fun ho =>
    (Multiset.mem_erase_of_ne ho.2).mpr ho.1⟩
  rintro rfl
  obtain ⟨f, os⟩ := p
  obtain ⟨a, o', rfl⟩ := List.exists_cons_of_ne_nil (h.owners o hl).1
  have hnd := h.nodup
  rw [show os = (a :: o') ::ₘ os.erase (a :: o') from (Multiset.cons_erase hl).symm] at hnd
  exact Pool.notMem_other hnd List.mem_cons_self _ ho List.mem_cons_self

/-- A lookup depends on the names in the slots. -/
theorem Server.lookup_of_names (hsb : t.superblock.bytePerCluster = s.superblock.bytePerCluster)
    (h : ∀ y ∈ s.slots l, (t.slotEntry env y).nameStr = (s.slotEntry env y).nameStr)
    (n : List UInt8) :
    t.lookup env l n = (s.findSlot env l (fun e => e.nameStr == n)).map (t.slotEntry env) := by
  have hfind : t.findSlot env l (fun e => e.nameStr == n)
      = s.findSlot env l (fun e => e.nameStr == n) :=
    Server.findSlot_congr hsb fun y hy => by rw [h y hy]
  rw [Server.lookup, hfind]

namespace Server.Holds

/-- The chain of a file is not that of a directory. -/
theorem file_ne_dir (hh : s.Holds env h f os dirs) (hl : l ∈ dirs)
    (hdata : h.data (o.headD endOfChain) ≠ none) : l ≠ o := fun heq =>
  hdata (heq ▸ hh.dirData l hl)

end Server.Holds

/-! ## New contents -/

/-- **A file is rewritten**: its chain is `o'` then, and its entry says how long it is. -/
structure Server.Rewrites (s t : Server) (env : Env)
    (h : Hierarchy ℕ (List UInt8) (List UInt8)) (f f' o o' : List ℕ)
    (os dirs : Multiset (List ℕ)) (pl : List ℕ) (x : ℕ × ℕ) (e e' : FatDirEntry) : Prop where
  before : s.Holds env h f (o ::ₘ os) dirs
  file : s.HasFile env f o os pl x e
  dir : pl ∈ dirs
  childName : ChildName e.nameStr
  owns : t.Owns ⟨f', o' ::ₘ os⟩
  head : o'.headD endOfChain = o.headD endOfChain
  superblock : ∃ v, t.superblock = (s.setFree v).superblock
  entry : t.slotEntry env x = e'
  name : e'.nameStr = e.nameStr
  first : e'.firstCluster = e.firstCluster
  type : e'.type = e.type
  others : ∀ l ∈ os, ∀ y ∈ s.slots l, y ≠ x → t.slotEntry env y = s.slotEntry env y
  covers : e'.size.toNat ≤ o'.length * s.superblock.bytePerCluster
  all : ∀ c, c ∈ f ∨ c ∈ o → c ∈ f' ∨ c ∈ o'

namespace Server.Rewrites

variable {f' o' : List ℕ} (hr : s.Rewrites t env h f f' o o' os dirs pl x e e')
include hr

theorem bytePerCluster : t.superblock.bytePerCluster = s.superblock.bytePerCluster :=
  bytePerCluster_of_setFree hr.superblock

theorem root_eq : t.superblock.rootClusterStart = s.superblock.rootClusterStart :=
  root_of_setFree hr.superblock

theorem slots_eq (l : List ℕ) : t.slots l = s.slots l := Server.slots_congr hr.bytePerCluster

/-- The entry is that of a file. -/
theorem data_ne_none : h.data e.firstCluster.toNat ≠ none := by
  cases hr.before.object pl hr.dir _ hr.childName e hr.file.lookup with
  | dir htype => rw [hr.file.type] at htype; exact absurd htype (by decide)
  | file _ _ _ _ _ hdata => rw [hdata]; exact Option.some_ne_none _

/-- The chain of the file is no directory's. -/
theorem dir_owned (hl : l ∈ dirs) : l ∈ os :=
  (Multiset.mem_cons.mp (hr.before.wellFormed.owned l hl)).resolve_left
    (hr.before.file_ne_dir hl (by rw [hr.file.head]; exact hr.data_ne_none))

theorem isChild : (s.slotEntry env x).isChild = true := by
  rw [hr.file.entry]
  exact hr.childName.isChild rfl

/-- **The slots of the directories** keep their names and first clusters. -/
theorem slot (hl : l ∈ dirs) (hy : y ∈ s.slots l) :
    (t.slotEntry env y).nameStr = (s.slotEntry env y).nameStr
      ∧ (t.slotEntry env y).firstCluster = (s.slotEntry env y).firstCluster
      ∧ (t.slotEntry env y).isChild = (s.slotEntry env y).isChild := by
  by_cases hyx : y = x
  · subst hyx
    rw [hr.isChild, hr.entry, hr.file.entry]
    exact ⟨hr.name, hr.first, hr.childName.isChild hr.name⟩
  · rw [hr.others l (hr.dir_owned hl) y hy hyx]
    exact ⟨rfl, rfl, rfl⟩

theorem lookup_eq (hl : l ∈ dirs) (n : List UInt8) : t.lookup env l n
    = (s.findSlot env l (fun e => e.nameStr == n)).map (t.slotEntry env) :=
  Server.lookup_of_names hr.bytePerCluster (fun _ hy => (hr.slot hl hy).1) n

/-- The directories are well formed. -/
theorem wellFormed : t.WellFormed env f' (o' ::ₘ os) dirs := by
  have hwf := hr.before.wellFormed
  refine ⟨hr.owns, fun l hl => Multiset.mem_cons_of_mem (hr.dir_owned hl), ?_,
    fun l hl y hy z hz => ?_, fun l hl y hy hc => ?_, fun l hl y hy hc => ?_,
    fun l hl y hy l' hl' z hz hcy hcz hyz => ?_⟩
  · obtain ⟨r, hroot, hhead⟩ := hwf.root
    exact ⟨r, hroot, hhead.trans hr.root_eq.symm⟩
  · rw [hr.slots_eq] at hy hz
    rw [(hr.slot hl hy).1, (hr.slot hl hz).1]
    exact hwf.unique l hl y hy z hz
  · rw [hr.slots_eq] at hy
    rw [(hr.slot hl hy).2.2] at hc
    rw [Server.Inside, hr.bytePerCluster]
    exact hwf.inside l hl y hy hc
  · rw [hr.slots_eq] at hy
    rw [(hr.slot hl hy).2.2] at hc
    rw [(hr.slot hl hy).2.1]
    have hmem : l ∈ o' ::ₘ os := Multiset.mem_cons_of_mem (hr.dir_owned hl)
    obtain ⟨q, hq, hqhead⟩ := hwf.heads l hl y hy hc
    obtain ⟨hqo, hql⟩ := (hwf.owns.mem_erase (hwf.owned l hl)).mp hq
    rcases Multiset.mem_cons.mp hqo with rfl | hqos
    · refine ⟨o', (hr.owns.mem_erase hmem).mpr ⟨Multiset.mem_cons_self _ _, ?_⟩, hqhead.trans
        hr.head.symm⟩
      rintro rfl
      obtain ⟨a, o', rfl⟩ := List.exists_cons_of_ne_nil (hr.owns.owners o' hmem).1
      exact Pool.notMem_other hr.owns.nodup List.mem_cons_self _ (hr.dir_owned hl)
        List.mem_cons_self
    · exact ⟨q, (hr.owns.mem_erase hmem).mpr ⟨Multiset.mem_cons_of_mem hqos, hql⟩, hqhead⟩
  · rw [hr.slots_eq] at hy hz
    rw [(hr.slot hl hy).2.2] at hcy
    rw [(hr.slot hl' hz).2.2] at hcz
    rw [(hr.slot hl hy).2.1, (hr.slot hl' hz).2.1] at hyz
    exact hwf.own l hl y hy l' hl' z hz hcy hcz hyz

/-- **Another entry** heads another chain. -/
theorem ne_first (hl : l ∈ dirs) (hy : y ∈ s.slots l) (hn : ChildName n)
    (hyn : (s.slotEntry env y).nameStr = n) (hyx : y ≠ x) :
    (s.slotEntry env y).firstCluster ≠ e.firstCluster := by
  intro heq
  refine hyx (hr.before.wellFormed.own pl hr.dir x hr.file.slot l hl y hy hr.isChild
    (hn.isChild hyn) (heq.trans ?_))
  rw [hr.file.entry]

/-- **Another file** keeps its contents: the slot of the entry is in a directory. -/
theorem contents_eq {q : List ℕ} (hq : q ∈ os) (hdata : h.data (q.headD endOfChain) ≠ none)
    (size : ℕ) : t.contents q size = s.contents q size := by
  refine Server.contents_of_slots hr.bytePerCluster (fun z hz => hr.others q hq z hz ?_) size
  rintro rfl
  have heq := hr.before.wellFormed.owns.owner_unique (Multiset.mem_cons_of_mem hq)
    (Multiset.mem_cons_of_mem (hr.dir_owned hr.dir)) (Server.mem_slots.mp hz).1
    hr.file.slot_mem
  exact hr.before.file_ne_dir hr.dir hdata heq.symm

/-- **What a name stands for.** -/
theorem object (hl : l ∈ dirs) (hn : ChildName n) {e₁ : FatDirEntry}
    (he : t.lookup env l n = some e₁) :
    t.Object (h.setData e.firstCluster.toNat (t.contents o' e'.size.toNat)) (o' ::ₘ os) dirs
      e₁ := by
  rw [hr.lookup_eq hl] at he
  obtain ⟨y, hy, rfl⟩ := Option.map_eq_some_iff.mp he
  obtain ⟨hyl, hyn⟩ := Server.findSlot_some hy
  have hyn : (s.slotEntry env y).nameStr = n := beq_iff_eq.mp hyn
  by_cases hyx : y = x
  · rw [hyx, hr.entry]
    refine .file (hr.type.trans hr.file.type) o' (Multiset.mem_cons_self _ _) ?_ ?_ ?_
    · rw [hr.head, hr.file.head, hr.first]
    · rw [hr.bytePerCluster]
      exact hr.covers
    · show Function.update h.data _ _ _ = _
      rw [hr.first, Function.update_self]
  · rw [hr.others l (hr.dir_owned hl) y hyl hyx]
    have hother := hr.ne_first hl hyl hn hyn hyx
    cases hr.before.object l hl n hn (s.slotEntry env y) (by rw [Server.lookup, hy]; rfl) with
    | dir htype l' hl' hhead => exact .dir htype l' hl' hhead
    | file htype q hq hhead hcovers hdata =>
      have hne : q ≠ o := by
        rintro rfl
        exact hother (UInt32.toNat_inj.mp (hhead.symm.trans hr.file.head))
      have hq' := (Multiset.mem_cons.mp hq).resolve_left hne
      refine .file htype q (Multiset.mem_cons_of_mem hq') hhead
        (by rwa [hr.bytePerCluster]) ?_
      show Function.update h.data _ _ _ = _
      rw [Function.update_of_ne fun heq => hother (UInt32.toNat_inj.mp heq), hdata,
        hr.contents_eq hq' (by rw [hhead, hdata]; exact Option.some_ne_none _)]

/-- **The file has new contents**, and nothing else is different. -/
theorem holds : t.Holds env (h.setData e.firstCluster.toNat (t.contents o' e'.size.toNat)) f'
    (o' ::ₘ os) dirs where
  wellFormed := hr.wellFormed
  root := hr.before.root.trans hr.root_eq.symm
  child i n k := by
    refine (hr.before.child i n k).trans (and_congr_right fun _ => ?_)
    refine exists_congr fun l => and_congr_right fun hl => and_congr_right fun _ => ?_
    rw [hr.lookup_eq hl, Server.lookup]
    cases hy : s.findSlot env l (fun e => e.nameStr == n) with
    | none => simp
    | some y => simp [(hr.slot hl (Server.findSlot_some hy).1).2.1]
  rootless := hr.before.rootless
  dirData l hl := by
    show Function.update h.data _ _ _ = none
    have hne : l.headD endOfChain ≠ e.firstCluster.toNat := fun heq => by
      have hd := hr.before.dirData l hl
      rw [heq] at hd
      exact hr.data_ne_none hd
    rw [Function.update_of_ne hne]
    exact hr.before.dirData l hl
  named l hl y hy hc := by
    rw [hr.slots_eq] at hy
    rw [(hr.slot hl hy).2.2] at hc
    rw [(hr.slot hl hy).1]
    exact hr.before.named l hl y hy hc
  object _ hl _ hn _ he := hr.object hl hn he
  covered c hc := by
    rcases hr.before.covered c ((isData_of_setFree hr.superblock).mp hc) with hcf | ⟨q, hq, hcq⟩
    · exact (hr.all c (Or.inl hcf)).imp_right fun hco => ⟨o', Multiset.mem_cons_self _ _, hco⟩
    · rcases Multiset.mem_cons.mp hq with rfl | hq
      · exact (hr.all c (Or.inr hcq)).imp_right fun hco => ⟨o', Multiset.mem_cons_self _ _, hco⟩
      · exact Or.inr ⟨q, Multiset.mem_cons_of_mem hq, hcq⟩
  reached q hq := by
    obtain ⟨p, hp⟩ : ∃ p, h.walk h.root p = some (q.headD endOfChain) := by
      rcases Multiset.mem_cons.mp hq with rfl | hq
      · rw [hr.head]
        exact hr.before.reached o (Multiset.mem_cons_self _ _)
      · exact hr.before.reached q (Multiset.mem_cons_of_mem hq)
    exact ⟨p, (Hierarchy.walk_setData _ _ _).trans hp⟩

end Server.Rewrites

/-! ## Removal -/

/-- **An object is removed**: its name is in the slot `x` of its directory `l`, and its chain
is `o`. If it is a directory, it has no children. -/
structure Server.Removes (s t : Server) (env : Env) (h : Hierarchy ℕ (List UInt8) (List UInt8))
    (f l o : List ℕ) (os dirs : Multiset (List ℕ)) (x : ℕ × ℕ) (n : List UInt8) : Prop where
  before : s.Holds env h f (l ::ₘ o ::ₘ os) dirs
  dir : l ∈ dirs
  childName : ChildName n
  slot : x ∈ s.slots l
  found : s.lookup env l n = some (s.slotEntry env x)
  first : (s.slotEntry env x).firstCluster.toNat = o.headD endOfChain
  empty : o ∈ dirs → s.EmptyDir env o
  removed : s.Removed t env f l o os x

namespace Server.Removes

variable {m : List UInt8} {q : List ℕ}

variable (hr : s.Removes t env h f l o os dirs x n)
include hr

theorem bytePerCluster : t.superblock.bytePerCluster = s.superblock.bytePerCluster :=
  bytePerCluster_of_setFree hr.removed.superblock

theorem root_eq : t.superblock.rootClusterStart = s.superblock.rootClusterStart :=
  root_of_setFree hr.removed.superblock

theorem slots_eq (l' : List ℕ) : t.slots l' = s.slots l' := Server.slots_congr hr.bytePerCluster

theorem nameStr_eq : (s.slotEntry env x).nameStr = n := (Server.lookup_eq_some hr.found).1

/-- The other owners keep what they own. -/
theorem kept (hq : q ∈ l ::ₘ o ::ₘ os) (hqo : q ≠ o) : q ∈ l ::ₘ os := by
  rcases Multiset.mem_cons.mp hq with rfl | hq
  · exact Multiset.mem_cons_self _ _
  · exact Multiset.mem_cons_of_mem ((Multiset.mem_cons.mp hq).resolve_left hqo)

/-- The slot is in one directory. -/
theorem eq_dir (hq : q ∈ l ::ₘ o ::ₘ os) (hx : x ∈ s.slots q) : q = l :=
  hr.before.wellFormed.owns.owner_unique hq (hr.before.wellFormed.owned l hr.dir)
    (Server.mem_slots.mp hx).1 (Server.mem_slots.mp hr.slot).1

/-- **A slot with a name** is another slot of a directory, and holds what it held. -/
theorem live (hl : l' ∈ dirs.filter (· ≠ o)) (hy : y ∈ t.slots l')
    (hne : (t.slotEntry env y).nameStr ≠ []) :
    l' ∈ dirs ∧ y ∈ s.slots l' ∧ y ≠ x ∧ t.slotEntry env y = s.slotEntry env y := by
  obtain ⟨hl, hlo⟩ := Multiset.mem_filter.mp hl
  rw [hr.slots_eq] at hy
  have hyx : y ≠ x := by
    rintro rfl
    exact hne (FatDirEntry.nameStr_of_isFree hr.removed.free)
  exact ⟨hl, hy, hyx,
    hr.removed.others l' (hr.kept (hr.before.wellFormed.owned l' hl) hlo) y hy hyx⟩

/-- So is one that holds a child. -/
theorem live_child (hl : l' ∈ dirs.filter (· ≠ o)) (hy : y ∈ t.slots l')
    (hc : (t.slotEntry env y).isChild = true) :
    l' ∈ dirs ∧ y ∈ s.slots l' ∧ y ≠ x ∧ t.slotEntry env y = s.slotEntry env y :=
  hr.live hl hy (FatDirEntry.name_of_isChild hc)

/-- **Another child** heads another chain. -/
theorem ne_first (hl : l' ∈ dirs) (hy : y ∈ s.slots l')
    (hc : (s.slotEntry env y).isChild = true) (hyx : y ≠ x) :
    (s.slotEntry env y).firstCluster.toNat ≠ o.headD endOfChain := fun heq =>
  hyx (hr.before.wellFormed.own l hr.dir x hr.slot l' hl y hy
    (hr.childName.isChild hr.nameStr_eq) hc (UInt32.toNat_inj.mp (heq.trans hr.first.symm)))

/-- **A lookup** in a directory that stays finds what it found, but for the name. -/
theorem lookup_eq (hl : l' ∈ dirs) (hlo : l' ≠ o) (hm : m ≠ []) :
    t.lookup env l' m = if l' = l ∧ m = n then none else s.lookup env l' m := by
  have hwf := hr.before.wellFormed
  have hname := hr.nameStr_eq
  by_cases hll : l' = l
  · have hu : ∀ y ∈ s.slots l, (s.slotEntry env y).nameStr = n → y = x := fun y hy hyn =>
      hwf.unique l hr.dir x hr.slot y hy (by rw [hname]; exact hr.childName.isName.ne_nil)
        (hyn.trans hname.symm)
    have hdel := hr.removed.deleted hr.slot hname hr.childName.isName.ne_nil hu
    by_cases hmn : m = n
    · rw [if_pos ⟨hll, hmn⟩, hll, hmn]
      exact hdel.gone
    · rw [if_neg fun hc => hmn hc.2, hll]
      exact hdel.other m hm hmn
  · rw [if_neg fun hc => hll hc.1]
    refine Server.lookup_congr hr.bytePerCluster fun y hy => Or.inl ?_
    refine hr.removed.others l' (hr.kept (hwf.owned l' hl) hlo) y hy ?_
    rintro rfl
    exact hll (hr.eq_dir (hwf.owned l' hl) hy)

/-- The directories that stay are well formed. -/
theorem wellFormed : t.WellFormed env (o ++ f) (l ::ₘ os) (dirs.filter (· ≠ o)) := by
  have hh := hr.before
  have hwf := hh.wellFormed
  refine ⟨hr.removed.owns, fun l' hl' => ?_, ?_, fun l' hl' y hy z hz hne hzy => ?_,
    fun l' hl' y hy hc => ?_, fun l' hl' y hy hc => ?_,
    fun l' hl' y hy l'' hl'' z hz hcy hcz hzy => ?_⟩
  · obtain ⟨hl', hlo⟩ := Multiset.mem_filter.mp hl'
    exact hr.kept (hwf.owned l' hl') hlo
  · -- the root directory has no name, so it is not the one that goes
    obtain ⟨r, hroot, hhead⟩ := hwf.root
    refine ⟨r, Multiset.mem_filter.mpr ⟨hroot, ?_⟩, hhead.trans hr.root_eq.symm⟩
    rintro rfl
    refine hh.rootless (l.headD endOfChain) n ?_
    rw [hh.child_of_lookup hr.dir hr.childName hr.found, hr.first, hhead, hh.root]
  · obtain ⟨-, hys, -, hye⟩ := hr.live hl' hy hne
    obtain ⟨hld, hzs, -, hze⟩ := hr.live hl' hz (by rw [hzy]; exact hne)
    rw [hye, hze] at hzy
    rw [hye] at hne
    exact hwf.unique l' hld y hys z hzs hne hzy
  · obtain ⟨hld, hys, -, hye⟩ := hr.live_child hl' hy hc
    rw [Server.Inside, hr.bytePerCluster]
    exact hwf.inside l' hld y hys (by rw [← hye]; exact hc)
  · obtain ⟨hld, hys, hyx, hye⟩ := hr.live_child hl' hy hc
    have hc' : (s.slotEntry env y).isChild = true := by rw [← hye]; exact hc
    obtain ⟨q, hq, hhead⟩ := hwf.heads l' hld y hys hc'
    obtain ⟨hqo, hql⟩ := (hwf.owns.mem_erase (hwf.owned l' hld)).mp hq
    have hqne : q ≠ o := fun heq => hr.ne_first hld hys hc' hyx (by rw [hhead, heq])
    have hlt : l' ∈ l ::ₘ os := hr.kept (hwf.owned l' hld) (Multiset.mem_filter.mp hl').2
    exact ⟨q, (hr.removed.owns.mem_erase hlt).mpr ⟨hr.kept hqo hqne, hql⟩, by rw [hye]; exact hhead⟩
  · obtain ⟨hld, hys, -, hye⟩ := hr.live_child hl' hy hcy
    obtain ⟨hld', hzs, -, hze⟩ := hr.live_child hl'' hz hcz
    rw [hye] at hcy hzy
    rw [hze] at hcz hzy
    exact hwf.own l' hld y hys l'' hld' z hzs hcy hcz hzy

/-- **The children** of the directories that stay. -/
theorem child_iff {i k : ℕ} :
    (h.remove (l.headD endOfChain) n).child i m = some k ↔ ChildName m
      ∧ ∃ l' ∈ dirs.filter (· ≠ o), l'.headD endOfChain = i
      ∧ ∃ e, t.lookup env l' m = some e ∧ e.firstCluster.toNat = k := by
  have hh := hr.before
  have hwf := hh.wellFormed
  show (if i = l.headD endOfChain ∧ m = n then none else h.child i m) = some k ↔ _
  constructor
  · intro hk
    by_cases hi : i = l.headD endOfChain ∧ m = n
    · rw [if_pos hi] at hk
      cases hk
    · rw [if_neg hi] at hk
      obtain ⟨hm, l', hl', rfl, e, he, hek⟩ := (hh.child _ _ _).mp hk
      have hlo : l' ≠ o := by
        rintro rfl
        obtain ⟨y, hy, -, -, -, hc, -⟩ := hh.exists_child_slot hl' hm he
        rw [hr.empty hl' y hy] at hc
        cases hc
      refine ⟨hm, l', Multiset.mem_filter.mpr ⟨hl', hlo⟩, rfl, e, ?_, hek⟩
      rw [hr.lookup_eq hl' hlo hm.isName.ne_nil, if_neg, he]
      rintro ⟨rfl, rfl⟩
      exact hi ⟨rfl, rfl⟩
  · rintro ⟨hm, l', hl', rfl, e, he, hek⟩
    obtain ⟨hld, hlo⟩ := Multiset.mem_filter.mp hl'
    rw [hr.lookup_eq hld hlo hm.isName.ne_nil] at he
    by_cases hlm : l' = l ∧ m = n
    · rw [if_pos hlm] at he
      cases he
    · rw [if_neg hlm] at he
      rw [if_neg, hh.child_of_lookup hld hm he, hek]
      rintro ⟨hhead, rfl⟩
      exact hlm ⟨hwf.owns.eq_of_head (hwf.owned l' hld) (hwf.owned l hr.dir) hhead, rfl⟩

/-- **What the other names stand for.** -/
theorem object (hl : l' ∈ dirs.filter (· ≠ o)) (hm : ChildName m)
    (he : t.lookup env l' m = some e) :
    t.Object (h.remove (l.headD endOfChain) n) (l ::ₘ os) (dirs.filter (· ≠ o)) e := by
  have hh := hr.before
  have hwf := hh.wellFormed
  obtain ⟨hld, hlo⟩ := Multiset.mem_filter.mp hl
  rw [hr.lookup_eq hld hlo hm.isName.ne_nil] at he
  by_cases hlm : l' = l ∧ m = n
  · rw [if_pos hlm] at he
    cases he
  · rw [if_neg hlm] at he
    obtain ⟨y, hy, rfl, hym, -, hyc, -⟩ := hh.exists_child_slot hld hm he
    have hyx : y ≠ x := by
      rintro rfl
      exact hlm ⟨hr.eq_dir (hwf.owned l' hld) hy, hym.symm.trans hr.nameStr_eq⟩
    have hne := hr.ne_first hld hy hyc hyx
    cases hh.object l' hld m hm _ he with
    | dir htype q hq hhead =>
      refine .dir htype q (Multiset.mem_filter.mpr ⟨hq, ?_⟩) hhead
      rintro rfl
      exact hne hhead.symm
    | file htype q hq hhead hcovers hdata =>
      have hqo : q ≠ o := by
        rintro rfl
        exact hne hhead.symm
      have hql : l ≠ q :=
        hh.file_ne_dir hr.dir (by rw [hhead, hdata]; exact Option.some_ne_none _)
      refine .file htype q (hr.kept hq hqo) hhead (by rwa [hr.bytePerCluster]) ?_
      show h.data _ = _
      rw [hdata, Server.contents_of_slots hr.bytePerCluster fun z hz =>
        hr.removed.others q (hr.kept hq hqo) z hz ?_]
      rintro rfl
      exact hql (hr.eq_dir hq hz).symm

/-- The path to another owner does not lead through the name. -/
theorem reached (hq : q ∈ l ::ₘ os) :
    ∃ p, (h.remove (l.headD endOfChain) n).walk h.root p = some (q.headD endOfChain) := by
  have hh := hr.before
  have hwf := hh.wellFormed
  have ho : o ∈ l ::ₘ o ::ₘ os := Multiset.mem_cons_of_mem (Multiset.mem_cons_self _ _)
  have hqmem : q ∈ l ::ₘ o ::ₘ os := by
    rw [Multiset.cons_swap]
    exact Multiset.mem_cons_of_mem hq
  obtain ⟨p, hp⟩ := hh.reached q hqmem
  obtain ⟨pl, hpl⟩ := hh.reached l (hwf.owned l hr.dir)
  have hk := hh.child_of_lookup hr.dir hr.childName hr.found
  refine ⟨p, (Hierarchy.walk_remove hh.proper hpl hk (hh.childless fun q hqd hqhead => ?_)
    p).trans ?_⟩
  · have hqo : q = o := hwf.owns.eq_of_head (hwf.owned q hqd) ho (hqhead.trans hr.first)
    rw [hqo] at hqd ⊢
    exact hr.empty hqd
  · rw [if_neg, hp]
    rintro rfl
    have hpath := Hierarchy.walk_concat_eq_some.mpr ⟨_, hpl, hk⟩
    rw [hp, hr.first] at hpath
    have hqo : q = o := hwf.owns.eq_of_head hqmem ho (Option.some.inj hpath)
    obtain ⟨a, o', rfl⟩ := List.exists_cons_of_ne_nil (hwf.owns.owners o ho).1
    have hnd := hwf.owns.nodup
    rw [Multiset.cons_swap] at hnd
    exact Pool.notMem_other hnd List.mem_cons_self q hq (hqo ▸ List.mem_cons_self)

/-- **An object goes**: its name is gone from its directory, and so is its chain. -/
theorem holds : t.Holds env (h.remove (l.headD endOfChain) n) (o ++ f) (l ::ₘ os)
    (dirs.filter (· ≠ o)) where
  wellFormed := hr.wellFormed
  root := hr.before.root.trans hr.root_eq.symm
  child _ _ _ := hr.child_iff
  rootless i m := by
    show (if i = l.headD endOfChain ∧ m = n then none else h.child i m) ≠ some h.root
    split
    · exact (Option.some_ne_none _).symm
    · exact hr.before.rootless i m
  dirData l' hl' := hr.before.dirData l' (Multiset.mem_filter.mp hl').1
  named l' hl' y hy hc := by
    obtain ⟨hld, hys, -, hye⟩ := hr.live_child hl' hy hc
    rw [hye] at hc ⊢
    exact hr.before.named l' hld y hys hc
  object _ hl' _ hm _ he := hr.object hl' hm he
  covered c hc := by
    have hdata := (isData_of_setFree hr.removed.superblock).mp hc
    rcases hr.before.covered c hdata with hcf | ⟨q, hq, hcq⟩
    · exact Or.inl (List.mem_append_right _ hcf)
    · by_cases hqo : q = o
      · exact Or.inl (List.mem_append_left _ (hqo ▸ hcq))
      · exact Or.inr ⟨q, hr.kept hq hqo, hcq⟩
  reached _ hq := hr.reached hq

end Server.Removes

namespace Server.Holds

/-! ## Insertion -/

/-- A free cluster is no object of the hierarchy. -/
theorem fresh (hh : s.Holds env h (d :: f) os dirs) : h.Fresh d := by
  have hwf := hh.wellFormed
  have hfree : ∀ q ∈ os, q.headD endOfChain ≠ d := by
    rintro q hq rfl
    obtain ⟨a, q, rfl⟩ := List.exists_cons_of_ne_nil (hwf.owns.owners q hq).1
    exact Pool.notMem_free (p := ⟨_, os⟩) hwf.owns.nodup hq List.mem_cons_self List.mem_cons_self
  refine ⟨fun i m hk => ?_, fun m => ?_, fun heq => ?_⟩
  · obtain ⟨hm, l, hl, -, e, he, hek⟩ := (hh.child _ _ _).mp hk
    obtain ⟨y, hy, rfl, -, -, hyc, -⟩ := hh.exists_child_slot hl hm he
    obtain ⟨q, hq, hhead⟩ := hwf.heads l hl y hy hyc
    exact hfree q (Multiset.mem_of_mem_erase hq) (hhead.symm.trans hek)
  · by_contra hne
    obtain ⟨k, hk⟩ := Option.ne_none_iff_exists'.mp hne
    obtain ⟨-, l, hl, hhead, -⟩ := (hh.child _ _ _).mp hk
    exact hfree l (hwf.owned l hl) hhead
  · obtain ⟨r, hr, hroot⟩ := hwf.root
    exact hfree r (hwf.owned r hr) (hroot.trans (hh.root.symm.trans heq.symm))

/-- The directories once an object has been made: one may have grown, and the object may be
one itself. -/
def madeDirs (pl g : List ℕ) (d : ℕ) (type : UInt16) (dirs : Multiset (List ℕ)) :
    Multiset (List ℕ) :=
  (if type = dirEntryTypeSubdir then {[d]} else 0) + dirs.map (grownDir pl g)

theorem mem_madeDirs {g : List ℕ} {type : UInt16} :
    l ∈ madeDirs pl g d type dirs
      ↔ type = dirEntryTypeSubdir ∧ l = [d] ∨ ∃ l₀ ∈ dirs, l = grownDir pl g l₀ := by
  unfold madeDirs
  rw [Multiset.mem_add, Multiset.mem_map]
  split
  · next ht => simp [ht, eq_comm]
  · next ht => simp [ht, eq_comm]

end Server.Holds

/-- **An object is made**: the free cluster `d` is its chain, and its name comes into the slot
`x` of the parent directory `pl`, where it was not. -/
structure Server.Inserts (s t : Server) (env : Env) (h : Hierarchy ℕ (List UInt8) (List UInt8))
    (d : ℕ) (f pl : List ℕ) (os dirs : Multiset (List ℕ)) (x : ℕ × ℕ) (k : ℕ)
    (name : List UInt8) (type : UInt16) : Prop where
  before : s.Holds env h (d :: f) (pl ::ₘ os) dirs
  dir : pl ∈ dirs
  childName : ChildName name
  absent : s.lookup env pl name = none
  fits : NameFits name
  kind : type = dirEntryTypeFile ∨ type = dirEntryTypeSubdir
  made : s.Made t env f pl os d x k name type

namespace Server.Inserts

open Server.Holds (madeDirs mem_madeDirs)

variable {m : List UInt8} {q : List ℕ} {type : UInt16}

/-- An owner keeps what it owns, and the parent directory may have grown. -/
theorem grown_owned (hl : l ∈ pl ::ₘ os) :
    grownDir pl (f.take k) l ∈ [d] ::ₘ (pl ++ f.take k) ::ₘ os := by
  unfold grownDir
  split
  · exact Multiset.mem_cons_of_mem (Multiset.mem_cons_self _ _)
  · next hlp =>
    exact Multiset.mem_cons_of_mem (Multiset.mem_cons_of_mem
      ((Multiset.mem_cons.mp hl).resolve_left hlp))

variable (hr : s.Inserts t env h d f pl os dirs x k name type)
include hr

theorem bytePerCluster : t.superblock.bytePerCluster = s.superblock.bytePerCluster :=
  hr.made.filled.bytePerCluster

theorem root_eq : t.superblock.rootClusterStart = s.superblock.rootClusterStart :=
  root_of_setFree hr.made.superblock

theorem slots_eq (l : List ℕ) : t.slots l = s.slots l := Server.slots_congr hr.bytePerCluster

/-! ### The new entry -/

theorem entry_name : (t.slotEntry env x).nameStr = name :=
  (hr.made.slotEntry hr.fits hr.childName.isName.noZero).1

theorem entry_type : (t.slotEntry env x).type = type :=
  (hr.made.slotEntry hr.fits hr.childName.isName.noZero).2.1

theorem entry_size : (t.slotEntry env x).size = 0 :=
  (hr.made.slotEntry hr.fits hr.childName.isName.noZero).2.2.1

theorem entry_first : (t.slotEntry env x).firstCluster.toNat = d := by
  have howns := hr.before.wellFormed.owns
  have hdata : s.superblock.IsData d := howns.free_data List.mem_cons_self
  rw [(hr.made.slotEntry hr.fits hr.childName.isName.noZero).2.2.2]
  exact Nat.mod_eq_of_lt (Nat.lt_trans hdata.2
    (Nat.lt_trans howns.geometry.clusterCount_lt (by decide)))

/-! ### The chains of the directories -/

theorem headD_eq (l : List ℕ) :
    (grownDir pl (f.take k) l).headD endOfChain = l.headD endOfChain :=
  headD_grownDir (hr.before.wellFormed.owns.owners pl (hr.before.wellFormed.owned pl hr.dir)).1

/-- No old chain has the new head. -/
theorem head_ne (hq : q ∈ pl ::ₘ os) : q.headD endOfChain ≠ d := by
  rintro rfl
  have howns := hr.before.wellFormed.owns
  obtain ⟨a, q, rfl⟩ := List.exists_cons_of_ne_nil (howns.owners q hq).1
  exact Pool.notMem_free (p := ⟨_, _⟩) howns.nodup hq List.mem_cons_self List.mem_cons_self

theorem grown_ne (hl : l ∈ dirs) : grownDir pl (f.take k) l ≠ [d] := fun heq =>
  hr.head_ne (hr.before.wellFormed.owned l hl) (by rw [← hr.headD_eq l, heq]; rfl)

theorem grown_inj (hl : l ∈ dirs) (hl' : l' ∈ dirs)
    (heq : grownDir pl (f.take k) l = grownDir pl (f.take k) l') : l = l' := by
  have hwf := hr.before.wellFormed
  refine hwf.owns.eq_of_head (hwf.owned l hl) (hwf.owned l' hl') ?_
  rw [← hr.headD_eq l, heq, hr.headD_eq l']

theorem other_owned (hl : l ∈ dirs) (hlp : l ≠ pl) : l ∈ os :=
  (Multiset.mem_cons.mp (hr.before.wellFormed.owned l hl)).resolve_left hlp

/-! ### The slots of the directories -/

/-- The slot of the new entry is in the parent directory. -/
theorem ne_slot (hl : l ∈ dirs) (hlp : l ≠ pl) (hy : y ∈ s.slots l) : y ≠ x := by
  rintro rfl
  have hwf := hr.before.wellFormed
  refine hlp (hwf.owns.eq_of_head (hwf.owned l hl) (hwf.owned pl hr.dir) ?_)
  have heq := hr.made.owns.owner_unique
    (Multiset.mem_cons_of_mem (Multiset.mem_cons_of_mem (hr.other_owned hl hlp)))
    (Multiset.mem_cons_of_mem (Multiset.mem_cons_self _ _)) (Server.mem_slots.mp hy).1
    (Server.mem_slots.mp hr.made.filled.slot).1
  rw [heq, ← hr.headD_eq pl, grownDir_self]

/-- **A slot with a name** is the new one, an old one, or one of the two of a new directory. -/
theorem live (hl : l' ∈ madeDirs pl (f.take k) d type dirs) (hy : y ∈ t.slots l')
    (hne : (t.slotEntry env y).nameStr ≠ []) :
    (y = x ∧ l' = grownDir pl (f.take k) pl)
      ∨ (∃ l ∈ dirs, l' = grownDir pl (f.take k) l ∧ y ∈ s.slots l ∧ y ≠ x
        ∧ t.slotEntry env y = s.slotEntry env y)
      ∨ (type = dirEntryTypeSubdir ∧ l' = [d] ∧ (y = (d, 0) ∨ y = (d, dirEntrySize))) := by
  have hm := hr.made
  rw [hr.slots_eq] at hy
  rcases mem_madeDirs.mp hl with ⟨ht, rfl⟩ | ⟨l, hld, rfl⟩
  · refine Or.inr (Or.inr ⟨ht, rfl, ?_⟩)
    by_contra hnot
    obtain ⟨h0, h1⟩ := not_or.mp hnot
    exact hne (FatDirEntry.nameStr_of_isFree ((hm.dots ht).free y
      (by rw [hr.slots_eq]; exact hy) h0 h1))
  · by_cases hlp : l = pl
    · subst hlp
      rw [grownDir_self, Server.slots_append] at hy
      by_cases hyx : y = x
      · exact Or.inl ⟨hyx, rfl⟩
      · rcases List.mem_append.mp hy with hy | hy
        · exact Or.inr (Or.inl ⟨l, hld, rfl, hy, hyx, hm.filled.old y hy hyx⟩)
        · exact absurd (FatDirEntry.nameStr_of_isFree (hm.filled.free y hy hyx)) hne
    · rw [grownDir, if_neg hlp] at hy
      exact Or.inr (Or.inl ⟨l, hld, rfl, hy, hr.ne_slot hld hlp hy,
        hm.others l (hr.other_owned hld hlp) y hy⟩)

/-- A slot with a child is the new one or an old one. -/
theorem live_child (hl : l' ∈ madeDirs pl (f.take k) d type dirs) (hy : y ∈ t.slots l')
    (hc : (t.slotEntry env y).isChild = true) :
    (y = x ∧ l' = grownDir pl (f.take k) pl)
      ∨ ∃ l ∈ dirs, l' = grownDir pl (f.take k) l ∧ y ∈ s.slots l ∧ y ≠ x
        ∧ t.slotEntry env y = s.slotEntry env y := by
  rcases hr.live hl hy (FatDirEntry.name_of_isChild hc) with hnew | hold | ⟨ht, -, hdot⟩
  · exact Or.inl hnew
  · exact Or.inr hold
  · exfalso
    rcases hdot with rfl | rfl
    · exact absurd hc (by rw [FatDirEntry.isChild, (hr.made.dots ht).dot.nameStr_eq]; simp)
    · exact absurd hc (by rw [FatDirEntry.isChild, (hr.made.dots ht).dotdot.nameStr_eq]; simp)

/-- **An old child** heads an old chain. -/
theorem ne_first (hl : l ∈ dirs) (hy : y ∈ s.slots l)
    (hc : (s.slotEntry env y).isChild = true) :
    (s.slotEntry env y).firstCluster.toNat ≠ d := by
  intro heq
  obtain ⟨q, hq, hqhead⟩ := hr.before.wellFormed.heads l hl y hy hc
  exact hr.head_ne (Multiset.mem_of_mem_erase hq) (hqhead.symm.trans heq)

/-- **A lookup** in an old directory finds what it found, and the new name. -/
theorem lookup_eq (hl : l ∈ dirs) (hm : m ≠ []) :
    t.lookup env (grownDir pl (f.take k) l) m
      = if l = pl ∧ m = name then some (t.slotEntry env x) else s.lookup env l m := by
  by_cases hlp : l = pl
  · rw [hlp, grownDir_self]
    by_cases hmn : m = name
    · rw [if_pos ⟨rfl, hmn⟩, hmn]
      exact hr.made.filled.lookup_self hr.childName.isName.ne_nil hr.entry_name hr.absent
    · rw [if_neg fun hc => hmn hc.2]
      exact hr.made.filled.lookup_of_ne hm (by rw [hr.entry_name]; exact hmn)
  · rw [if_neg fun hc => hlp hc.1, grownDir, if_neg hlp]
    exact Server.lookup_congr hr.bytePerCluster fun y hy =>
      Or.inl (hr.made.others l (hr.other_owned hl hlp) y hy)

/-- **A new directory** has no children. -/
theorem lookup_new (ht : type = dirEntryTypeSubdir) (hm : ChildName m) :
    t.lookup env [d] m = none := by
  refine Server.lookup_eq_none.mpr fun y hy hym => ?_
  have hd := hr.made.dots ht
  by_cases h0 : y = (d, 0)
  · rw [h0, hd.dot.nameStr_eq] at hym
    exact hm.notDot hym.symm
  · by_cases h1 : y = (d, dirEntrySize)
    · rw [h1, hd.dotdot.nameStr_eq] at hym
      exact hm.notDotdot hym.symm
    · rw [FatDirEntry.nameStr_of_isFree (hd.free y hy h0 h1)] at hym
      exact hm.isName.ne_nil hym.symm

/-! ### The directories are well formed -/

/-- **A name is in one slot** of a directory. -/
theorem unique {z : ℕ × ℕ} (hl : l' ∈ madeDirs pl (f.take k) d type dirs) (hy : y ∈ t.slots l')
    (hz : z ∈ t.slots l') (hne : (t.slotEntry env y).nameStr ≠ [])
    (hzy : (t.slotEntry env z).nameStr = (t.slotEntry env y).nameStr) : z = y := by
  have hnew : ∀ z ∈ s.slots pl, (s.slotEntry env z).nameStr ≠ name := fun z hz =>
    Server.lookup_eq_none.mp hr.absent z hz
  have hnez : (t.slotEntry env z).nameStr ≠ [] := by
    rw [hzy]
    exact hne
  rcases hr.live hl hy hne with ⟨rfl, rfl⟩ | ⟨l, hld, rfl, hys, hyx, hye⟩ | ⟨ht, rfl, hyd⟩
  · rcases hr.live hl hz hnez with ⟨rfl, -⟩ | ⟨l, hld, heq, hzs, -, hze⟩ | ⟨-, heq, -⟩
    · rfl
    · obtain rfl := hr.grown_inj hr.dir hld heq
      rw [hze, hr.entry_name] at hzy
      exact absurd hzy (hnew z hzs)
    · exact absurd heq (hr.grown_ne hr.dir)
  · rcases hr.live hl hz hnez with ⟨rfl, heq⟩ | ⟨l', hld', heq, hzs, -, hze⟩ | ⟨-, heq, -⟩
    · obtain rfl := hr.grown_inj hld hr.dir heq
      rw [hye, hr.entry_name] at hzy
      exact absurd hzy.symm (hnew y hys)
    · obtain rfl := hr.grown_inj hld hld' heq
      rw [hye, hze] at hzy
      rw [hye] at hne
      exact hr.before.wellFormed.unique l hld y hys z hzs hne hzy
    · exact absurd heq (hr.grown_ne hld)
  · have hd := hr.made.dots ht
    rcases hr.live hl hz hnez with ⟨-, heq⟩ | ⟨l', hld', heq, -⟩ | ⟨-, -, hzd⟩
    · exact absurd heq.symm (hr.grown_ne hr.dir)
    · exact absurd heq.symm (hr.grown_ne hld')
    · rcases hyd with rfl | rfl <;> rcases hzd with rfl | rfl
      · rfl
      · rw [hd.dot.nameStr_eq, hd.dotdot.nameStr_eq] at hzy
        exact absurd hzy (by decide)
      · rw [hd.dot.nameStr_eq, hd.dotdot.nameStr_eq] at hzy
        exact absurd hzy (by decide)
      · rfl

/-- **A child heads a chain** that is not its directory's. -/
theorem heads (hl : l' ∈ madeDirs pl (f.take k) d type dirs) (hy : y ∈ t.slots l')
    (hc : (t.slotEntry env y).isChild = true) :
    ∃ o ∈ ([d] ::ₘ (pl ++ f.take k) ::ₘ os).erase l',
      (t.slotEntry env y).firstCluster.toNat = o.headD endOfChain := by
  have hwf := hr.before.wellFormed
  rcases hr.live_child hl hy hc with ⟨rfl, rfl⟩ | ⟨l, hld, rfl, hys, -, hye⟩
  · exact ⟨[d], (hr.made.owns.mem_erase (grown_owned (hwf.owned pl hr.dir))).mpr
      ⟨Multiset.mem_cons_self _ _, (hr.grown_ne hr.dir).symm⟩, hr.entry_first⟩
  · have hl' := hwf.owned l hld
    obtain ⟨q, hq, hqhead⟩ := hwf.heads l hld y hys (by rw [← hye]; exact hc)
    obtain ⟨hqo, hql⟩ := (hwf.owns.mem_erase hl').mp hq
    refine ⟨grownDir pl (f.take k) q, (hr.made.owns.mem_erase (grown_owned hl')).mpr
      ⟨grown_owned hqo, fun heq => hql ?_⟩, ?_⟩
    · exact hwf.owns.eq_of_head hqo hl' (by rw [← hr.headD_eq q, heq, hr.headD_eq l])
    · rw [hye, hr.headD_eq, hqhead]

/-- The directories are well formed. -/
theorem wellFormed : t.WellFormed env (f.drop k) ([d] ::ₘ (pl ++ f.take k) ::ₘ os)
    (madeDirs pl (f.take k) d type dirs) := by
  have hwf := hr.before.wellFormed
  refine ⟨hr.made.owns, fun l' hl => ?_, ?_, fun l' hl y hy z hz hne hzy =>
    hr.unique hl hy hz hne hzy, fun l' hl y hy hc => ?_, fun l' hl y hy hc => hr.heads hl hy hc,
    fun l' hl y hy l'' hl' z hz hcy hcz hzy => ?_⟩
  · rcases mem_madeDirs.mp hl with ⟨-, rfl⟩ | ⟨l, hld, rfl⟩
    · exact Multiset.mem_cons_self _ _
    · exact grown_owned (hwf.owned l hld)
  · obtain ⟨r, hroot, hhead⟩ := hwf.root
    exact ⟨grownDir pl (f.take k) r, mem_madeDirs.mpr (Or.inr ⟨r, hroot, rfl⟩),
      (hr.headD_eq r).trans (hhead.trans hr.root_eq.symm)⟩
  · rw [Server.Inside, hr.bytePerCluster]
    rcases hr.live_child hl hy hc with ⟨rfl, -⟩ | ⟨l, hld, -, hys, -, hye⟩
    · exact hr.made.inside
    · exact hwf.inside l hld y hys (by rw [← hye]; exact hc)
  · rcases hr.live_child hl hy hcy with ⟨rfl, -⟩ | ⟨l, hld, -, hys, -, hye⟩
    · rcases hr.live_child hl' hz hcz with ⟨rfl, -⟩ | ⟨q, hqd, -, hzs, -, hze⟩
      · rfl
      · rw [hze] at hcz hzy
        exact absurd ((congrArg UInt32.toNat hzy).trans hr.entry_first) (hr.ne_first hqd hzs hcz)
    · rw [hye] at hcy hzy
      rcases hr.live_child hl' hz hcz with ⟨rfl, -⟩ | ⟨q, hqd, -, hzs, -, hze⟩
      · exact absurd ((congrArg UInt32.toNat hzy).symm.trans hr.entry_first)
          (hr.ne_first hld hys hcy)
      · rw [hze] at hcz hzy
        exact hwf.own l hld y hys q hqd z hzs hcy hcz hzy

/-! ### The hierarchy -/

/-- **The children.** -/
theorem child_iff {i c : ℕ} {data : Option (List UInt8)} :
    (h.insert (pl.headD endOfChain) name d data).child i m = some c ↔ ChildName m
      ∧ ∃ l ∈ madeDirs pl (f.take k) d type dirs, l.headD endOfChain = i
      ∧ ∃ e, t.lookup env l m = some e ∧ e.firstCluster.toNat = c := by
  have hh := hr.before
  have hwf := hh.wellFormed
  show (if i = pl.headD endOfChain ∧ m = name then some d else h.child i m) = some c ↔ _
  constructor
  · intro hc
    by_cases hi : i = pl.headD endOfChain ∧ m = name
    · obtain ⟨rfl, rfl⟩ := hi
      rw [if_pos ⟨rfl, rfl⟩] at hc
      refine ⟨hr.childName, grownDir pl (f.take k) pl, mem_madeDirs.mpr (Or.inr ⟨pl, hr.dir, rfl⟩),
        hr.headD_eq pl, t.slotEntry env x, ?_, hr.entry_first.trans (Option.some.inj hc)⟩
      rw [hr.lookup_eq hr.dir hr.childName.isName.ne_nil, if_pos ⟨rfl, rfl⟩]
    · rw [if_neg hi] at hc
      obtain ⟨hm, l, hl, rfl, e, he, hec⟩ := (hh.child _ _ _).mp hc
      refine ⟨hm, grownDir pl (f.take k) l, mem_madeDirs.mpr (Or.inr ⟨l, hl, rfl⟩),
        hr.headD_eq l, e, ?_, hec⟩
      rw [hr.lookup_eq hl hm.isName.ne_nil, if_neg, he]
      rintro ⟨rfl, rfl⟩
      exact hi ⟨rfl, rfl⟩
  · rintro ⟨hm, l', hl, rfl, e, he, hec⟩
    rcases mem_madeDirs.mp hl with ⟨ht, rfl⟩ | ⟨l, hld, rfl⟩
    · rw [hr.lookup_new ht hm] at he
      cases he
    · rw [hr.lookup_eq hld hm.isName.ne_nil] at he
      rw [hr.headD_eq]
      by_cases hlm : l = pl ∧ m = name
      · obtain ⟨rfl, rfl⟩ := hlm
        rw [if_pos ⟨rfl, rfl⟩] at he
        rw [if_pos ⟨rfl, rfl⟩, ← hec, ← Option.some.inj he, hr.entry_first]
      · rw [if_neg hlm] at he
        rw [if_neg, hh.child_of_lookup hld hm he, hec]
        rintro ⟨heq, rfl⟩
        exact hlm ⟨hwf.owns.eq_of_head (hwf.owned l hld) (hwf.owned pl hr.dir) heq, rfl⟩

/-- The object of the new name. -/
theorem object_new : t.Object (h.insert (pl.headD endOfChain) name d
      (if type = dirEntryTypeSubdir then none else some []))
    ([d] ::ₘ (pl ++ f.take k) ::ₘ os) (madeDirs pl (f.take k) d type dirs)
    (t.slotEntry env x) := by
  rcases hr.kind with rfl | rfl
  · refine .file hr.entry_type [d] (Multiset.mem_cons_self _ _) hr.entry_first.symm ?_ ?_
    · rw [hr.entry_size]
      exact Nat.zero_le _
    · show Function.update h.data d _ _ = _
      rw [hr.entry_first, Function.update_self, if_neg (by decide), hr.entry_size]
      rfl
  · exact .dir hr.entry_type [d] (mem_madeDirs.mpr (Or.inl ⟨rfl, rfl⟩)) hr.entry_first.symm

/-- **What the names stand for.** -/
theorem object (hl : l' ∈ madeDirs pl (f.take k) d type dirs) (hm : ChildName m)
    (he : t.lookup env l' m = some e) :
    t.Object (h.insert (pl.headD endOfChain) name d
        (if type = dirEntryTypeSubdir then none else some []))
      ([d] ::ₘ (pl ++ f.take k) ::ₘ os) (madeDirs pl (f.take k) d type dirs) e := by
  have hh := hr.before
  rcases mem_madeDirs.mp hl with ⟨ht, rfl⟩ | ⟨l, hld, rfl⟩
  · rw [hr.lookup_new ht hm] at he
    cases he
  · rw [hr.lookup_eq hld hm.isName.ne_nil] at he
    by_cases hlm : l = pl ∧ m = name
    · rw [if_pos hlm] at he
      obtain rfl := Option.some.inj he
      exact hr.object_new
    · rw [if_neg hlm] at he
      obtain ⟨y, hy, rfl, -, -, hyc, -⟩ := hh.exists_child_slot hld hm he
      cases hh.object l hld m hm _ he with
      | dir htype q hq hqhead =>
        exact .dir htype (grownDir pl (f.take k) q) (mem_madeDirs.mpr (Or.inr ⟨q, hq, rfl⟩))
          ((hr.headD_eq q).trans hqhead)
      | file htype q hq hqhead hcovers hqdata =>
        have hqpl : q ≠ pl := by
          rintro rfl
          exact hh.file_ne_dir hr.dir (by rw [hqhead, hqdata]; exact Option.some_ne_none _) rfl
        have hqos := (Multiset.mem_cons.mp hq).resolve_left hqpl
        refine .file htype q (Multiset.mem_cons_of_mem (Multiset.mem_cons_of_mem hqos)) hqhead
          (by rwa [hr.bytePerCluster]) ?_
        show Function.update h.data d _ _ = _
        rw [Function.update_of_ne (hr.ne_first hld hy hyc), hqdata,
          Server.contents_of_slots hr.bytePerCluster fun z hz => hr.made.others q hqos z hz]

/-- **The paths** to the other owners are what they were. -/
theorem reached {data : Option (List UInt8)} (hq : q ∈ [d] ::ₘ (pl ++ f.take k) ::ₘ os) :
    ∃ p, (h.insert (pl.headD endOfChain) name d data).walk h.root p
      = some (q.headD endOfChain) := by
  have hh := hr.before
  obtain ⟨pp, hpp⟩ := hh.reached pl (hh.wellFormed.owned pl hr.dir)
  have hnone := hh.child_of_not_found hr.dir hr.absent
  have hwalk : ∀ p, (h.insert (pl.headD endOfChain) name d data).walk h.root p
      = if p = pp ++ [name] then some d else h.walk h.root p :=
    Hierarchy.walk_insert hh.proper hpp hnone hh.fresh
  have hold : ∀ q ∈ pl ::ₘ os, ∃ p, (h.insert (pl.headD endOfChain) name d data).walk h.root p
      = some (q.headD endOfChain) := by
    intro q hq
    obtain ⟨p, hp⟩ := hh.reached q hq
    refine ⟨p, (hwalk p).trans ?_⟩
    rw [if_neg, hp]
    rintro rfl
    rw [Hierarchy.walk_concat, hpp, Option.bind_some, hnone] at hp
    cases hp
  rcases Multiset.mem_cons.mp hq with rfl | hq
  · exact ⟨pp ++ [name], (hwalk _).trans (if_pos rfl)⟩
  · rcases Multiset.mem_cons.mp hq with rfl | hq
    · obtain ⟨p, hp⟩ := hold pl (Multiset.mem_cons_self _ _)
      exact ⟨p, by rw [← grownDir_self, hr.headD_eq]; exact hp⟩
    · exact hold q (Multiset.mem_cons_of_mem hq)

/-- Every cluster is free or has an owner. -/
theorem covered {c : ℕ} (hc : s.superblock.IsData c) :
    c ∈ f.drop k ∨ ∃ o ∈ [d] ::ₘ (pl ++ f.take k) ::ₘ os, c ∈ o := by
  rcases hr.before.covered c hc with hcf | ⟨q, hq, hcq⟩
  · rcases List.mem_cons.mp hcf with rfl | hcf
    · exact Or.inr ⟨[c], Multiset.mem_cons_self _ _, List.mem_singleton_self c⟩
    · rw [← List.take_append_drop k f, List.mem_append] at hcf
      rcases hcf with hct | hcd
      · exact Or.inr ⟨pl ++ f.take k, Multiset.mem_cons_of_mem (Multiset.mem_cons_self _ _),
          List.mem_append_right _ hct⟩
      · exact Or.inl hcd
  · refine Or.inr ⟨grownDir pl (f.take k) q, grown_owned hq, ?_⟩
    unfold grownDir
    split
    · next hqp => exact List.mem_append_left _ (hqp ▸ hcq)
    · exact hcq

/-- **An object comes**: its name is found in the parent directory, and a path leads to it. -/
theorem holds : t.Holds env (h.insert (pl.headD endOfChain) name d
      (if type = dirEntryTypeSubdir then none else some []))
    (f.drop k) ([d] ::ₘ (pl ++ f.take k) ::ₘ os) (madeDirs pl (f.take k) d type dirs) where
  wellFormed := hr.wellFormed
  root := hr.before.root.trans hr.root_eq.symm
  child _ _ _ := hr.child_iff
  rootless i m := by
    show (if i = pl.headD endOfChain ∧ m = name then some d else h.child i m) ≠ some h.root
    split
    · exact fun hc => hr.before.fresh.ne_root (Option.some.inj hc)
    · exact hr.before.rootless i m
  dirData l' hl := by
    show Function.update h.data d _ _ = none
    rcases mem_madeDirs.mp hl with ⟨ht, rfl⟩ | ⟨l, hld, rfl⟩
    · rw [show [d].headD endOfChain = d from rfl, Function.update_self, if_pos ht]
    · rw [hr.headD_eq, Function.update_of_ne (hr.head_ne (hr.before.wellFormed.owned l hld))]
      exact hr.before.dirData l hld
  named l' hl y hy hc := by
    rcases hr.live_child hl hy hc with ⟨rfl, -⟩ | ⟨l, hld, -, hys, -, hye⟩
    · rw [hr.entry_name]
      exact hr.childName
    · rw [hye] at hc ⊢
      exact hr.before.named l hld y hys hc
  object _ hl _ hm _ he := hr.object hl hm he
  covered _ hc := hr.covered ((isData_of_setFree hr.made.superblock).mp hc)
  reached _ hq := hr.reached hq

end Server.Inserts

end Fat
