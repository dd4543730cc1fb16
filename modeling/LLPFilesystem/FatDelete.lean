import LLPFilesystem.FatTree
import LLPFilesystem.FatOps

/-!
# Deleting

`fat_unlink` and `fat_rmdir` look the target up, decide whether it may go, put
its clusters in front of the free list, and mark its slot as free by zeroing
the first byte of the name. What one deletion does is `Server.Deleted`: one
owner is gone, one byte of the parent directory has changed, and every other
name is found as before.
-/

namespace Fat

variable {env : Env} {s t : Server} {f l o : List ℕ} {os dirs : Multiset (List ℕ)}
  {e : FatDirEntry} {x y : ℕ × ℕ} {name n : List UInt8} {toks : List (List UInt8)}

/-- **What a deletion does**: the clusters of the owner `o` are in front of the
free list, in the order of its chain; of the data clusters one byte has changed,
in the directory `l`; there the name is not found any more, and every other name
is found as before. -/
structure Server.Deleted (s t : Server) (env : Env) (f l o : List ℕ)
    (os : Multiset (List ℕ)) (name : List UInt8) : Prop where
  owns : t.Owns ⟨o ++ f, os⟩
  links : ∀ c, s.superblock.IsData c → c ∉ o → t.next c = s.next c
  clusters : ∃ x ∈ s.slots l, ∀ c, s.superblock.IsData c →
    ∀ i < s.superblock.bytePerCluster, (c, i) ≠ x → t.cluster c i = s.cluster c i
  gone : t.lookup env l name = none
  other : ∀ n ≠ [], n ≠ name → t.lookup env l n = s.lookup env l n

/-- Putting a chain back on a well-formed table. -/
theorem freeClusterChain_pushed (env : Env) (h : s.Owns ⟨f, o ::ₘ os⟩) :
    ∃ t, (freeClusterChain (o.headD endOfChain)).run env s = .ok () t
      ∧ t.Owns ⟨o ++ f, os⟩
      ∧ (∃ v, t.superblock = (s.setFree v).superblock)
      ∧ (∀ c, s.superblock.IsData c → c ∉ o → t.next c = s.next c)
      ∧ ∀ c, s.superblock.IsData c → ∀ i < s.superblock.bytePerCluster,
        t.cluster c i = s.cluster c i := by
  have hmem : o ∈ o ::ₘ os := Multiset.mem_cons_self _ _
  have hc := h.chain hmem
  rcases o.eq_nil_or_concat with rfl | ⟨o', d, rfl⟩
  · exact absurd rfl (h.owners _ hmem).1
  · rw [List.concat_eq_append] at *
    have hd : s.superblock.IsData d := hc.data d (by simp)
    exact ⟨_, freeClusterChain_run h.geometry hc, h.pushed env, ⟨_, rfl⟩,
      fun c hcd hco => Server.next_pushed_of_ne hd hcd (fun hcd => hco (by simp [hcd])),
      fun c hcd i hi => Server.cluster_pushed h.geometry hd hcd hi⟩

/-- **What removing an entry does**, slot by slot: the clusters of the owner `o` are in front
of the free list, of the data clusters one byte has changed, the slot `x` is free, and the
other slots hold what they held. -/
structure Server.Removed (s t : Server) (env : Env) (f l o : List ℕ)
    (os : Multiset (List ℕ)) (x : ℕ × ℕ) : Prop where
  owns : t.Owns ⟨o ++ f, l ::ₘ os⟩
  superblock : ∃ v, t.superblock = (s.setFree v).superblock
  links : ∀ c, s.superblock.IsData c → c ∉ o → t.next c = s.next c
  bytes : ∀ c, s.superblock.IsData c → ∀ i < s.superblock.bytePerCluster, (c, i) ≠ x →
    t.cluster c i = s.cluster c i
  free : (t.slotEntry env x).isFree = true
  others : ∀ l' ∈ l ::ₘ os, ∀ y ∈ s.slots l', y ≠ x → t.slotEntry env y = s.slotEntry env y

/-- **Putting back a chain and freeing the slot of its entry.** -/
theorem removeEntry_removed (hr : env.Reliable) (h : s.Owns ⟨f, l ::ₘ o ::ₘ os⟩)
    (hx : x ∈ s.slots l)
    (hu : ∀ y ∈ s.slots l, (s.slotEntry env y).nameStr = (s.slotEntry env x).nameStr → y = x) :
    ∃ t, (do
        freeClusterChain (o.headD endOfChain)
        updateDirEntry (l.headD endOfChain) (s.slotEntry env x) true).run env s = .ok 0 t
      ∧ s.Removed t env f l o os x := by
  set e := s.slotEntry env x with he
  rw [Multiset.cons_swap] at h
  obtain ⟨u, hrun, hown, ⟨w, hw⟩, hlinks, hclus⟩ := freeClusterChain_pushed env h
  have hb : u.superblock.bytePerCluster = s.superblock.bytePerCluster := by
    rw [hw]
    rfl
  have hl : l ∈ l ::ₘ os := Multiset.mem_cons_self _ _
  -- the slots are what they were before the chain was put back
  have hslot : ∀ l' ∈ l ::ₘ os, ∀ y ∈ s.slots l', u.slotEntry env y = s.slotEntry env y :=
    fun l' hl' => Server.slotEntry_of_clusters hb fun c hc =>
      hclus c (h.owner_data (Multiset.mem_cons_of_mem hl') hc)
  have hfind : u.findSlot env l (fun e' => e'.nameStr == e.nameStr) = some x := by
    have hs : s.findSlot env l (fun e' => e'.nameStr == e.nameStr) = some x :=
      Server.findSlot_of_unique hx (beq_self_eq_true e.nameStr)
        (fun y hy hyn => hu y hy (eq_of_beq hyn))
    rw [← hs]
    exact Server.findSlot_congr hb (fun y hy => by rw [hslot l hl y hy])
  obtain ⟨k, hk⟩ := updateDirEntry_run hr hown.geometry (hown.chain hl) hfind true
    (by simp)
  rw [if_pos rfl, if_pos rfl] at hk
  set v : Server := { u with preads := k } with hv
  have hxs := mem_dirSlots.mp (Server.mem_slots.mp hx).2
  refine ⟨v.store env x (fun _ => 0) 1, (Prog.bind_ok _ hrun).trans hk,
    (hown.preads k).writeCluster, ⟨w, hw⟩, hlinks, fun c hc i hi hcx => ?_,
    Server.isFree_store (s := v) hr.writes (hb ▸ hxs.2), fun l' hl' y hy hyx =>
      (Server.slotEntry_store_of_ne (s := v) hr.writes hxs.1
        (mem_dirSlots.mp (Server.mem_slots.mp hy).2).1 hyx (by decide)).trans (hslot l' hl' y hy)⟩
  rw [← hclus c hc i hi]
  rw [← hb] at hi
  by_cases hcx1 : c = x.1
  · subst hcx1
    have hix : i ≠ x.2 := fun hix => hcx (Prod.ext rfl hix)
    refine (Server.cluster_store (s := v) hr.writes hi).trans ?_
    rcases Nat.lt_or_gt_of_ne hix with hlt | hgt
    · exact Buf.blit_of_lt hlt
    · exact Buf.blit_of_le hgt
  · exact Server.cluster_store_of_ne (s := v) hcx1 hi

/-- **A removed entry is deleted**, if no other has its name. -/
theorem Server.Removed.deleted (h : s.Removed t env f l o os x) (hx : x ∈ s.slots l)
    (hname : (s.slotEntry env x).nameStr = name) (hne : name ≠ [])
    (hu : ∀ y ∈ s.slots l, (s.slotEntry env y).nameStr = name → y = x) :
    s.Deleted t env f l o (l ::ₘ os) name := by
  have hl : l ∈ l ::ₘ os := Multiset.mem_cons_self _ _
  have hself : (t.slotEntry env x).nameStr = [] := FatDirEntry.nameStr_of_isFree h.free
  have hb := Server.bytePerCluster_of_setFree h.superblock
  refine ⟨h.owns, h.links, ⟨x, hx, h.bytes⟩, ?_, fun n hn hnn => ?_⟩
  · refine Server.lookup_eq_none.mpr (fun y hy hyn => ?_)
    rw [Server.slots_congr (s := s) (t := t) hb] at hy
    by_cases hyx : y = x
    · rw [hyx, hself] at hyn
      exact hne hyn.symm
    · rw [h.others l hl y hy hyx] at hyn
      exact hyx (hu y hy hyn)
  · refine Server.lookup_congr (s := s) hb (fun y hy => ?_)
    by_cases hyx : y = x
    · rw [hyx, hself, hname]
      exact Or.inr ⟨hn.symm, hnn.symm⟩
    · exact Or.inl (h.others l hl y hy hyx)

/-- **Deleting an entry**: putting back its chain and freeing its slot. -/
theorem removeEntry_run (hr : env.Reliable) (h : s.Owns ⟨f, l ::ₘ o ::ₘ os⟩)
    (hx : x ∈ s.slots l) (hne : (s.slotEntry env x).nameStr ≠ [])
    (hu : ∀ y ∈ s.slots l, (s.slotEntry env y).nameStr = (s.slotEntry env x).nameStr → y = x) :
    ∃ t, (do
        freeClusterChain (o.headD endOfChain)
        updateDirEntry (l.headD endOfChain) (s.slotEntry env x) true).run env s = .ok 0 t
      ∧ s.Deleted t env f l o (l ::ₘ os) (s.slotEntry env x).nameStr := by
  obtain ⟨t, hrun, hrem⟩ := removeEntry_removed hr h hx hu
  exact ⟨t, hrun, hrem.deleted hx rfl hne hu⟩

/-! ## The operations -/

/-- **The target of an operation** in a well-formed file system: the path leads
to the directory `l`, where the name is found, with the entry `e`. -/
structure Server.HasTarget (s : Server) (env : Env) (f : List ℕ)
    (os dirs : Multiset (List ℕ)) (toks : List (List UInt8)) (l : List ℕ)
    (name : List UInt8) (e : FatDirEntry) : Prop where
  wellFormed : s.WellFormed env f os dirs
  names : ∀ x ∈ toks, IsName x
  isName : IsName name
  notDot : name ≠ dotName
  notDotdot : name ≠ dotdotName
  walk : ∃ r ∈ dirs, r.headD endOfChain = s.superblock.rootClusterStart
    ∧ s.Walk env dirs toks r l
  parent : l ∈ dirs
  found : s.lookup env l name = some e

/-- What an operation that deletes does, if it deletes exactly when `q` holds:
it succeeds then, deleting the owner `o` whose chain the entry heads, and it
returns an error otherwise, with nothing changed. -/
def Server.DeletesIf (s : Server) (env : Env) (x : FatM ℤ) (q : Prop) (f l o : List ℕ)
    (os : Multiset (List ℕ)) (name : List UInt8) : Prop :=
  ∃ r t, x.run env s = .ok r t ∧ (r = 0 ↔ q)
    ∧ (r = 0 → s.Deleted t env f l o os name) ∧ (r ≠ 0 → s.ReadTo t)

section Operations

variable {x : FatM ℤ} {q : Prop} {g : ℕ × FatDirEntry → FatM ℤ}

/-- An operation that refuses. -/
theorem Server.DeletesIf.refuse {r : ℤ} (k : ℕ)
    (hrun : x.run env s = .ok r { s with preads := k }) (hr : r ≠ 0) (hq : ¬ q) :
    s.DeletesIf env x q f l o os name :=
  ⟨r, _, hrun, iff_of_false hr hq, fun h => absurd h hr, fun _ => ⟨k, rfl⟩⟩

/-- An operation that deletes. -/
theorem Server.DeletesIf.delete (k : ℕ)
    (hrun : x.run env s = .ok 0 t) (hd : ({ s with preads := k } : Server).Deleted t env f l o
      os name) (hq : q) :
    s.DeletesIf env x q f l o os name :=
  ⟨0, t, hrun, iff_of_true rfl hq, fun _ => ⟨hd.owns, hd.links, hd.clusters, hd.gone, hd.other⟩,
    fun h => absurd rfl h⟩

end Operations

/-- **Deletion is exact.** In a well-formed file system, the target of the path
heads the chain of an owner `o`, which is not its directory. `fat_unlink` deletes
it exactly if it is a regular file, `fat_rmdir` exactly if it is a subdirectory
that holds no live entry other than `"."` and `".."`. -/
theorem deletion_exact (hr : env.Reliable) (h : s.HasTarget env f os dirs toks l name e) :
    ∃ o ∈ os.erase l, e.firstCluster.toNat = o.headD endOfChain
      ∧ s.DeletesIf env (fatUnlink (pathOf (toks ++ [name]))) (e.type = dirEntryTypeFile)
        f l o (os.erase o) name
      ∧ s.DeletesIf env (fatRmdir (pathOf (toks ++ [name])))
        (e.type = dirEntryTypeSubdir ∧ s.EmptyDir env o) f l o (os.erase o) name := by
  have hwf := h.wellFormed
  obtain ⟨x, o, os', hx, hxe, -, hu, rfl, hfirst⟩ := hwf.exists_slot h.parent h.found
    h.isName.ne_nil h.notDot h.notDotdot
  obtain ⟨hname, -⟩ := Server.lookup_eq_some h.found
  obtain ⟨r, -, hroot, hwalk⟩ := h.walk
  have hmem : o ∈ (l ::ₘ o ::ₘ os').erase l := by
    rw [Multiset.erase_cons_head]
    exact Multiset.mem_cons_self _ _
  have herase : (l ::ₘ o ::ₘ os').erase o = l ::ₘ os' := by
    rw [Multiset.cons_swap, Multiset.erase_cons_head]
  obtain ⟨k, hk⟩ := (reads_lookupTarget hwf.owns hr.reads hwf.owned h.isName h.names hroot
    hwalk h.parent h.found).run
  set s₁ : Server := { s with preads := k } with hs₁
  -- what either operation does once it has decided to delete
  have hremove : ∀ k', ∃ t, (do
        freeClusterChain e.firstCluster.toNat
        updateDirEntry (l.headD endOfChain) e true).run env { s with preads := k' } = .ok 0 t
      ∧ ({ s with preads := k' } : Server).Deleted t env f l o (l ::ₘ os') name := by
    intro k'
    rw [hfirst, ← hname, ← hxe]
    exact removeEntry_run (s := { s with preads := k' }) hr (hwf.owns.preads k') hx
      (show (s.slotEntry env x).nameStr ≠ [] by rw [hxe, hname]; exact h.isName.ne_nil)
      (fun y hy hyn => hu y hy (hyn.trans (by rw [← hname, ← hxe]; rfl)))
  refine ⟨o, hmem, hfirst, ?_, ?_⟩
  · rw [herase]
    by_cases htype : e.type = dirEntryTypeFile
    · obtain ⟨t, hrun, hdel⟩ := hremove k
      refine Server.DeletesIf.delete k ?_ hdel htype
      rw [fatUnlink, Prog.bind_ok _ hk]
      dsimp only
      rw [if_neg (not_not_intro htype)]
      exact hrun
    · refine Server.DeletesIf.refuse (r := -1) k ?_ (by decide) htype
      rw [fatUnlink, Prog.bind_ok _ hk]
      dsimp only
      rw [if_pos htype]
      rfl
  · rw [herase]
    obtain ⟨k', hempty⟩ := (reads_isDirEmpty (o := o) hr.reads hwf.owns
      (Multiset.mem_of_mem_erase hmem)) k
    rw [← hfirst] at hempty
    by_cases he : s.EmptyDir env o
    · rw [decide_eq_true he] at hempty
      by_cases htype : e.type = dirEntryTypeSubdir
      · obtain ⟨t, hrun, hdel⟩ := hremove k'
        refine Server.DeletesIf.delete k' ?_ hdel ⟨htype, he⟩
        rw [fatRmdir, Prog.bind_ok _ hk]
        dsimp only
        rw [Prog.bind_ok _ hempty, if_pos rfl, if_neg (not_not_intro htype)]
        exact hrun
      · refine Server.DeletesIf.refuse (r := -enotdir) k' ?_ (by decide) (fun hq => htype hq.1)
        rw [fatRmdir, Prog.bind_ok _ hk]
        dsimp only
        rw [Prog.bind_ok _ hempty, if_pos rfl, if_pos htype]
        rfl
    · rw [decide_eq_false he] at hempty
      refine Server.DeletesIf.refuse (r := -enotempty) k' ?_ (by decide) (fun hq => he hq.2)
      rw [fatRmdir, Prog.bind_ok _ hk]
      dsimp only
      rw [Prog.bind_ok _ hempty, if_neg (by decide)]
      rfl

/-- The file of the disk with one file is unlinked. -/
theorem deletion_exact_oneFile :
    (Server.oneFile 0 fun _ => 0).HasTarget .ideal (List.range' 6 2554) ([5] ::ₘ {[4]}) {[4]}
      [] [4] oneName (oneEntry 0)
    ∧ ∃ t, (fatUnlink (pathOf ([] ++ [oneName]))).run .ideal (.oneFile 0 fun _ => 0) = .ok 0 t
      ∧ t.Owns ⟨[5] ++ List.range' 6 2554, {[4]}⟩ ∧ t.lookup .ideal [4] oneName = none := by
  have h : (Server.oneFile 0 fun _ => 0).HasTarget .ideal (List.range' 6 2554)
      ([5] ::ₘ {[4]}) {[4]} [] [4] oneName (oneEntry 0) :=
    ⟨Server.wellFormed_oneFile .ideal 0 _, by simp, Server.oneName_isName, by decide, by decide,
      ⟨[4], Multiset.mem_singleton_self _, Server.rootClusterStart_oneFile.symm, .nil [4]⟩,
      Multiset.mem_singleton_self _, Server.lookup_oneFile 0 _ .ideal⟩
  obtain ⟨o, ho, -, ⟨r, t, hrun, hiff, hdel, -⟩, -⟩ := deletion_exact Env.ideal_reliable h
  have ho5 : o = [5] := by
    have herase : (([5] : List ℕ) ::ₘ {[4]}).erase [4] = {[5]} := by decide
    rw [herase] at ho
    exact Multiset.mem_singleton.mp ho
  obtain rfl : r = 0 := hiff.mpr rfl
  have hd := hdel rfl
  rw [ho5, Multiset.erase_cons_head] at hd
  exact ⟨h, t, hrun, hd.owns, hd.gone⟩

end Fat
