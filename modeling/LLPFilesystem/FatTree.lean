import LLPFilesystem.FatOneFile

/-!
# Well-formed file systems

The clusters of a well-formed file system are partitioned into the free list
and the chains of owners, some of which are directories. The live entries of a
directory have different names; each of them, `"."` and `".."` apart, lies
wholly inside its cluster and heads the chain of an owner of its own.
-/

namespace Fat

variable {env : Env} {s t : Server} {f l o : List ℕ} {os dirs : Multiset (List ℕ)}
  {p : Pool ℕ} {e : FatDirEntry} {x y : ℕ × ℕ} {name : List UInt8}
  {toks : List (List UInt8)}

/-- A live entry other than `"."` and `".."`, as `is_dir_empty` looks for
one. -/
def FatDirEntry.isChild (e : FatDirEntry) : Bool :=
  e.nameStr != dotName && e.nameStr != dotdotName && !e.isFree

/-- An entry with a name of its own is a child. -/
theorem FatDirEntry.isChild_of_name (hne : e.nameStr ≠ []) (hdot : e.nameStr ≠ dotName)
    (hdotdot : e.nameStr ≠ dotdotName) : e.isChild = true := by
  have hlive : e.isFree = false := by
    by_contra hfree
    exact hne (FatDirEntry.nameStr_of_isFree (Bool.not_eq_false _ ▸ hfree))
  rw [isChild, bne_iff_ne.mpr hdot, bne_iff_ne.mpr hdotdot, hlive]
  rfl

/-- A child has a name. -/
theorem FatDirEntry.name_of_isChild (hc : e.isChild = true) : e.nameStr ≠ [] := by
  intro hn
  rw [isChild, FatDirEntry.isFree_iff.mpr hn] at hc
  simp at hc

/-- **A well-formed file system**: `f` is its free list, `os` are the chains of
its owners, and `dirs` those of its directories. -/
structure Server.WellFormed (s : Server) (env : Env) (f : List ℕ)
    (os dirs : Multiset (List ℕ)) : Prop where
  owns : s.Owns ⟨f, os⟩
  owned : ∀ l ∈ dirs, l ∈ os
  root : ∃ l ∈ dirs, l.headD endOfChain = s.superblock.rootClusterStart
  unique : ∀ l ∈ dirs, ∀ x ∈ s.slots l, ∀ y ∈ s.slots l,
    (s.slotEntry env x).nameStr ≠ [] →
      (s.slotEntry env y).nameStr = (s.slotEntry env x).nameStr → y = x
  inside : ∀ l ∈ dirs, ∀ x ∈ s.slots l, (s.slotEntry env x).isChild = true → s.Inside x
  heads : ∀ l ∈ dirs, ∀ x ∈ s.slots l, (s.slotEntry env x).isChild = true →
    ∃ o ∈ os.erase l, (s.slotEntry env x).firstCluster.toNat = o.headD endOfChain
  own : ∀ l ∈ dirs, ∀ x ∈ s.slots l, ∀ l' ∈ dirs, ∀ y ∈ s.slots l',
    (s.slotEntry env x).isChild = true → (s.slotEntry env y).isChild = true →
      (s.slotEntry env y).firstCluster = (s.slotEntry env x).firstCluster → y = x

namespace Server.WellFormed

/-- **The entry of a name** is in one slot of its directory, and heads the
chain of another owner. -/
theorem exists_slot (h : s.WellFormed env f os dirs) (hl : l ∈ dirs)
    (hlook : s.lookup env l name = some e) (hne : name ≠ []) (hdot : name ≠ dotName)
    (hdotdot : name ≠ dotdotName) :
    ∃ x o os', x ∈ s.slots l ∧ s.slotEntry env x = e ∧ s.Inside x
      ∧ (∀ y ∈ s.slots l, (s.slotEntry env y).nameStr = name → y = x)
      ∧ os = l ::ₘ o ::ₘ os' ∧ e.firstCluster.toNat = o.headD endOfChain := by
  obtain ⟨hname, x, hx, rfl⟩ := lookup_eq_some hlook
  have hchild : (s.slotEntry env x).isChild = true := by
    subst hname
    exact FatDirEntry.isChild_of_name hne hdot hdotdot
  obtain ⟨o, ho, hfirst⟩ := h.heads l hl x hx hchild
  refine ⟨x, o, (os.erase l).erase o, hx, rfl, h.inside l hl x hx hchild,
    fun y hy hyn => h.unique l hl x hx y hy (hname ▸ hne) (hyn.trans hname.symm), ?_, hfirst⟩
  rw [Multiset.cons_erase ho, Multiset.cons_erase (h.owned l hl)]

end Server.WellFormed

/-- The disk with one file is well-formed. -/
theorem Server.wellFormed_oneFile (env : Env) (size : UInt32) (data : Buf) :
    (oneFile size data).WellFormed env (List.range' 6 2554) ([5] ::ₘ {[4]}) {[4]} := by
  -- the one live slot is the one of the file
  have hslot : ∀ x ∈ (oneFile size data).slots [4],
      ((oneFile size data).slotEntry env x).isChild = true → x = (4, 0) := fun x hx hc => by
    by_contra hne
    have hfree : ((oneFile size data).slotEntry env x).isFree = true :=
      isFree_oneFile hx hne
    rw [FatDirEntry.isChild, hfree] at hc
    simp at hc
  refine ⟨owns_oneFile size data, root_mem_onePool, ⟨[4], Multiset.mem_singleton_self _,
    rootClusterStart_oneFile.symm⟩, fun l hl x hx y hy hne hname => ?_,
    fun l hl x hx hc => ?_, fun l hl x hx hc => ?_, fun l hl x hx l' hl' y hy hc hc' _ => ?_⟩
  · obtain rfl := Multiset.mem_singleton.mp hl
    by_cases hx0 : x = (4, 0)
    · subst hx0
      rw [slotEntry_oneFile] at hname
      exact unique_oneFile y hy hname
    · exact absurd (FatDirEntry.nameStr_of_isFree (isFree_oneFile hx hx0)) hne
  · obtain rfl := Multiset.mem_singleton.mp hl
    rw [hslot x hx hc]
    show 0 + 40 ≤ (oneFile size data).superblock.bytePerCluster
    rw [bytePerCluster_oneFile]
    decide
  · obtain rfl := Multiset.mem_singleton.mp hl
    rw [hslot x hx hc, slotEntry_oneFile]
    exact ⟨[5], by decide, rfl⟩
  · obtain rfl := Multiset.mem_singleton.mp hl
    obtain rfl := Multiset.mem_singleton.mp hl'
    rw [hslot x hx hc, hslot y hy hc']

/-! ## The emptiness check -/

/-- **The directory holds no child**, in any of its clusters. -/
def Server.EmptyDir (s : Server) (env : Env) (l : List ℕ) : Prop :=
  ∀ x ∈ s.slots l, (s.slotEntry env x).isChild = false

instance (s : Server) (env : Env) (l : List ℕ) : Decidable (s.EmptyDir env l) :=
  inferInstanceAs (Decidable (∀ x ∈ s.slots l, _))

/-- **The emptiness check** looks through the whole chain. -/
theorem reads_isDirEmpty (hr : env.ReadsFull) (h : s.Owns p) (ho : o ∈ p.owners) :
    s.Reads env (isDirEmpty (o.headD endOfChain)) (decide (s.EmptyDir env o)) := by
  refine Server.Reads.get_bind (fun k₀ k => ?_)
  have hc := h.chain ho
  rcases o.eq_nil_or_concat with rfl | ⟨l, d, rfl⟩
  · exact absurd rfl (h.owners _ ho).1
  · rw [List.concat_eq_append] at *
    have hok : ∀ x ∈ l ++ [d], decide (s.superblock.rootClusterStart ≤ x ∧ x ≠ 0) = true :=
      fun x hx => decide_eq_true ⟨h.geometry.root ▸ (hc.data x hx).1, (hc.data x hx).ne_end⟩
    obtain ⟨k', hk'⟩ := scanDir_run
      (fun sb c => decide (sb.rootClusterStart ≤ c ∧ c ≠ 0)) FatDirEntry.isChild
      (fun _ _ _ => return false) (fun _ => return true) (s := { s with preads := k }) hr
      h.geometry (hc.preads k) hok (Nat.le_of_lt (hc.length_lt_fuel h.geometry)) rfl
    refine ⟨k', hk'.trans ?_⟩
    rw [show ({ s with preads := k } : Server).findSlot env (l ++ [d]) FatDirEntry.isChild
      = s.findSlot env (l ++ [d]) FatDirEntry.isChild from rfl]
    cases hfind : s.findSlot env (l ++ [d]) FatDirEntry.isChild with
    | some x =>
      have hx := Server.findSlot_some hfind
      have hnot : ¬ s.EmptyDir env (l ++ [d]) := fun hempty => by
        rw [hempty x hx.1] at hx
        exact absurd hx.2 (by decide)
      rw [decide_eq_false hnot]
      rfl
    | none =>
      have hempty : s.EmptyDir env (l ++ [d]) := fun x hx =>
        Bool.eq_false_iff.mpr (List.find?_eq_none.mp hfind x hx)
      rw [decide_eq_true hempty]
      rfl

end Fat
