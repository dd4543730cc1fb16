import LLPFilesystem.FatCreate
import LLPFilesystem.FatFormat
import Mathlib.Logic.Relation

/-!
# A directory as a finite map

Seen from outside, a directory is a finite map from names to entries. `DirOp`
lists the operations on one directory chain, with the code that performs each
and with what each does to the map; `DirStep` is one of them, taken when its
callers take it and when the slot an entry goes into lies inside its cluster.

Every run from a zeroed cluster keeps the directory and the map together
(`Server.Represents`), whatever the number of entries and clusters. What a scan
*visits* is another matter: unless the entry size divides the cluster size, the
last slot of every cluster sticks out, and every scan that gets there reads it
(`visits_inside_iff`).
-/

namespace Fat

variable {env : Env} {s t : Server} {c d o k first : ℕ} {f l m : List ℕ}
  {os : Multiset (List ℕ)} {x y : ℕ × ℕ} {name n : List UInt8} {type : UInt16}
  {e : FatDirEntry} {p : FatDirEntry → Bool}

/-! ## What a scan visits -/

/-- **A scan for `p` gets to the slot `x`**: no slot before it is one the scan
looks for. -/
def Server.Visits (s : Server) (env : Env) (l : List ℕ) (p : FatDirEntry → Bool)
    (x : ℕ × ℕ) : Prop :=
  ∃ pre post, s.slots l = pre ++ x :: post ∧ ∀ y ∈ pre, p (s.slotEntry env y) = false

/-- The last slot of a cluster sticks out of it, unless the entry size divides
the cluster size. -/
theorem exists_straddling {b : ℕ} (hdvd : ¬ dirEntrySize ∣ b) :
    ∃ pre post o, dirSlots b = pre ++ o :: post ∧ b < o + dirEntrySize := by
  have hmem : b / dirEntrySize * dirEntrySize ∈ dirSlots b := by
    refine mem_dirSlots.mpr ⟨Nat.dvd_mul_left _ _, ?_⟩
    refine Nat.lt_of_le_of_ne (Nat.div_mul_le_self b _) (fun heq => hdvd ?_)
    exact ⟨b / dirEntrySize, by rw [Nat.mul_comm, heq]⟩
  obtain ⟨pre, post, hsplit⟩ := List.append_of_mem hmem
  refine ⟨pre, post, _, hsplit, ?_⟩
  have hlt := Nat.lt_mul_div_succ b (show 0 < dirEntrySize by decide)
  rw [Nat.mul_comm, Nat.add_mul, Nat.one_mul] at hlt
  exact hlt

/-- **When every slot a scan visits lies inside its cluster**: the entry size
divides the cluster size, or the scan ends at a slot of the first cluster that
does. -/
theorem visits_inside_iff :
    (∀ x, s.Visits env (c :: l) p x → s.Inside x)
      ↔ dirEntrySize ∣ s.superblock.bytePerCluster
        ∨ ∃ x ∈ s.slots [c], s.Inside x ∧ p (s.slotEntry env x) = true := by
  set b := s.superblock.bytePerCluster with hbdef
  have hslots : s.slots (c :: l) = (dirSlots b).map (c, ·) ++ s.slots l := List.flatMap_cons
  have hmem : ∀ o, (c, o) ∈ s.slots [c] ↔ o ∈ dirSlots b := fun o => by
    rw [Server.mem_slots]
    exact and_iff_right (List.mem_singleton_self c)
  constructor
  · intro hall
    by_contra hnot
    obtain ⟨hdvd, hno⟩ := not_or.mp hnot
    obtain ⟨pre, post, o, hsplit, ho⟩ := exists_straddling hdvd
    refine absurd (hall (c, o) ⟨pre.map (c, ·), post.map (c, ·) ++ s.slots l, ?_, ?_⟩)
      (Nat.not_le.mpr ho)
    · rw [hslots, hsplit, List.map_append, List.map_cons, List.append_assoc, List.cons_append]
    · -- the slots before the last one lie inside, so none of them is looked for
      intro y hy
      obtain ⟨i, hi, rfl⟩ := List.mem_map.mp hy
      have hio := lt_of_dirSlots hsplit i hi
      have him : i ∈ dirSlots b := by
        rw [hsplit]
        exact List.mem_append_left _ hi
      have hom : o ∈ dirSlots b := by
        rw [hsplit]
        simp
      obtain ⟨⟨a, ha⟩, -⟩ := mem_dirSlots.mp him
      obtain ⟨⟨a', ha'⟩, hob⟩ := mem_dirSlots.mp hom
      refine Bool.eq_false_iff.mpr (fun hp => hno ⟨(c, i), (hmem i).mpr him, ?_, hp⟩)
      show i + dirEntrySize ≤ b
      unfold dirEntrySize at *
      omega
  · rintro (⟨a, ha⟩ | ⟨⟨c', o⟩, hx, hin, hp⟩) ⟨c₁, i⟩
      ⟨pre, post, hsplit, hpre⟩
    · have hi : (c₁, i) ∈ s.slots (c :: l) := by
        rw [hsplit]
        simp
      obtain ⟨⟨a', ha'⟩, hib⟩ := mem_dirSlots.mp (Server.mem_slots.mp hi).2
      show i + dirEntrySize ≤ b
      unfold dirEntrySize at *
      dsimp only at ha' hib
      omega
    · -- the slot the scan ends at is not before the one it visits
      obtain rfl : c' = c := List.mem_singleton.mp (Server.mem_slots.mp hx).1
      obtain ⟨D, D', hD⟩ := List.append_of_mem ((hmem o).mp hx)
      have hsplit' : s.slots (c' :: l)
          = D.map (c', ·) ++ (c', o) :: (D'.map (c', ·) ++ s.slots l) := by
        rw [hslots, hD, List.map_append, List.map_cons, List.append_assoc, List.cons_append]
      have hnot : (c', o) ∉ pre := fun hmem => by
        rw [hpre _ hmem] at hp
        cases hp
      rcases List.append_eq_append_iff.mp (hsplit.symm.trans hsplit') with
        ⟨as, hDas, has⟩ | ⟨bs, hbs, hcons⟩
      · rcases as.eq_nil_or_concat with rfl | ⟨as', a, rfl⟩
        · obtain ⟨hxo, -⟩ := List.cons.inj has
          rw [hxo]
          exact hin
        · -- `x` is one of the slots before
          have hxD : (c₁, i) ∈ D.map (c', ·) := by
            rw [hDas]
            refine List.mem_append_right _ ?_
            rw [List.concat_eq_append, List.append_assoc] at has
            cases as' with
            | nil =>
              rw [List.nil_append, List.singleton_append] at has
              rw [(List.cons.inj has).1]
              simp
            | cons a' as' =>
              rw [(List.cons.inj has).1]
              simp
          obtain ⟨j, hj, hji⟩ := List.mem_map.mp hxD
          obtain ⟨-, rfl⟩ := Prod.ext_iff.mp hji
          have hlt := lt_of_dirSlots hD j hj
          show j + dirEntrySize ≤ b
          have hin' : o + dirEntrySize ≤ b := hin
          omega
      · cases bs with
        | nil =>
          rw [List.nil_append] at hcons
          obtain ⟨hxo, -⟩ := List.cons.inj hcons
          rw [← hxo]
          exact hin
        | cons b' bs =>
          rw [List.cons_append] at hcons
          obtain ⟨rfl, -⟩ := List.cons.inj hcons
          exact absurd (by rw [hbs]; simp) hnot

/-! ## Operations on a directory -/

/-- A finite map from names to entries. -/
abbrev DirMap := List UInt8 → Option FatDirEntry

/-- **An operation on one directory chain.** -/
inductive DirOp where
  /-- Make an entry with this name, first cluster and type. -/
  | add (name : List UInt8) (first : ℕ) (type : UInt16)
  /-- Store an entry under its name. -/
  | update (e : FatDirEntry)
  /-- Remove the entry with the name of this one. -/
  | remove (e : FatDirEntry)

namespace DirOp

/-- The code that performs an operation on the directory from cluster `c` on. -/
def code (c : ℕ) : DirOp → FatM ℤ
  | add name first type => addDirEntryToCluster c name first type
  | update e => updateDirEntry c e false
  | remove e => updateDirEntry c e true

/-- There is a free cluster when the directory needs one. -/
def HasRoom (env : Env) (s : Server) (c : ℕ) : Prop :=
  ∀ l, s.Chain c l → s.findSlot env l FatDirEntry.isFree = none →
    s.superblock.freeClusterStart ≠ endOfChain

/-- When an operation is called: a name of 1 to 21 bytes that is not there is
added, for a data cluster and with a free cluster available if one is needed; a
name that is there is updated or removed. -/
def Enabled (env : Env) (s : Server) (c : ℕ) (M : DirMap) : DirOp → Prop
  | add name first _ => NameFits name ∧ 0 ∉ name ∧ M name = none
    ∧ s.superblock.IsData first ∧ HasRoom env s c
  | update e => M e.nameStr ≠ none
  | remove e => M e.nameStr ≠ none

/-- The slot that a new entry goes into lies wholly inside its cluster. -/
def Fits (env : Env) (s : Server) (c : ℕ) : DirOp → Prop
  | add _ _ _ => ∀ l, s.Chain c l →
    ∀ x, s.findSlot env l FatDirEntry.isFree = some x → s.Inside x
  | update _ => True
  | remove _ => True

/-- What an operation that left the server `t` does to the map. The time of a
new entry is the clock's just before its write. -/
def apply (env : Env) (t : Server) (M : DirMap) : DirOp → DirMap
  | add name first type => Function.update M name (some
    ((freshEntry name first type).withTime
      (UInt64.ofNat (env.time (t.pwrites.length - 1)))))
  | update e => Function.update M e.nameStr (some e)
  | remove e => Function.update M e.nameStr none

end DirOp

/-- One operation on the directory from cluster `c` on, from a server and a
map, whose new entry lies inside its cluster. -/
def DirStep (env : Env) (c : ℕ) (u v : Server × DirMap) : Prop :=
  ∃ op : DirOp, ∃ r, op.Enabled env u.1 c u.2 ∧ op.Fits env u.1 c
    ∧ (op.code c).run env u.1 = .ok r v.1 ∧ v.2 = op.apply env v.1 u.2

/-! ## The directory and the map -/

/-- **The directory `l` is the map `M`**: every name is looked up as in the map,
no two slots have one name, and what is in use lies inside its cluster. -/
structure Server.Represents (s : Server) (env : Env) (M : DirMap) (f l : List ℕ)
    (os : Multiset (List ℕ)) : Prop where
  owns : s.Owns ⟨f, l ::ₘ os⟩
  root : ∃ o ∈ l ::ₘ os, s.superblock.rootClusterStart ∈ o
  noName : M [] = none
  found : ∀ n ≠ [], s.lookup env l n = M n
  unique : ∀ x ∈ s.slots l, ∀ y ∈ s.slots l, (s.slotEntry env x).nameStr ≠ [] →
    (s.slotEntry env y).nameStr = (s.slotEntry env x).nameStr → y = x
  inside : ∀ x ∈ s.slots l, (s.slotEntry env x).nameStr ≠ [] → s.Inside x

namespace Server.Represents

variable {M : DirMap}

theorem chain (h : s.Represents env M f l os) : s.Chain (l.headD endOfChain) l :=
  h.owns.chain (Multiset.mem_cons_self _ _)

/-- A zeroed cluster is the empty map. -/
theorem of_zero (h : s.Owns ⟨f, [c] ::ₘ os⟩)
    (hroot : ∃ o ∈ [c] ::ₘ os, s.superblock.rootClusterStart ∈ o)
    (hzero : ∀ i < s.superblock.bytePerCluster, s.cluster c i = 0) :
    s.Represents env (fun _ => none) f [c] os := by
  have hfree : ∀ x ∈ s.slots [c], (s.slotEntry env x).nameStr = [] := fun x hx => by
    exact FatDirEntry.nameStr_of_isFree (Server.isFree_of_zero hzero hx)
  exact ⟨h, hroot, rfl,
    fun n hn => Server.lookup_eq_none.mpr (fun x hx hxn => hn (hxn.symm.trans (hfree x hx))),
    fun x hx _ _ hne => absurd (hfree x hx) hne,
    fun x hx hne => absurd (hfree x hx) hne⟩

/-- A name of the map is in one slot of the directory, inside its cluster. -/
theorem exists_slot (h : s.Represents env M f l os) (hn : M n ≠ none) :
    ∃ x ∈ s.slots l, (s.slotEntry env x).nameStr = n ∧ n ≠ [] ∧ s.Inside x
      ∧ s.findSlot env l (fun e' => e'.nameStr == n) = some x := by
  have hne : n ≠ [] := fun hnil => hn (hnil ▸ h.noName)
  obtain ⟨e, he⟩ := Option.ne_none_iff_exists'.mp hn
  rw [← h.found n hne] at he
  obtain ⟨hname, x, hx, rfl⟩ := Server.lookup_eq_some he
  have hxne : (s.slotEntry env x).nameStr ≠ [] := hname.symm ▸ hne
  refine ⟨x, hx, hname, hne, h.inside x hx hxne, ?_⟩
  exact Server.findSlot_of_unique hx (beq_iff_eq.mpr hname)
    (fun y hy hyn => h.unique x hx y hy hxne ((eq_of_beq hyn).trans hname.symm))

/-- **Changing one slot that has a name**, to that name again or to none. -/
theorem changed (h : s.Represents env M f l os) (hsb : t.superblock = s.superblock)
    (hfat : t.fatTable = s.fatTable) (hx : x ∈ s.slots l)
    (hname : (s.slotEntry env x).nameStr = n) (hne : n ≠ [])
    (hself : (t.slotEntry env x).nameStr = n ∨ (t.slotEntry env x).nameStr = [])
    (hothers : ∀ y ∈ s.slots l, y ≠ x → t.slotEntry env y = s.slotEntry env y) :
    t.Represents env (Function.update M n (t.lookup env l n)) f l os := by
  have hb : t.superblock.bytePerCluster = s.superblock.bytePerCluster := by rw [hsb]
  have hslots : t.slots l = s.slots l := Server.slots_congr hb
  have hkeep : (t.slotEntry env x).nameStr ≠ [] →
      (t.slotEntry env x).nameStr = (s.slotEntry env x).nameStr := fun hnil =>
    (hself.resolve_right hnil).trans hname.symm
  -- a slot that has a name had that name before
  have hnames : ∀ y ∈ s.slots l, (t.slotEntry env y).nameStr ≠ [] →
      (t.slotEntry env y).nameStr = (s.slotEntry env y).nameStr := fun y hy hnil => by
    by_cases hyx : y = x
    · subst hyx
      exact hkeep hnil
    · rw [hothers y hy hyx]
  refine ⟨h.owns.of_table hsb hfat, hsb ▸ h.root, ?_, fun m hm => ?_,
    fun y hy z hz hyne hzy => ?_, fun y hy hyne => ?_⟩
  · rw [Function.update_of_ne hne.symm, h.noName]
  · by_cases hmn : m = n
    · rw [hmn, Function.update_self]
    · rw [Function.update_of_ne hmn, ← h.found m hm]
      refine Server.lookup_congr hb (fun y hy => ?_)
      by_cases hyx : y = x
      · subst hyx
        refine Or.inr ⟨?_, fun hym => hmn (hym.symm.trans hname)⟩
        rcases hself with hs | hs
        · exact fun hym => hmn (hym.symm.trans hs)
        · exact fun hym => hm (hym.symm.trans hs)
      · exact Or.inl (hothers y hy hyx)
  · rw [hslots] at hy hz
    have hye := hnames y hy hyne
    have hze := hnames z hz (fun hz0 => hyne (hzy.symm.trans hz0))
    exact h.unique y hy z hz (fun hy0 => hyne (hye.trans hy0))
      (hze.symm.trans (hzy.trans hye))
  · rw [hslots] at hy
    have hye := hnames y hy hyne
    show y.2 + dirEntrySize ≤ t.superblock.bytePerCluster
    rw [hb]
    exact h.inside y hy (fun hy0 => hyne (hye.trans hy0))

/-- **Filling a slot** that was free or is new, inside its cluster, with an
entry for a name that is not there. -/
theorem filled {g f' : List ℕ} (h : s.Represents env M f l os) (hf : s.Filled t env l g x)
    (howns : t.Owns ⟨f', (l ++ g) ::ₘ os⟩)
    (hrootc : t.superblock.rootClusterStart = s.superblock.rootClusterStart)
    (hx : t.slotEntry env x = e) (hname : e.nameStr = n) (hne : n ≠ [])
    (habs : M n = none) (hin : s.Inside x) :
    t.Represents env (Function.update M n (some e)) f' (l ++ g) os := by
  have hxn : (t.slotEntry env x).nameStr = n := (congrArg _ hx).trans hname
  have hlook : s.lookup env l n = none := (h.found n hne).trans habs
  have hslots := Server.slots_congr (l := l ++ g) hf.bytePerCluster
  -- the slots in use other than `x` are those of before
  have hold : ∀ y ∈ s.slots (l ++ g), y ≠ x → (t.slotEntry env y).nameStr ≠ [] →
      y ∈ s.slots l ∧ t.slotEntry env y = s.slotEntry env y := fun y hy hyx hyne => by
    rw [Server.slots_append] at hy
    rcases List.mem_append.mp hy with hyl | hyg
    · exact ⟨hyl, hf.old y hyl hyx⟩
    · exact absurd (FatDirEntry.nameStr_of_isFree (hf.free y hyg hyx)) hyne
  refine ⟨howns, ?_, ?_, fun m hm => ?_, fun y hy z hz hyne hzy => ?_, fun y hy hyne => ?_⟩
  · obtain ⟨o, ho, hr⟩ := h.root
    rw [hrootc]
    rcases Multiset.mem_cons.mp ho with rfl | ho
    · exact ⟨_, Multiset.mem_cons_self _ _, List.mem_append_left _ hr⟩
    · exact ⟨o, Multiset.mem_cons_of_mem ho, hr⟩
  · rw [Function.update_of_ne hne.symm, h.noName]
  · by_cases hmn : m = n
    · rw [hmn, Function.update_self, hf.lookup_self hne hxn hlook, hx]
    · rw [Function.update_of_ne hmn, ← h.found m hm]
      exact hf.lookup_of_ne hm (fun heq => hmn (heq.trans hxn))
  · rw [hslots] at hy hz
    have heq : ∀ w ∈ s.slots (l ++ g), (t.slotEntry env w).nameStr = n → w = x :=
      fun w hw => hf.eq_of_nameStr hne hlook hw
    by_cases hyx : y = x
    · rw [hyx]
      exact heq z hz (by rw [hzy, hyx, hxn])
    · have hzx : z ≠ x := fun hzx =>
        hyx (heq y hy (by rw [← hzy, hzx, hxn]))
      obtain ⟨hyl, hye⟩ := hold y hy hyx hyne
      obtain ⟨hzl, hze⟩ := hold z hz hzx (fun hz0 => hyne (hzy.symm.trans hz0))
      rw [hye] at hyne
      rw [hye, hze] at hzy
      exact h.unique y hyl z hzl hyne hzy
  · rw [hslots] at hy
    show y.2 + dirEntrySize ≤ t.superblock.bytePerCluster
    rw [hf.bytePerCluster]
    by_cases hyx : y = x
    · exact hyx ▸ hin
    · obtain ⟨hyl, hye⟩ := hold y hy hyx hyne
      exact h.inside y hyl (hye ▸ hyne)

end Server.Represents

/-! ## Runs -/

variable {M M' : DirMap} {u v : Server × DirMap}

/-- **Adding**, when the slot lies inside its cluster. -/
theorem Server.Represents.add (hr : env.Reliable) (h : s.Represents env M f l os)
    (hen : (DirOp.add name first type).Enabled env s (l.headD endOfChain) M)
    (hfit : (DirOp.add name first type).Fits env s (l.headD endOfChain)) :
    ∃ t f' l', (addDirEntryToCluster (l.headD endOfChain) name first type).run env s = .ok 0 t
      ∧ l'.headD endOfChain = l.headD endOfChain
      ∧ t.Represents env ((DirOp.add name first type).apply env t M) f' l' os := by
  obtain ⟨hn, h0, habs, hfirst, hroom⟩ := hen
  have hne : name ≠ [] := List.length_pos_iff.mp (Nat.pos_of_ne_zero hn.2)
  have hfull : s.findSlot env l FatDirEntry.isFree = none → f ≠ [] := fun hnone hf => by
    refine hroom l h.chain hnone ?_
    rw [h.owns.freeClusterStart_eq, hf]
    rfl
  obtain ⟨t, x, k, hrun, hins, -⟩ := addDirEntryToCluster_inserted type hr h.owns h.root
    hfirst hn (hfit l h.chain) hfull
  obtain ⟨w, hw, hentry⟩ := hins.entry
  obtain ⟨v, hv⟩ := hins.superblock
  refine ⟨t, f.drop k, l ++ f.take k, hrun, ?_, ?_⟩
  · cases l with
    | nil => exact absurd rfl (h.owns.owners _ (Multiset.mem_cons_self _ _)).1
    | cons c l => rfl
  · have htime : t.slotEntry env x = (freshEntry name first type).withTime
        (UInt64.ofNat (env.time (t.pwrites.length - 1))) := by
      rw [hentry, Server.madeEntry_eq, ← hw, Nat.add_sub_cancel]
    exact h.filled (hins.filled h.owns) hins.owns (by rw [hv]; rfl) htime
      (freshEntry_withTime hn h0 _) hne habs hins.inside

/-- **Updating** an entry under its name. -/
theorem Server.Represents.update (hr : env.Reliable) (h : s.Represents env M f l os)
    (hen : M e.nameStr ≠ none) :
    ∃ t, (updateDirEntry (l.headD endOfChain) e false).run env s = .ok 0 t
      ∧ t.Represents env ((DirOp.update e).apply env t M) f l os := by
  obtain ⟨x, hx, hname, hne, hin, hfind⟩ := h.exists_slot hen
  obtain ⟨t, hrun, hre⟩ := updateDirEntry_rewritten hr h.owns.geometry h.chain hfind hin
  have hothers : ∀ y ∈ s.slots l, y ≠ x → t.slotEntry env y = s.slotEntry env y :=
    fun y hy hyx => Server.slotEntry_congr (by rw [hre.superblock])
      (fun i hi hi' hib => hre.clusters y.1 i hib (Server.slots_disjoint hx hy hyx hi hi'))
  have hch := h.changed hre.superblock hre.fatTable hx hname hne
    (Or.inl (congrArg _ hre.entry)) hothers
  have hxt : x ∈ t.slots l := by
    rw [Server.slots_congr (s := s) (t := t) (by rw [hre.superblock])]
    exact hx
  have hlook : t.lookup env l e.nameStr = some e := by
    have hxe : (t.slotEntry env x).nameStr = e.nameStr := congrArg _ hre.entry
    rw [Server.lookup_of_unique hxt hxe (fun y hy hyn => hch.unique x hxt y hy
      (fun h0 => hne (hxe.symm.trans h0)) (hyn.trans hxe.symm)), hre.entry]
  rw [hlook] at hch
  exact ⟨t, hrun, hch⟩

/-- **Removing** the entry with a name. -/
theorem Server.Represents.remove (hr : env.Reliable) (h : s.Represents env M f l os)
    (hen : M e.nameStr ≠ none) :
    ∃ t, (updateDirEntry (l.headD endOfChain) e true).run env s = .ok 0 t
      ∧ t.Represents env ((DirOp.remove e).apply env t M) f l os := by
  obtain ⟨x, hx, hname, hne, hin, hfind⟩ := h.exists_slot hen
  obtain ⟨k, hk⟩ := updateDirEntry_run hr h.owns.geometry h.chain hfind true (by simp)
  rw [if_pos rfl, if_pos rfl] at hk
  set v : Server := { s with preads := k } with hv
  set t := v.store env x (fun _ => 0) 1 with ht
  have hxs := mem_dirSlots.mp (Server.mem_slots.mp hx).2
  have hself : (t.slotEntry env x).nameStr = [] :=
    FatDirEntry.nameStr_of_isFree (Server.isFree_store (s := v) hr.writes hxs.2)
  have hothers : ∀ y ∈ s.slots l, y ≠ x → t.slotEntry env y = s.slotEntry env y :=
    fun y hy hyx => Server.slotEntry_store_of_ne (s := v) hr.writes hxs.1
      (mem_dirSlots.mp (Server.mem_slots.mp hy).2).1 hyx (by decide)
  have hch := h.changed (t := t) rfl rfl hx hname hne (Or.inr hself) hothers
  have hlook : t.lookup env l e.nameStr = none := by
    refine Server.lookup_eq_none.mpr (fun y hy hyn => ?_)
    by_cases hyx : y = x
    · rw [hyx, hself] at hyn
      exact hne hyn.symm
    · rw [hothers y hy hyx] at hyn
      exact hyx (h.unique x hx y hy (fun h0 => hne (hname.symm.trans h0))
        (hyn.trans hname.symm))
  rw [hlook] at hch
  exact ⟨t, hk, hch⟩

/-- **An operation** that is enabled and fits returns, and the directory is again
the map that the operation makes. -/
theorem Server.Represents.op (hr : env.Reliable) (h : s.Represents env M f l os) (op : DirOp)
    (hen : op.Enabled env s (l.headD endOfChain) M)
    (hfit : op.Fits env s (l.headD endOfChain)) :
    ∃ t f' l', (op.code (l.headD endOfChain)).run env s = .ok 0 t
      ∧ l'.headD endOfChain = l.headD endOfChain
      ∧ t.Represents env (op.apply env t M) f' l' os := by
  cases op with
  | add name first type => exact h.add hr hen hfit
  | update e =>
    obtain ⟨t, hrun, ht⟩ := h.update hr hen
    exact ⟨t, f, l, hrun, rfl, ht⟩
  | remove e =>
    obtain ⟨t, hrun, ht⟩ := h.remove hr hen
    exact ⟨t, f, l, hrun, rfl, ht⟩

/-- **A run keeps the directory and the map together.** -/
theorem Server.Represents.run (hr : env.Reliable) (h : u.1.Represents env u.2 f l os)
    (hrun : Relation.ReflTransGen (DirStep env (l.headD endOfChain)) u v) :
    ∃ f' l', l'.headD endOfChain = l.headD endOfChain
      ∧ v.1.Represents env v.2 f' l' os := by
  induction hrun with
  | refl => exact ⟨f, l, rfl, h⟩
  | tail _ hstep ih =>
    obtain ⟨f', l', hl, hrep⟩ := ih
    obtain ⟨op, r, hen, hfit, hcode, happly⟩ := hstep
    rw [← hl] at hen hfit hcode
    obtain ⟨t, f'', l'', hcode', hl', hrep'⟩ := hrep.op hr op hen hfit
    rw [hcode] at hcode'
    obtain ⟨-, rfl⟩ := Outcome.ok.inj hcode'
    rw [← happly] at hrep'
    exact ⟨f'', l'', hl'.trans hl, hrep'⟩

/-- **A directory is a finite map, when every new entry lies inside its
cluster.** After every run of such operations from a zeroed cluster, a name is
found exactly if it is in the map, with what was last stored for it, and any
operation whose new entry lies inside its cluster succeeds. The slots a scan
visits all lie inside their clusters exactly if the entry size divides the
cluster size, or the scan ends in the first cluster at a slot that does. -/
theorem directory_is_map (hr : env.Reliable) (h : s.Owns ⟨f, [c] ::ₘ os⟩)
    (hroot : ∃ o ∈ [c] ::ₘ os, s.superblock.rootClusterStart ∈ o)
    (hzero : ∀ i < s.superblock.bytePerCluster, s.cluster c i = 0)
    (hrun : Relation.ReflTransGen (DirStep env c) (s, fun _ => none) u) :
    (∀ n ≠ [], u.1.Reads env (findDirEntryByName c n) (u.2 n))
    ∧ (∀ op : DirOp, op.Enabled env u.1 c u.2 → op.Fits env u.1 c →
      ∃ t, (op.code c).run env u.1 = .ok 0 t)
    ∧ ∃ l, u.1.Chain c l ∧ ∀ p : FatDirEntry → Bool,
      (∀ x, u.1.Visits env l p x → u.1.Inside x)
        ↔ dirEntrySize ∣ u.1.superblock.bytePerCluster
          ∨ ∃ x ∈ u.1.slots [c], u.1.Inside x ∧ p (u.1.slotEntry env x) = true := by
  obtain ⟨f', l, hl, hrep⟩ := Server.Represents.run (u := (s, fun _ => none)) hr
    (Server.Represents.of_zero h hroot hzero) hrun
  replace hl : l.headD endOfChain = c := hl
  have hmem : l ∈ l ::ₘ os := Multiset.mem_cons_self _ _
  refine ⟨fun n hn => ?_, fun op hen hfit => ?_, l, hl ▸ hrep.chain, fun p => ?_⟩
  · have hfind := hrep.owns.reads_find hr.reads hmem n
    rw [hl, hrep.found n hn] at hfind
    exact hfind
  · rw [← hl] at hen hfit ⊢
    obtain ⟨t, _, _, hcode, -⟩ := hrep.op hr op hen hfit
    exact ⟨t, hcode⟩
  · cases l with
    | nil => exact absurd rfl (hrep.owns.owners _ hmem).1
    | cons c' l =>
      obtain rfl : c' = c := hl
      exact visits_inside_iff

/-! ## The root directory of a fresh disk -/

/-- The root directory of a fresh disk is zeroed. -/
theorem cluster_root_formatted {i : ℕ} (hi : i < 4096) :
    (Server.blank.formatted env).cluster 4 i = 0 :=
  Server.cluster_formatted (by decide) hi

theorem bytePerCluster_formatted :
    (s.formatted env).superblock.bytePerCluster = 4096 := by
  rw [Server.superblock_formatted]
  rfl

theorem root_formatted :
    ∃ o ∈ Server.freshPool.owners, (s.formatted env).superblock.rootClusterStart ∈ o :=
  ⟨[4], Multiset.mem_singleton_self _, by
    rw [Server.superblock_formatted]
    exact List.mem_singleton_self 4⟩

/-- The root directory of a fresh disk is zero. -/
theorem root_zero_formatted {i : ℕ}
    (hi : i < (Server.blank.formatted env).superblock.bytePerCluster) :
    (Server.blank.formatted env).cluster 4 i = 0 :=
  cluster_root_formatted (by rw [← bytePerCluster_formatted]; exact hi)

/-- Its slots are free. -/
theorem isFree_formatted (hx : x ∈ (Server.blank.formatted env).slots [4]) :
    ((Server.blank.formatted env).slotEntry env x).isFree = true :=
  Server.isFree_of_zero (fun _ hi => root_zero_formatted hi) hx

/-- The first of them is what an insertion finds. -/
theorem findSlot_formatted :
    (Server.blank.formatted env).findSlot env [4] FatDirEntry.isFree = some (4, 0) :=
  Server.findSlot_of_zero (Server.owns_formatted _ _).geometry fun _ hi =>
    root_zero_formatted hi

/-- An entry `"a"` is added to the root directory of a fresh disk, and found. -/
theorem directory_is_map_formatted :
    ∃ t, (addDirEntryToCluster 4 [97] 5 dirEntryTypeFile).run .ideal
        (Server.blank.formatted .ideal) = .ok 0 t
      ∧ t.Reads .ideal (findDirEntryByName 4 [97])
        (some (freshEntry [97] 5 dirEntryTypeFile)) := by
  have howns : (Server.blank.formatted .ideal).Owns Server.freshPool := Server.owns_formatted _ _
  have hzero : ∀ i < (Server.blank.formatted .ideal).superblock.bytePerCluster,
      (Server.blank.formatted .ideal).cluster 4 i = 0 := fun i hi =>
    cluster_root_formatted (by rw [← bytePerCluster_formatted]; exact hi)
  have hchain : ∀ l, (Server.blank.formatted .ideal).Chain 4 l → l = [4] := fun l hl =>
    hl.linked.unique (howns.chain (Multiset.mem_singleton_self [4])).linked
  have hfree : (Server.blank.formatted .ideal).superblock.freeClusterStart = 5 := by
    rw [Server.superblock_formatted]
    rfl
  have hen : (DirOp.add [97] 5 dirEntryTypeFile).Enabled .ideal
      (Server.blank.formatted .ideal) 4 (fun _ => none) :=
    ⟨by decide, by decide, rfl, Server.isData_formatted.mpr (by decide),
      fun _ _ _ => by rw [hfree]; decide⟩
  have hfit : (DirOp.add [97] 5 dirEntryTypeFile).Fits .ideal
      (Server.blank.formatted .ideal) 4 := by
    intro l hl x hx
    rw [hchain l hl, findSlot_formatted] at hx
    obtain rfl := Option.some.inj hx
    show 0 + dirEntrySize ≤ _
    rw [bytePerCluster_formatted]
    decide
  obtain ⟨t, hrun⟩ := (directory_is_map Env.ideal_reliable howns root_formatted hzero
    .refl).2.1 _ hen hfit
  have hstep : DirStep .ideal 4 (Server.blank.formatted .ideal, fun _ => none)
      (t, (DirOp.add [97] 5 dirEntryTypeFile).apply .ideal t fun _ => none) :=
    ⟨_, _, hen, hfit, hrun, rfl⟩
  refine ⟨t, hrun, ?_⟩
  have hfind := (directory_is_map Env.ideal_reliable howns root_formatted hzero
    (.single hstep)).1 [97] (by decide)
  have happ : (DirOp.add [97] 5 dirEntryTypeFile).apply .ideal t (fun _ => none) [97]
      = some (freshEntry [97] 5 dirEntryTypeFile) := by
    rw [DirOp.apply, Function.update_self]
    rfl
  rw [← happ]
  exact hfind

/-- **Looking up a name in the root directory of a fresh disk** visits a slot
that sticks out of the cluster. -/
theorem formatted_visits_outside :
    (Server.blank.formatted .ideal).Owns Server.freshPool
    ∧ (∀ i < 4096, (Server.blank.formatted .ideal).cluster 4 i = 0)
    ∧ ∃ x, (Server.blank.formatted .ideal).Visits .ideal [4]
        (fun e => e.nameStr == [97]) x
      ∧ ¬ (Server.blank.formatted .ideal).Inside x := by
  refine ⟨Server.owns_formatted _ _, fun i hi => cluster_root_formatted hi, ?_⟩
  by_contra hnot
  rcases visits_inside_iff.mp (fun x hx => by_contra fun hin => hnot ⟨x, hx, hin⟩) with
    hdvd | ⟨x, hx, -, hp⟩
  · rw [bytePerCluster_formatted] at hdvd
    exact absurd hdvd (by decide)
  · rw [FatDirEntry.nameStr_of_isFree (isFree_formatted hx)] at hp
    exact absurd hp (by decide)

end Fat
